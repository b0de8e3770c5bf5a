/-
Freshness: the stored instance is the most recent one that was offered.

What happens to a table is told by its episodes: an LSA is offered, by a neighbour or by the local router, or a record is
removed. `offersFor` collects what was offered for a key since a record of the key was last removed. After every run, the
stored header is at least as recent as all these offers, the refused ones included, and just as recent as the last of
them that was taken (`newest_of_run`).

`Newest` ties the offers to the record of a key, and it carries the induction: one lemma for each building block of the
operations, with the period that starts anew where a record is removed.
-/
import RoutingReplay.Proofs.Ospf.Flooding
import RoutingReplay.Proofs.Ospf.Reachable

namespace RoutingReplay.Ospf.Database

/-! ## Episodes -/

/-- something that happens to a table in the course of an operation -/
inductive Episode where
  /-- an LSA is offered, and it is taken or not -/
  | offer (o : Offer) (taken : Bool)
  /-- the record of a key goes without another in its place -/
  | removal (key : LsaKey)

/-- an origination offers the LSA that it was given; if the numbers are exhausted, the old instance goes first and the
LSA gets the first number -/
def originationEpisodes (db : Database) (now : Instant) (lsa : Lsa) : List Episode :=
  let taken := (db.originate now lsa).answer
  if lsa.hdr.seqNo = some reservedSeqNo then
    [.removal lsa.hdr.key, .offer ⟨{ lsa.hdr with seqNo := some initialSeqNo }, lsa.body⟩ taken]
  else [.offer ⟨lsa.hdr, lsa.body⟩ taken]

/-- the episodes of one renewal after another -/
def renewalEpisodes (now : Instant) : List Lsa → Database → List Episode
  | [], _ => []
  | lsa :: rest, db =>
    originationEpisodes db now (db.nextInstance now lsa.hdr.options lsa.hdr.lsaId lsa.hdr.advRouter lsa.body) ++
      renewalEpisodes now rest (refresh.renew now lsa db).state

/-- the keys that had a record and have none any more -/
def lostKeys (old new : Database) : List LsaKey := old.table.keys.filter fun k => !new.table.contains k

/-- the episodes of an operation -/
def Op.episodes (op : Op) (now : Instant) (db : Database) : List Episode :=
  match op with
  | .receive hdr body => [.offer ⟨hdr, body⟩ (db.receive now hdr body).answer]
  | .installRouterLsa routerId flags links => originationEpisodes db now (db.nextRouterLsa now routerId flags links)
  | .installExternalLsa routerId route => originationEpisodes db now (db.nextExternalLsa now routerId route)
  | .installNssaLsa routerId route => originationEpisodes db now (db.nextNssaLsa now routerId route)
  | .refresh => renewalEpisodes now db.dueForRefresh db
  | .flush _ | .age _ | .ageTick | .clear => (lostKeys db (perform op now db).state).map .removal

/-- the episodes of a run -/
def episodes (calls : List Call) : List Episode :=
  calls.flatMap fun call => call.op.episodes call.before.now call.before.state

/-- the offers for a key and whether they were taken, with one more episode; a removal starts them anew -/
def Episode.extend (k : LsaKey) (offers : List (Offer × Bool)) : Episode → List (Offer × Bool)
  | .offer o taken => if o.Fits k then offers ++ [(o, taken)] else offers
  | .removal key => if key = k then [] else offers

/-- what was offered for a key since a record of the key was last removed, oldest first, and whether it was taken -/
def offersFor (k : LsaKey) (episodes : List Episode) : List (Offer × Bool) := episodes.foldl (Episode.extend k) []

/-- the last offer that was taken -/
def lastTaken? (offers : List (Offer × Bool)) : Option Offer := (offers.filter Prod.snd).getLast?.map Prod.fst

/-! ## The record and the offers for its key -/

/-- the record of a key is the newest of the offers for it -/
structure Newest (offers : List (Offer × Bool)) (r? : Option Record) : Prop where
  /-- without a record, nothing was offered since the last one went -/
  absent : r? = none → offers = []
  covers : ∀ r ∈ r?, ∀ o ∈ offers, o.1.hdr.rank ≤ r.lsa.hdr.rank
  last : ∀ r ∈ r?, ∃ o ∈ lastTaken? offers, o.hdr.rank = r.lsa.hdr.rank

namespace Newest

variable {k : LsaKey} {offers : List (Offer × Bool)} {r? : Option Record} {db : Database}

theorem vacant : Newest [] (none : Option Record) := by
  refine ⟨fun _ => rfl, ?_, ?_⟩
  · rintro r ⟨⟩
  · rintro r ⟨⟩

/-- an offer that is taken -/
theorem take (h : Newest offers r?) {o : Offer} (hnewer : ∀ r ∈ r?, r.lsa.hdr.rank < o.hdr.rank) {r : Record}
    (hr : r.lsa.hdr.rank = o.hdr.rank) : Newest (offers ++ [(o, true)]) (some r) := by
  refine ⟨fun hnone => (by cases hnone), ?_, ?_⟩
  · rintro _ ⟨⟩ p hp
    rcases List.mem_append.mp hp with hp | hp
    · cases hstored : r? with
      | none =>
        rw [h.absent hstored] at hp
        cases hp
      | some old =>
        have hle := h.covers old hstored p hp
        have hlt := hnewer old hstored
        omega
    · rw [List.mem_singleton.mp hp, hr]
  · rintro _ ⟨⟩
    exact ⟨o, by simp [lastTaken?], hr.symm⟩

/-- an offer that is refused because something as recent is stored -/
theorem refuse (h : Newest offers r?) {o : Offer} {r : Record} (hr : r ∈ r?) (hle : o.hdr.rank ≤ r.lsa.hdr.rank) :
    Newest (offers ++ [(o, false)]) r? := by
  cases hr
  refine ⟨fun hnone => (by cases hnone), ?_, ?_⟩
  · rintro _ ⟨⟩ p hp
    rcases List.mem_append.mp hp with hp | hp
    · exact h.covers r rfl p hp
    · rw [List.mem_singleton.mp hp]
      exact hle
  · simpa [lastTaken?] using h.last

/-- a record that gives way to one that is as recent, or to none when the offers start anew -/
theorem replace (h : Newest offers r?) {new : Option Record}
    (hrank : ∀ r' ∈ new, ∃ r ∈ r?, r'.lsa.hdr.rank = r.lsa.hdr.rank) (hnone : new = none → r? = none) :
    Newest offers new := by
  refine ⟨fun hnew => h.absent (hnone hnew), ?_, ?_⟩
  · intro r' hr' o ho
    obtain ⟨r, hr, heq⟩ := hrank r' hr'
    rw [heq]
    exact h.covers r hr o ho
  · intro r' hr'
    obtain ⟨r, hr, heq⟩ := hrank r' hr'
    rw [heq]
    exact h.last r hr

/-! ### The building blocks -/

theorem install (h : Newest offers (db.table.find? k)) (now : Instant) (origin : Origin) (o : Offer) :
    Newest (Episode.extend k offers (.offer o (db.install now origin o.hdr o.body).answer))
      ((db.install now origin o.hdr o.body).state.table.find? k) := by
  have hanswer := answer_install db now origin o.hdr o.body
  rw [find?_install]
  simp only [Episode.extend]
  by_cases hfits : o.Fits k
  · obtain ⟨rfl, htype⟩ := hfits
    rw [if_pos ⟨rfl, htype⟩, if_pos rfl, afterOffer]
    by_cases hnewer : ∀ r ∈ db.table.find? o.hdr.key, r.lsa.hdr.rank < o.hdr.rank
    · rw [if_pos ⟨htype, hnewer⟩, hanswer.mpr ⟨htype, hnewer⟩]
      exact h.take hnewer rfl
    · have hrefused : (db.install now origin o.hdr o.body).answer = false :=
        Bool.eq_false_iff.mpr fun htaken => hnewer (hanswer.mp htaken).2
      rw [if_neg fun hoffer => hnewer hoffer.2, hrefused]
      push Not at hnewer
      obtain ⟨r, hr, hle⟩ := hnewer
      exact h.refuse hr hle
  · rw [if_neg hfits]
    by_cases hkey : k = o.hdr.key
    · have htype : o.hdr.lsaType ≠ o.body.lsaType := fun htype => hfits ⟨hkey.symm, htype⟩
      rw [if_pos hkey, afterOffer, if_neg fun hoffer => htype hoffer.1]
      exact h
    · rw [if_neg hkey]
      exact h

theorem remove (h : Newest offers (db.table.find? k)) (now : Instant) (key : LsaKey) (reason : FlushReason) :
    Newest (Episode.extend k offers (.removal key)) ((db.remove now key reason).state.table.find? k) := by
  rw [find?_remove]
  simp only [Episode.extend]
  by_cases hkey : key = k
  · rw [if_pos hkey, if_pos hkey.symm]
    exact .vacant
  · rw [if_neg hkey, if_neg (Ne.symm hkey)]
    exact h

theorem originate (h : Newest offers (db.table.find? k)) (now : Instant) (lsa : Lsa) :
    Newest ((originationEpisodes db now lsa).foldl (Episode.extend k) offers)
      ((db.originate now lsa).state.table.find? k) := by
  unfold originationEpisodes Database.originate
  by_cases hlast : lsa.hdr.seqNo = some reservedSeqNo
  · simp only [if_pos hlast, List.foldl_cons, List.foldl_nil, Outcome.state_within, Outcome.answer_within,
      table_installOwn]
    exact (h.remove now lsa.hdr.key .prematureAging).install now .selfOriginated ⟨_, lsa.body⟩
  · simp only [if_neg hlast, List.foldl_cons, List.foldl_nil, Outcome.state_within, Outcome.answer_within,
      table_installOwn]
    exact h.install now .selfOriginated ⟨lsa.hdr, lsa.body⟩

/-- one renewal after another -/
theorem renewals (now : Instant) (lsas : List Lsa) (h : Newest offers (db.table.find? k)) :
    Newest ((renewalEpisodes now lsas db).foldl (Episode.extend k) offers)
      ((Outcome.forEach (refresh.renew now) lsas db).state.table.find? k) := by
  induction lsas generalizing db offers with
  | nil => exact h
  | cons lsa rest ih =>
    simp only [renewalEpisodes, List.foldl_append, Outcome.forEach]
    exact ih (h.originate now _)

end Newest

/-! ## Operations that only remove -/

theorem mem_lostKeys {old new : Database} {k : LsaKey} :
    k ∈ lostKeys old new ↔ old.table.find? k ≠ none ∧ new.table.find? k = none := by
  simp [lostKeys, SortedMap.mem_keys_iff, SortedMap.contains, Option.isSome_iff_ne_none]

theorem foldl_removals (k : LsaKey) (keys : List LsaKey) (offers : List (Offer × Bool)) :
    (keys.map Episode.removal).foldl (Episode.extend k) offers = if k ∈ keys then [] else offers := by
  induction keys generalizing offers with
  | nil => simp
  | cons key rest ih =>
    rw [List.map_cons, List.foldl_cons, ih]
    by_cases hkey : key = k
    · simp [Episode.extend, hkey]
    · simp [Episode.extend, hkey, Ne.symm hkey]

/-- removals start the offers anew for just the keys that lost their records -/
theorem Newest.lose {k : LsaKey} {offers : List (Offer × Bool)} {old new : Database}
    (h : Newest offers (old.table.find? k))
    (hrank : ∀ r' ∈ new.table.find? k, ∃ r ∈ old.table.find? k, r'.lsa.hdr.rank = r.lsa.hdr.rank) :
    Newest (((lostKeys old new).map .removal).foldl (Episode.extend k) offers) (new.table.find? k) := by
  rw [foldl_removals]
  split
  · rename_i hlost
    rw [(mem_lostKeys.mp hlost).2]
    exact .vacant
  · rename_i hkept
    refine h.replace hrank fun hnone => ?_
    by_contra hsome
    exact hkept (mem_lostKeys.mpr ⟨hsome, hnone⟩)

/-- ageing changes no rank -/
theorem rank_of_afterAging {elapsed : Nat} {r? : Option Record} :
    ∀ r' ∈ afterAging elapsed r?, ∃ r ∈ r?, r'.lsa.hdr.rank = r.lsa.hdr.rank := by
  intro r' hr'
  obtain ⟨r, hr, -, rfl⟩ := mem_afterAging.mp hr'
  exact ⟨r, hr, Header.rank_aged _ _⟩

/-! ## Whole runs -/

/-- Every operation keeps the record of a key the newest of the offers for it. -/
theorem Newest.perform {k : LsaKey} {offers : List (Offer × Bool)} {db : Database}
    (h : Newest offers (db.table.find? k)) (op : Op) (now : Instant) :
    Newest ((op.episodes now db).foldl (Episode.extend k) offers) ((perform op now db).state.table.find? k) := by
  cases op with
  | receive hdr body => exact h.install now .received ⟨hdr, body⟩
  | installRouterLsa routerId flags links => exact h.originate now _
  | installExternalLsa routerId route => exact h.originate now _
  | installNssaLsa routerId route => exact h.originate now _
  | refresh => exact h.renewals now db.dueForRefresh
  | flush key =>
    refine h.lose ?_
    intro r' hr'
    have hflush : (Database.perform (.flush key) now db).state.table.find? k = _ := find?_flush db now key k
    rw [hflush] at hr'
    split at hr'
    · cases hr'
    · exact ⟨r', hr', rfl⟩
  | age elapsed =>
    refine h.lose ?_
    have haged : (Database.perform (.age elapsed) now db).state.table.find? k = _ := find?_age db now elapsed k
    rw [haged]
    exact rank_of_afterAging
  | ageTick =>
    refine h.lose ?_
    have haged : (Database.perform .ageTick now db).state.table.find? k = _ := find?_age _ now _ k
    rw [haged]
    exact rank_of_afterAging
  | clear =>
    refine h.lose ?_
    have hclear : (Database.perform .clear now db).state.table.find? k = none := find?_clear db k
    rw [hclear]
    rintro r' ⟨⟩

theorem newest_offersFor {areaId : Address4} {start : Instant} {turns : List (Turn Op)}
    {out : Outcome (Timed Database) Notice (List Answer)} (h : run ⟨start, empty areaId start⟩ turns = .ok out)
    (k : LsaKey) :
    Newest (offersFor k (episodes (calls areaId start turns))) (out.state.state.table.find? k) := by
  refine Timed.history_of_run (P := fun past s => Newest (offersFor k (episodes past)) (s.state.table.find? k))
    ?_ ?_ [] ?_ turns h
  · intro past s d now hs _
    exact hs
  · intro past s op hs
    simp only [offersFor, episodes, List.flatMap_append, List.foldl_append, List.flatMap_singleton] at hs ⊢
    exact hs.perform op s.now
  · exact .vacant

/-- **The stored instance is the newest.** After every run, the header under a key is not less recent than any LSA that
was offered for the key, taken or not, since a record of the key was last removed, and it is as recent as the last of
them that was taken. -/
theorem newest_of_run {areaId : Address4} {start : Instant} {turns : List (Turn Op)}
    {out : Outcome (Timed Database) Notice (List Answer)} (h : run ⟨start, empty areaId start⟩ turns = .ok out)
    {k : LsaKey} {r : Record} (hstored : out.state.state.table.find? k = some r) :
    (∀ o ∈ offersFor k (episodes (calls areaId start turns)), r.lsa.hdr.recency o.1.hdr ≠ .lt) ∧
      ∃ o, lastTaken? (offersFor k (episodes (calls areaId start turns))) = some o ∧
        r.lsa.hdr.recency o.hdr = .eq := by
  have hnewest := newest_offersFor h k
  refine ⟨?_, ?_⟩
  · intro o ho
    exact Header.recency_ne_lt_iff.mpr (hnewest.covers r hstored o ho)
  · obtain ⟨o, ho, hrank⟩ := hnewest.last r hstored
    exact ⟨o, ho, Header.recency_eq_iff.mpr hrank.symm⟩

/-- a neighbour sends the local router's own LSA with the last number, the router starts over, and the neighbour sends
an instance with the first number -/
def startingOver : List (Turn Op) :=
  [.perform (.receive (instanceOffer 0x7fffffff 10).hdr (instanceOffer 0x7fffffff 10).body),
    .perform (.installRouterLsa ⟨1⟩ ⟨0⟩ []),
    .perform (.receive (instanceOffer 0x80000001 20).hdr (instanceOffer 0x80000001 20).body), .perform (.age 5)]

/-- What was sent before the router starts over does not count any more; what was sent after it is refused. -/
theorem newest_of_run_startingOver :
    let offers := offersFor (instanceOffer 1 10).hdr.key (episodes (calls .unspecified .start startingOver))
    ∃ out r, run ⟨.start, empty .unspecified .start⟩ startingOver = .ok out ∧
      out.state.state.table.find? (instanceOffer 1 10).hdr.key = some r ∧ r.lsa.hdr.seqNo = some 0x80000001 ∧
        offers.map Prod.snd = [true, false] ∧ (∀ o ∈ offers, r.lsa.hdr.recency o.1.hdr ≠ .lt) ∧
          ∃ o, lastTaken? offers = some o ∧ r.lsa.hdr.recency o.hdr = .eq := by
  intro offers
  have htaken : offers.map Prod.snd = [true, false] := by decide +kernel
  exact ⟨_, _, rfl, rfl, rfl, htaken, newest_of_run rfl rfl⟩

end RoutingReplay.Ospf.Database
