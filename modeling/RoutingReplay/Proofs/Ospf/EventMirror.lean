/-
The journal of a database as a mirror of its table.

A reader of the journal can keep a table of headers: what is installed goes in, what is flushed goes out, and at a
clearing everything goes (`Notice.apply`). The database changes its table in `store`, `remove` and `clear` and reports in
`install`, `originate`, `remove` and `clear`, so that no single place shows that the two agree. `Follows` says it of one
operation: if the reader's table agrees with the database before, it agrees after the events of the operation. It holds
of the building blocks, and scopes, loops and further events keep it (`follows_perform`).

Ages are not reported; the tables agree in everything else.

- `reported_originate`: an origination reports, in this order, the flushing if numbers start over, the origination and
  the installation, the last two with the header that is stored then.
- `journal_faithful`: all that over runs.
-/
import RoutingReplay.Proofs.Ospf.Refresh

namespace RoutingReplay

/-! ## The events of an outcome -/

namespace Outcome

variable {σ ε α : Type}

/-- the events of an outcome, without the scopes around them -/
def reported (out : Outcome σ ε α) : List ε := out.journal.map Entry.event

@[simp] theorem reported_silent (state : σ) (answer : α) : (silent state answer : Outcome σ ε α).reported = [] := rfl

@[simp] theorem reported_after (event : ε) (out : Outcome σ ε α) :
    (out.after event).reported = event :: out.reported := rfl

@[simp] theorem reported_within (scope : Scope) (out : Outcome σ ε α) : (out.within scope).reported = out.reported :=
  events_within scope out

theorem reported_forEach_cons {κ : Type} (act : κ → σ → Outcome σ ε α) (k : κ) (rest : List κ) (state : σ) :
    (forEach act (k :: rest) state).reported =
      (act k state).reported ++ (forEach act rest (act k state).state).reported :=
  List.map_append

end Outcome

namespace Ospf

/-! ## The reader's table -/

/-- a header without its age -/
def Header.ageless (h : Header) : Header := { h with age := 0 }

/-- what an event makes of the reader's table -/
def Notice.apply (m : SortedMap LsaKey Header) : Notice → SortedMap LsaKey Header
  | .installing hdr => m.insert hdr.key hdr
  | .flushing hdr _ => m.erase hdr.key
  | .clearing _ => .empty
  | _ => m

/-- the reader's table after some events -/
def mirror (events : List Notice) : SortedMap LsaKey Header := events.foldl Notice.apply .empty

namespace Database

variable {α β : Type} {db db' : Database} {m : SortedMap LsaKey Header}

/-- the reader's table agrees with the table, whose records stand under the keys of their headers -/
structure Mirrors (m : SortedMap LsaKey Header) (db : Database) : Prop where
  agrees : ∀ k, (m.find? k).map Header.ageless = (db.table.find? k).map fun r => r.lsa.hdr.ageless
  keyed : ∀ k, ∀ r ∈ db.table.find? k, r.lsa.hdr.key = k

namespace Mirrors

theorem empty (areaId : Address4) (now : Instant) : Mirrors .empty (Database.empty areaId now) := by
  refine ⟨fun _ => rfl, ?_⟩
  intro k r hr
  cases hr

/-- only the table counts -/
theorem of_table (h : Mirrors m db) (htable : db'.table = db.table) : Mirrors m db' := by
  constructor
  · rw [htable]
    exact h.agrees
  · rw [htable]
    exact h.keyed

theorem store (h : Mirrors m db) (now : Instant) (origin : Origin) (hdr : Header) (body : Body) :
    Mirrors (m.insert hdr.key hdr) (db.store now origin hdr body) := by
  constructor
  · intro k
    simp only [Database.store, SortedMap.find?_insert]
    split
    · rfl
    · exact h.agrees k
  · intro k r hr
    simp only [Database.store, SortedMap.find?_insert] at hr
    split at hr
    · rename_i hk
      cases hr
      exact hk.symm
    · exact h.keyed k r hr

theorem erase (h : Mirrors m db) {key : LsaKey} (htable : db'.table = db.table.erase key) :
    Mirrors (m.erase key) db' := by
  constructor
  · intro k
    rw [htable, SortedMap.find?_erase, SortedMap.find?_erase]
    split
    · rfl
    · exact h.agrees k
  · intro k r hr
    rw [htable, SortedMap.find?_erase] at hr
    split at hr
    · cases hr
    · exact h.keyed k r hr

/-- a table in which only ages have changed -/
theorem aged (h : Mirrors m db) {elapsed : Nat} (htable : db'.table = db.agedTable elapsed) : Mirrors m db' := by
  have hfind : ∀ k, db'.table.find? k = (db.table.find? k).map (·.aged elapsed) := by
    intro k
    rw [htable]
    exact SortedMap.find?_mapValues _ _ _
  constructor
  · intro k
    rw [h.agrees, hfind, Option.map_map]
    rfl
  · intro k r hr
    rw [Option.mem_def, hfind, Option.map_eq_some_iff] at hr
    obtain ⟨old, hold, rfl⟩ := hr
    exact h.keyed k old hold

end Mirrors

/-! ## Operations report what they do -/

/-- the events of an operation keep the reader's table in step -/
def Follows (db : Database) (out : Step α) : Prop :=
  ∀ m, Mirrors m db → Mirrors (out.reported.foldl Notice.apply m) out.state

theorem follows_silent (db : Database) (answer : α) : Follows db (.silent db answer) := fun _ h => h

theorem Follows.map {out : Step α} (h : Follows db out) (f : α → β) : Follows db (out.map f) := h

theorem Follows.within {out : Step α} (h : Follows db out) (scope : Scope) : Follows db (out.within scope) := by
  intro m hm
  rw [Outcome.reported_within]
  exact h m hm

/-- an event that changes nothing in the reader's table -/
theorem Follows.after {out : Step α} (h : Follows db out) {event : Notice} (hevent : ∀ m, event.apply m = m) :
    Follows db (out.after event) := by
  intro m hm
  rw [Outcome.reported_after, List.foldl_cons, hevent]
  exact h m hm

theorem follows_forEach {κ : Type} {act : κ → Database → Step α} (hact : ∀ k db, Follows db (act k db)) (ks : List κ)
    (db : Database) : Follows db (Outcome.forEach act ks db) := by
  induction ks generalizing db with
  | nil => exact follows_silent db []
  | cons k rest ih =>
    intro m hm
    rw [Outcome.reported_forEach_cons, List.foldl_append]
    exact ih (act k db).state _ (hact k db m hm)

theorem follows_remove (db : Database) (now : Instant) (key : LsaKey) (reason : FlushReason) :
    Follows db (db.remove now key reason) := by
  unfold remove
  cases hr : db.table.find? key with
  | none => exact follows_silent db ()
  | some r =>
    intro m hm
    obtain rfl : r.lsa.hdr.key = key := hm.keyed key r hr
    exact hm.erase rfl

theorem follows_install (db : Database) (now : Instant) (origin : Origin) (hdr : Header) (body : Body) :
    Follows db (db.install now origin hdr body) := by
  refine Follows.within ?_ _
  split
  · exact (follows_silent db false).after fun _ => rfl
  · dsimp only
    split
    · intro m hm
      exact hm.store now origin (hdr.aged 0) body
    · exact (follows_silent db false).after fun _ => rfl

theorem follows_installOwn (db : Database) (now : Instant) (lsa : Lsa) (hdr : Header) :
    Follows db (originate.installOwn now lsa db hdr) := by
  intro m hm
  exact (follows_install db now .selfOriginated hdr lsa.body m hm).of_table (table_installOwn db now lsa hdr)

theorem follows_originate (db : Database) (now : Instant) (lsa : Lsa) : Follows db (db.originate now lsa) := by
  refine Follows.within ?_ _
  split
  · -- the old instance goes first, and its event comes first
    intro m hm
    have hflushed := follows_remove db now lsa.hdr.key .prematureAging m hm
    simp only [Outcome.reported, List.map_append, List.foldl_append]
    exact follows_installOwn _ now lsa _ _ hflushed
  · exact follows_installOwn db now lsa lsa.hdr

theorem follows_flush (db : Database) (now : Instant) (key : LsaKey) : Follows db (db.flush now key) := by
  unfold flush
  split
  · exact ((follows_remove db now key .prematureAging).map _).within _
  · exact follows_silent db false

theorem follows_age (db : Database) (now : Instant) (elapsed : Nat) : Follows db (db.age now elapsed) := by
  have hremovals : ∀ keys (aged : Database), Follows aged
      (Outcome.forEach (fun key db => db.remove now key .expiry) keys aged) :=
    fun keys => follows_forEach (fun key db => follows_remove db now key .expiry) keys
  refine Follows.within (Follows.map ?_ _) _
  intro m hm
  exact hremovals _ { db with table := db.agedTable elapsed } m (hm.aged rfl)

theorem follows_ageTick (db : Database) (now : Instant) : Follows db (db.ageTick now) := by
  intro m hm
  exact follows_age _ now _ m (hm.of_table rfl)

theorem follows_refresh (db : Database) (now : Instant) : Follows db (db.refresh now) := by
  have hrenew : ∀ lsa db, Follows db (refresh.renew now lsa db) := by
    intro lsa db
    exact ((follows_originate db now _).after fun _ => rfl).within _
  exact (follows_forEach hrenew db.dueForRefresh db).map _

theorem follows_clear (db : Database) : Follows db db.clear := by
  unfold clear
  dsimp only
  split
  · exact follows_silent db 0
  · refine Follows.within ?_ _
    intro m _
    refine ⟨fun _ => rfl, ?_⟩
    intro k r hr
    cases hr

/-- **Every operation reports what it does to the table.** -/
theorem follows_perform (op : Op) (now : Instant) (db : Database) : Follows db (perform op now db) := by
  cases op with
  | receive hdr body => exact (follows_install db now .received hdr body).map _
  | installRouterLsa routerId flags links => exact (follows_originate db now _).map _
  | installExternalLsa routerId route => exact (follows_originate db now _).map _
  | installNssaLsa routerId route => exact (follows_originate db now _).map _
  | flush key => exact (follows_flush db now key).map _
  | refresh => exact (follows_refresh db now).map _
  | age elapsed => exact (follows_age db now elapsed).map _
  | ageTick => exact (follows_ageTick db now).map _
  | clear => exact (follows_clear db).map _

/-! ## What an origination reports -/

/-- the events of an origination, by the stored record and the header that takes its place: with the last number the
stored instance is flushed first, then the next one is announced, then it is installed -/
def announcement (stored? : Option Record) (next : Header) : List Notice :=
  ((stored?.filter fun r => r.lsa.hdr.seqNo = some 0x7fffffff).toList.map fun r =>
    .flushing r.lsa.hdr .prematureAging) ++ [.originating next, .installing next]

theorem reported_remove (db : Database) (now : Instant) (key : LsaKey) (reason : FlushReason) :
    (db.remove now key reason).reported = (db.table.find? key).toList.map fun r => .flushing r.lsa.hdr reason := by
  unfold remove
  cases db.table.find? key with
  | none => rfl
  | some r => rfl

theorem reported_installOwn_of_newer {db : Database} {lsa : Lsa} {hdr : Header} (htype : hdr.lsaType = lsa.body.lsaType)
    (hage : hdr.aged 0 = hdr) (hnew : ∀ r ∈ db.table.find? hdr.key, r.lsa.hdr.rank < hdr.rank) (now : Instant) :
    (originate.installOwn now lsa db hdr).reported = [.originating hdr, .installing hdr] := by
  have hnewer : db.isNewer hdr = true := isNewer_iff.mpr hnew
  simp only [originate.installOwn, install, htype, hage, hnewer, ne_eq, not_true_eq_false, if_false, if_true]
  rfl

theorem reported_installOwn_vacated (db : Database) (now : Instant) (b : Build) :
    (originate.installOwn now (db.build now b) (db.vacated now b.key) (b.header (db.table.find? b.key))).reported =
      [.originating (b.header (db.table.find? b.key)), .installing (b.header (db.table.find? b.key))] :=
  reported_installOwn_of_newer rfl (Header.aged_zero (Nat.zero_le _)) (fun _ hr => rank_lt_of_vacated hr) now

/-- **An origination announces the header that it installs.** -/
theorem reported_originate (db : Database) (now : Instant) (b : Build) :
    (db.originate now (db.build now b)).reported =
      announcement (db.table.find? b.key) (b.header (db.table.find? b.key)) := by
  have hinstalled := reported_installOwn_vacated db now b
  by_cases hlast : db.storedSeqNo b.key = some 0x7fffffff
  · obtain ⟨hreserved, hhdr⟩ := build_hdr_exhausted now hlast
    have hvacated : (db.remove now (db.build now b).hdr.key .prematureAging).state = db.vacated now b.key :=
      (if_pos hlast).symm
    have hflushed : (db.remove now (db.build now b).hdr.key .prematureAging).reported =
        (db.table.find? b.key).toList.map fun r => .flushing r.lsa.hdr .prematureAging :=
      reported_remove db now b.key .prematureAging
    rw [originate, Outcome.reported_within, if_pos hreserved, announcement, filter_exhausted, if_pos hlast, ← hflushed,
      ← hinstalled, ← hvacated, ← hhdr]
    exact List.map_append
  · have hreserved : (b.header (db.table.find? b.key)).seqNo ≠ some reservedSeqNo := fun e =>
      Build.seqNo_ne_reserved _ (Option.some.inj e)
    have hvacated : db.vacated now b.key = db := if_neg hlast
    rw [originate, Outcome.reported_within, build_hdr now hlast, if_neg hreserved, announcement, filter_exhausted,
      if_neg hlast]
    rw [hvacated] at hinstalled
    exact hinstalled

/-- renewals of different LSAs, one after another -/
theorem reported_forEach_renew (now : Instant) {lsas : List Lsa}
    (hnodup : (lsas.map fun lsa => (Build.again lsa).key).Nodup) (db : Database) :
    (Outcome.forEach (refresh.renew now) lsas db).reported = lsas.flatMap fun lsa =>
      .refreshing lsa.hdr :: announcement (db.table.find? (Build.again lsa).key)
        ((Build.again lsa).header (db.table.find? (Build.again lsa).key)) := by
  induction lsas generalizing db with
  | nil => rfl
  | cons lsa rest ih =>
    rw [List.map_cons, List.nodup_cons] at hnodup
    have hfirst : (refresh.renew now lsa db).reported = .refreshing lsa.hdr ::
        announcement (db.table.find? (Build.again lsa).key)
          ((Build.again lsa).header (db.table.find? (Build.again lsa).key)) := by
      rw [refresh.renew, Outcome.reported_within, Outcome.reported_after]
      exact congrArg _ (reported_originate db now (.again lsa))
    have hothers := flatMap_find?_renew (fun other r? =>
      .refreshing other.hdr :: announcement r? ((Build.again other).header r?)) hnodup.1 now db
    rw [Outcome.reported_forEach_cons, ih hnodup.2, hfirst, hothers, List.flatMap_cons]

/-- **A refresh reports each LSA that is due**, and announces the header that it gets. -/
theorem reported_refresh (h : db.Sound) (now : Instant) :
    (db.refresh now).reported = (db.table.values.filter Record.isDue).flatMap fun r =>
      .refreshing r.lsa.hdr :: announcement (some r) (r.refreshed now).lsa.hdr := by
  have hannounced := flatMap_dueForRefresh (fun lsa r? =>
    Notice.refreshing lsa.hdr :: announcement r? ((Build.again lsa).header r?)) h
  have hreported : (db.refresh now).reported = _ := reported_forEach_renew now (nodup_dueForRefresh h) db
  rw [hreported, hannounced]
  refine List.flatMap_congr fun r hr => ?_
  rw [Record.refreshed, if_pos (List.mem_filter.mp hr).2]
  rfl

/-- An LSA that is refused is reported as discarded, and nothing else is. -/
theorem reported_receive_of_refused {now : Instant} {hdr : Header} {body : Body}
    (h : (db.receive now hdr body).answer = false) :
    ∃ offered reason, (db.receive now hdr body).reported = [.discarding offered reason] ∧
      offered.ageless = hdr.ageless := by
  unfold receive install at h ⊢
  by_cases htype : hdr.lsaType = body.lsaType
  · by_cases hnew : db.isNewer hdr = true
    · simp [htype, hnew, Outcome.silent] at h
    · refine ⟨hdr.aged 0, .notNewer, ?_, rfl⟩
      simp [htype, hnew]
  · refine ⟨hdr, .typeMismatch, ?_, rfl⟩
    simp [htype]

/-! ## Main result -/

/-- the events of a call -/
def Call.reported (call : Call) : List Notice := call.outcome.reported

/-- what a call reports of the LSAs that it refuses, originates or renews -/
structure Journaled (call : Call) : Prop where
  refused : ∀ hdr body, call.op = .receive hdr body → call.outcome.answer = .flag false →
    ∃ offered reason, call.reported = [.discarding offered reason] ∧ offered.ageless = hdr.ageless
  originated : ∀ b ∈ call.op.build?, ∃ r, call.leaves b.key = some r ∧
    call.reported = announcement (call.before.state.table.find? b.key) r.lsa.hdr
  /-- an LSA after another, in the order of the table -/
  refreshed : call.op = .refresh →
    (∀ r ∈ call.before.state.table.values.filter Record.isDue,
      call.leaves r.lsa.hdr.key = some (r.refreshed call.before.now)) ∧
    call.reported = (call.before.state.table.values.filter Record.isDue).flatMap fun r =>
      .refreshing r.lsa.hdr :: announcement (some r) (r.refreshed call.before.now).lsa.hdr

theorem journaled_of_sound {call : Call} (h : call.before.state.Sound) : Journaled call := by
  obtain ⟨⟨now, db⟩, op⟩ := call
  have hbuilt : ∀ b : Build, ∃ r, (db.originate now (db.build now b)).state.table.find? b.key = some r ∧
      (db.originate now (db.build now b)).reported = announcement (db.table.find? b.key) r.lsa.hdr := by
    intro b
    refine ⟨b.record now (db.table.find? b.key), ?_, reported_originate db now b⟩
    rw [find?_originate, afterBuild, if_pos rfl]
  constructor
  case refused =>
    rintro hdr body rfl hanswer
    exact reported_receive_of_refused (Answer.flag.inj hanswer)
  case originated =>
    intro b hb
    cases op with
    | installRouterLsa routerId flags links =>
      cases hb
      exact hbuilt (.router routerId flags links)
    | installExternalLsa routerId route =>
      cases hb
      exact hbuilt (.external routerId route)
    | installNssaLsa routerId route =>
      cases hb
      exact hbuilt (.nssa routerId route)
    | _ => cases hb
  case refreshed =>
    rintro rfl
    refine ⟨?_, reported_refresh h now⟩
    intro r hr
    obtain ⟨k, hstored⟩ := SortedMap.mem_values_iff.mp (List.mem_filter.mp hr).1
    have hleft : (db.refresh now).state.table.find? k = some (r.refreshed now) := by
      rw [table_refresh h, SortedMap.find?_mapValues, hstored]
      rfl
    rw [(h k r hstored).key]
    exact hleft

/-- the reader's table agrees with the database after every run -/
theorem mirrors_of_run {areaId : Address4} {start : Instant} {turns : List (Turn Op)}
    {out : Outcome (Timed Database) Notice (List Answer)} (hrun : run ⟨start, empty areaId start⟩ turns = .ok out) :
    Mirrors (mirror out.reported) out.state.state := by
  have hreported : out.reported = (calls areaId start turns).flatMap Call.reported := by
    rw [Outcome.reported, Timed.journal_of_run hrun, List.map_flatMap]
    rfl
  rw [hreported]
  refine Timed.history_of_run (s := ⟨start, empty areaId start⟩)
    (P := fun past s => Mirrors (mirror (past.flatMap Call.reported)) s.state) ?_ ?_ [] (.empty areaId start) turns hrun
  · intro past s d now h _
    exact h
  · intro past s op h
    rw [mirror, List.flatMap_append, List.foldl_append, List.flatMap_singleton]
    exact follows_perform op s.now s.state _ h

/-- **The events are a faithful journal.** After every run from an empty database, and so after each of its operations,
the table that a reader of the events keeps has the keys of the table, and under each key the stored header up to its
age. An LSA of a neighbour that is refused makes one event, and it says so. An origination and each renewal of a refresh
announce the header that is stored in the end, before they report that they install it; if the numbers start over, the
old instance is reported as flushed before that. -/
theorem journal_faithful {areaId : Address4} {start : Instant} {turns : List (Turn Op)}
    {out : Outcome (Timed Database) Notice (List Answer)} (hrun : run ⟨start, empty areaId start⟩ turns = .ok out) :
    (mirror out.reported).keys = out.state.state.table.keys ∧
      (∀ k hdr r, (mirror out.reported).find? k = some hdr → out.state.state.table.find? k = some r →
        hdr.ageless = r.lsa.hdr.ageless) ∧
      ∀ call ∈ calls areaId start turns, Journaled call := by
  have hmirrors := mirrors_of_run hrun
  have hsame : (mirror out.reported).mapValues (fun _ hdr => hdr.ageless) =
      out.state.state.table.mapValues fun _ r => r.lsa.hdr.ageless := by
    apply SortedMap.ext_find?
    intro k
    rw [SortedMap.find?_mapValues, SortedMap.find?_mapValues]
    exact hmirrors.agrees k
  refine ⟨?_, ?_, ?_⟩
  · rw [← SortedMap.keys_mapValues _ fun _ hdr => Header.ageless hdr, hsame, SortedMap.keys_mapValues]
  · intro k hdr r hhdr hr
    have hagrees := hmirrors.agrees k
    rw [hhdr, hr] at hagrees
    exact Option.some.inj hagrees
  · intro call hcall
    exact journaled_of_sound (sound_of_reachable (reachable_of_mem_calls hcall))

/-- The local router's own LSA comes with the last number, and once more. The router starts over and renews it. -/
def startedOver : List (Turn Op) :=
  let own : Header := ⟨0, .external, LsaKind.router.type, ⟨1⟩, ⟨1⟩, some 0x7fffffff, none, none⟩
  [.perform (.receive own (.router ⟨⟨0⟩, []⟩)), .perform (.receive own (.router ⟨⟨0⟩, []⟩)),
    .perform (.installRouterLsa ⟨1⟩ ⟨0⟩ []), .perform (.age 1800), .perform .refresh]

/-- its journal, and what a reader makes of it -/
theorem journal_faithful_startedOver :
    ∃ out, run ⟨.start, empty .unspecified .start⟩ startedOver = .ok out ∧
      (out.reported.map Notice.message) = ["installing LSA", "discarding LSA", "flushing LSA", "originating LSA",
        "installing LSA", "refreshing LSA", "originating LSA", "installing LSA"] ∧
      (mirror out.reported).keys = [⟨LsaKind.router.type, ⟨1⟩, ⟨1⟩⟩] ∧
      (mirror out.reported).keys = out.state.state.table.keys ∧
      ∀ call ∈ calls .unspecified .start startedOver, Journaled call := by
  obtain ⟨out, hrun, hmessages, hkeys⟩ : ∃ out, run ⟨.start, empty .unspecified .start⟩ startedOver = .ok out ∧
      (out.reported.map Notice.message) = ["installing LSA", "discarding LSA", "flushing LSA", "originating LSA",
        "installing LSA", "refreshing LSA", "originating LSA", "installing LSA"] ∧
      (mirror out.reported).keys = [⟨LsaKind.router.type, ⟨1⟩, ⟨1⟩⟩] := ⟨_, rfl, rfl, rfl⟩
  obtain ⟨hsame, -, hjournaled⟩ := journal_faithful hrun
  exact ⟨out, hrun, hmessages, hkeys, hsame, hjournaled⟩

end Database

end Ospf

end RoutingReplay
