/-
The life of a record: what may become of it in one operation.

A `Move` is one kind of change of the record of a key, and `Move.Holds` says what it takes. `moves_once`: in a database
that a run has led to, every operation makes exactly one of these moves on every key. So a record never changes in part,
except for its age; it gives way to more recent instances only, and the one exception is a router that has used up the
sequence numbers and starts over.

That a move is possible follows from `Op.effect`, one lemma for each of its building blocks. That no two moves are
possible at once follows from `Move.between`, which reads the move off the records before and after.
-/
import RoutingReplay.Proofs.Ospf.Reachable

namespace RoutingReplay.Ospf

/-- `r` is the LSA that `b` describes, as built and installed by the local router at `now` -/
def Build.Fits (b : Build) (now : Instant) (r : Record) : Prop :=
  ∃ seqNo, r = ⟨⟨⟨0, b.options, b.body.lsaType, b.lsaId, b.advRouter, seqNo, none, none⟩, b.body, now⟩, .selfOriginated⟩

namespace Database

/-- `r` is, in all its parts, what an operation has to put in the place of `old`; only the number of an LSA of the local
router is left open -/
def Op.Writes (op : Op) (now : Instant) (old : Option Record) (r : Record) : Prop :=
  match op with
  | .receive hdr body => r = ⟨⟨hdr.aged 0, body, now⟩, .received⟩
  | .installRouterLsa routerId flags links => (Build.router routerId flags links).Fits now r
  | .installExternalLsa routerId route => (Build.external routerId route).Fits now r
  | .installNssaLsa routerId route => (Build.nssa routerId route).Fits now r
  | .refresh => ∃ r₀ ∈ old, (Build.again r₀.lsa).Fits now r
  | .flush _ | .age _ | .ageTick | .clear => False

/-! ## Moves -/

/-- what may become of the record of a key -/
inductive Move where
  /-- nothing about it changes -/
  | kept
  /-- it grows older -/
  | aged
  /-- it was not there and is now -/
  | added
  /-- a more recent instance takes its place -/
  | superseded
  /-- the first instance takes the place of the last -/
  | restarted
  /-- it was there and is no longer -/
  | removed
  deriving DecidableEq

/-- what it takes for an operation to make a move on the record of `k`, which was `old` and is now `new` -/
def Move.Holds (m : Move) (op : Op) (now lastAgeTick : Instant) (k : LsaKey) (old new : Option Record) : Prop :=
  match m with
  | .kept => new = old
  | .aged => ∃ elapsed ∈ op.aging? now lastAgeTick, ∃ r ∈ old, ∃ age : UInt16,
      r.lsa.hdr.age < age ∧ age.toNat = r.lsa.hdr.age.toNat + elapsed ∧ age.toNat < maxAge ∧
        new = some { r with lsa := { r.lsa with hdr := { r.lsa.hdr with age := age } } }
  | .added => old = none ∧ ∃ r ∈ new, op.Writes now old r
  | .superseded => ∃ r ∈ old, ∃ r' ∈ new, op.Writes now old r' ∧ r'.lsa.hdr.isNewer r.lsa.hdr = true
  | .restarted => ∃ r ∈ old, ∃ r' ∈ new, op.Writes now old r' ∧ r.lsa.hdr.seqNo = some 0x7fffffff ∧
      r'.origin = .selfOriginated ∧ r'.lsa.hdr.seqNo = some 0x80000001 ∧ r'.lsa.hdr.age = 0
  | .removed => new = none ∧ ∃ r ∈ old,
      op = .clear ∨ (∃ elapsed ∈ op.aging? now lastAgeTick, maxAge ≤ r.lsa.hdr.age.toNat + elapsed) ∨
        op = .flush k ∧ r.origin = .selfOriginated

/-! ## At least one move -/

section

variable {op : Op} {now lastAgeTick : Instant} {k : LsaKey} {r? : Option Record}

/-- an offer adds, supersedes or does nothing -/
theorem exists_move_offer (hdr : Header) (body : Body) :
    ∃ m : Move, m.Holds (.receive hdr body) now lastAgeTick k r? (afterOffer now .received hdr body r?) := by
  unfold afterOffer
  split
  · rename_i hoffer
    cases hr : r? with
    | none => exact ⟨.added, rfl, _, rfl, rfl⟩
    | some r => exact ⟨.superseded, r, rfl, _, rfl, rfl, Header.isNewer_iff.mpr (hoffer.2 r hr)⟩
  · exact ⟨.kept, rfl⟩

/-- an origination adds or supersedes, and it restarts after the last number -/
theorem exists_move_build {b : Build} (hwrites : ∀ r, b.Fits now r → op.Writes now r? r) :
    ∃ m : Move, m.Holds op now lastAgeTick k r? (some (b.record now r?)) := by
  have hfits : op.Writes now r? (b.record now r?) := hwrites _ ⟨_, rfl⟩
  cases hr : r? with
  | none => exact ⟨.added, rfl, _, rfl, hr ▸ hfits⟩
  | some r =>
    rw [hr] at hfits
    by_cases hlast : r.lsa.hdr.seqNo = some 0x7fffffff
    · have hfirst : Build.seqNo (some r) = initialSeqNo := by
        rw [Build.seqNo, Option.bind_some, hlast]
        rfl
      exact ⟨.restarted, r, rfl, _, rfl, hfits, hlast, rfl, congrArg some hfirst, rfl⟩
    · exact ⟨.superseded, r, rfl, _, rfl, hfits, Header.isNewer_iff.mpr (b.rank_lt_header hlast)⟩

theorem exists_move_afterBuild {b : Build} (hwrites : ∀ r, b.Fits now r → op.Writes now r? r) :
    ∃ m : Move, m.Holds op now lastAgeTick k r? (afterBuild now b k r?) := by
  unfold afterBuild
  split
  · exact exists_move_build hwrites
  · exact ⟨.kept, rfl⟩

/-- ageing makes a record older or removes it; without a record or without time it does nothing -/
theorem exists_move_aging {elapsed : Nat} (haging : op.aging? now lastAgeTick = some elapsed)
    (hage : ∀ r ∈ r?, r.lsa.hdr.age.toNat ≤ maxAge) :
    ∃ m : Move, m.Holds op now lastAgeTick k r? (afterAging elapsed r?) := by
  cases hr : r? with
  | none => exact ⟨.kept, rfl⟩
  | some r =>
    rw [afterAging_some]
    split
    · rename_i hlt
      have hnat : (r.lsa.hdr.aged elapsed).age.toNat = r.lsa.hdr.age.toNat + elapsed := by
        rw [Header.age_aged]; omega
      by_cases hzero : elapsed = 0
      · subst hzero
        have hsame : r.aged 0 = r := by rw [Record.aged, Header.aged_zero (hage r hr)]
        exact ⟨.kept, congrArg some hsame⟩
      · have hgrown : r.lsa.hdr.age < (r.lsa.hdr.aged elapsed).age := by
          rw [UInt16.lt_iff_toNat_lt, hnat]; omega
        exact ⟨.aged, elapsed, haging, r, rfl, _, hgrown, hnat, by omega, rfl⟩
    · rename_i hexp
      exact ⟨.removed, rfl, r, rfl, Or.inr (Or.inl ⟨elapsed, haging, Nat.not_lt.mp hexp⟩)⟩

/-- Every operation makes some move on a record that is in order. -/
theorem exists_move_effect (op : Op) (now lastAgeTick : Instant) (h : ∀ r ∈ r?, r.Sound k) :
    ∃ m : Move, m.Holds op now lastAgeTick k r? (op.effect now lastAgeTick k r?) := by
  have hage : ∀ r ∈ r?, r.lsa.hdr.age.toNat ≤ maxAge := fun r hr => (h r hr).age
  cases op with
  | receive hdr body =>
    simp only [Op.effect]
    split
    · exact exists_move_offer hdr body
    · exact ⟨.kept, rfl⟩
  | installRouterLsa routerId flags links => exact exists_move_afterBuild fun r hr => hr
  | installExternalLsa routerId route => exact exists_move_afterBuild fun r hr => hr
  | installNssaLsa routerId route => exact exists_move_afterBuild fun r hr => hr
  | flush key =>
    simp only [Op.effect]
    split
    · rename_i hown
      obtain ⟨rfl, hany⟩ := hown
      cases hr : r? with
      | none => rw [hr] at hany; cases hany
      | some r =>
        have horigin : r.origin = .selfOriginated := by simpa [hr] using hany
        exact ⟨.removed, rfl, r, rfl, Or.inr (Or.inr ⟨rfl, horigin⟩)⟩
    · exact ⟨.kept, rfl⟩
  | refresh =>
    cases hr : r? with
    | none => exact ⟨.kept, rfl⟩
    | some r =>
      simp only [Op.effect, afterRefresh, Option.map_some]
      split
      · exact exists_move_build fun r' hr' => ⟨r, rfl, hr'⟩
      · exact ⟨.kept, rfl⟩
  | age elapsed => exact exists_move_aging rfl hage
  | ageTick => exact exists_move_aging rfl hage
  | clear =>
    cases hr : r? with
    | none => exact ⟨.kept, rfl⟩
    | some r => exact ⟨.removed, rfl, r, rfl, Or.inl rfl⟩

end

/-! ## At most one move -/

/-- the move that leads from one record to another, whatever the operation -/
def Move.between (old new : Option Record) : Move :=
  match old, new with
  | none, none => .kept
  | none, some _ => .added
  | some _, none => .removed
  | some r, some r' =>
    if r.lsa.hdr.rank < r'.lsa.hdr.rank then .superseded
    else if r'.lsa.hdr.rank < r.lsa.hdr.rank then .restarted
    else if r' = r then .kept
    else .aged

/-- After the last number, the first is a step back. -/
theorem rank_lt_of_restart {a b : Header} (ha : a.seqNo = some 0x80000001) (hb : b.seqNo = some 0x7fffffff) :
    a.rank < b.rank := by
  have hc : (a.checksum.getD 0).toNat < 2 ^ 16 := UInt16.toNat_lt _
  have hfirst : Header.signedSeqNo 0x80000001 = -2147483647 := by decide
  have hlast : Header.signedSeqNo 0x7fffffff = 2147483647 := by decide
  simp only [Header.rank, ha, hb, hfirst, hlast]
  omega

theorem Move.eq_between {m : Move} {op : Op} {now lastAgeTick : Instant} {k : LsaKey} {old new : Option Record}
    (h : m.Holds op now lastAgeTick k old new) : m = .between old new := by
  cases m with
  | kept =>
    cases h
    cases old with
    | none => rfl
    | some r => simp [between]
  | aged =>
    obtain ⟨elapsed, -, r, hold, age, hgrown, -, -, rfl⟩ := h
    cases hold
    have hne : ({ r with lsa := { r.lsa with hdr := { r.lsa.hdr with age := age } } } : Record) ≠ r := by
      intro e
      have hage : age = r.lsa.hdr.age := congrArg (fun r : Record => r.lsa.hdr.age) e
      rw [hage] at hgrown
      exact absurd hgrown (UInt16.lt_irrefl _)
    have hrank : ({ r.lsa.hdr with age := age } : Header).rank = r.lsa.hdr.rank := rfl
    simp only [between, hrank, lt_irrefl, if_false, if_neg hne]
  | added =>
    obtain ⟨rfl, r, hnew, -⟩ := h
    cases hnew
    rfl
  | superseded =>
    obtain ⟨r, hold, r', hnew, -, hnewer⟩ := h
    cases hold
    cases hnew
    exact (if_pos (Header.isNewer_iff.mp hnewer)).symm
  | restarted =>
    obtain ⟨r, hold, r', hnew, -, hlast, -, hfirst, -⟩ := h
    cases hold
    cases hnew
    have hback := rank_lt_of_restart hfirst hlast
    simp only [between, if_neg (Nat.lt_asymm hback), if_pos hback]
  | removed =>
    obtain ⟨rfl, r, hold, -⟩ := h
    cases hold
    rfl

/-! ## Main result -/

/-- **One move for each operation and key.** In a database that a run has led to, the record of a key is kept, grows
older below `maxAge`, is added, gives way to a more recent instance, starts over after the last number, or is removed by
`clear`, by expiry or by a flush of the local router's own LSA; it is exactly one of these, for every operation. -/
theorem moves_once {s : Timed Database} (h : Reachable s) (op : Op) (k : LsaKey) :
    ∃! m : Move, m.Holds op s.now s.state.lastAgeTick k (s.state.table.find? k)
      ((perform op s.now s.state).state.table.find? k) := by
  have hsound := sound_of_reachable h
  rw [find?_perform hsound]
  obtain ⟨m, hm⟩ := exists_move_effect op s.now s.state.lastAgeTick (hsound k)
  refine ⟨m, hm, fun m' hm' => ?_⟩
  rw [Move.eq_between hm, Move.eq_between hm']

/-- a Router-LSA with the last sequence number -/
def lastInstance : Header := ⟨0, .external, LsaKind.router.type, ⟨1⟩, ⟨1⟩, some 0x7fffffff, none, none⟩

/-- a neighbour has sent the local router's own LSA with the last sequence number -/
def exhausted : Timed Database :=
  ⟨.start, ((empty .unspecified .start).receive .start lastInstance (.router ⟨⟨0⟩, []⟩)).state⟩

/-- the router starts over -/
theorem moves_once_exhausted :
    Reachable exhausted ∧ ∃! m : Move, m.Holds (.installRouterLsa ⟨1⟩ ⟨0⟩ []) .start .start lastInstance.key
      (exhausted.state.table.find? lastInstance.key)
      ((perform (.installRouterLsa ⟨1⟩ ⟨0⟩ []) .start exhausted.state).state.table.find? lastInstance.key) := by
  have hreach : Reachable exhausted :=
    ⟨.unspecified, .start, [.perform (.receive lastInstance (.router ⟨⟨0⟩, []⟩))], _, rfl, rfl⟩
  exact ⟨hreach, moves_once hreach (.installRouterLsa ⟨1⟩ ⟨0⟩ []) lastInstance.key⟩

end Database

end RoutingReplay.Ospf
