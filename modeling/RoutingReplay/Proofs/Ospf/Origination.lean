/-
What an origination does.

The number of the next instance is counted in 32 bits without a sign and compared with a sign, and on the way it may meet
the reserved number. `FollowsOn` says which number follows on which, for every number that a neighbour may have put under
the key; on all but the last one follows a greater one (`Build.followsOn_seqNo`). So the next instance surpasses what is
stored or finds the key free, and nothing can refuse it.

- `originated_build`: an origination from any database installs its LSA, and does nothing else to the table.
- `originations_succeed`: the same of the three kinds of LSA that the local router originates; a redistribution reaches
  all areas but the stub areas.
-/
import RoutingReplay.Proofs.Ospf.Content

namespace RoutingReplay.Ospf

/-! ## The next sequence number -/

/-- which number an origination takes, by the number of the stored instance if there is one. The first number follows
where there is no number, on the reserved number and on the last one; on any other number follows its successor. -/
structure FollowsOn (stored : Option UInt32) (next : UInt32) : Prop where
  first : stored = none ∨ stored = some 0x80000000 ∨ stored = some 0x7fffffff → next = 0x80000001
  later : ∀ s, stored = some s → s ≠ 0x80000000 → s ≠ 0x7fffffff →
    next.toNat = (s.toNat + 1) % 2 ^ 32 ∧ Header.signedSeqNo s < Header.signedSeqNo next

/-- **The number of the next instance follows on the stored one.** -/
theorem Build.followsOn_seqNo (r? : Option Record) : FollowsOn (r?.bind (·.lsa.hdr.seqNo)) (seqNo r?) := by
  constructor
  · intro hstored
    unfold seqNo
    rcases hstored with h | h | h
    · simp only [h]
      rfl
    · simp only [h]
      rfl
    · simp only [h]
      rfl
  · intro s hstored _ hlast
    have hne : s + 1 ≠ reservedSeqNo := mt Header.succ_eq_reserved_iff.mp hlast
    have hnext : seqNo r? = s + 1 := by simp only [seqNo, hstored, if_neg hne]
    rw [hnext, Header.signedSeqNo_succ hne]
    constructor
    · exact UInt32.toNat_add s 1
    · omega

namespace Database

/-! ## Originations -/

/-- what an origination does: the answer, the record that it leaves, and what it leaves alone -/
structure Originated (b : Build) (now : Instant) (before : Database) (out : Step Bool) : Prop where
  succeeds : out.answer = true
  record : ∃ seqNo, FollowsOn (before.storedSeqNo b.key) seqNo ∧ out.state.table.find? b.key = some
    ⟨⟨⟨0, b.options, b.body.lsaType, b.lsaId, b.advRouter, some seqNo, none, none⟩, b.body, now⟩, .selfOriginated⟩
  others : ∀ k, k ≠ b.key → out.state.table.find? k = before.table.find? k
  counted : out.state.originated = before.originated + 1

/-- each origination is counted -/
theorem originated_originate (db : Database) (now : Instant) (b : Build) :
    (db.originate now (db.build now b)).state.originated = db.originated + 1 := by
  change (db.originate now (db.build now b)).state.content.originated = db.originated + 1
  rw [content_originate]

/-- **An origination installs its LSA** with the number that follows, whatever was stored under the key. -/
theorem originated_build (db : Database) (now : Instant) (b : Build) :
    Originated b now db (db.originate now (db.build now b)) := by
  refine ⟨(originate_build db now b).1, ?_, ?_, originated_originate db now b⟩
  · refine ⟨Build.seqNo (db.table.find? b.key), Build.followsOn_seqNo _, ?_⟩
    rw [find?_originate, afterBuild, if_pos rfl]
    rfl
  · intro k hk
    rw [find?_originate, afterBuild, if_neg hk]

/-! ## Redistribution -/

/-- a route is advertised in every area but a stub area -/
theorem answer_advertise (area : Area) (now : Instant) (routerId : Address4) (route : ExternalRoute) :
    (area.advertise now routerId route).answer = decide (area.type ≠ .stub) := by
  unfold Area.advertise
  cases htype : area.type with
  | normal => exact (originate_build area.db now (.external routerId route)).1
  | stub => rfl
  | nssa => exact (originate_build area.db now (.nssa routerId route)).1

theorem answer_redistribute (p : Router) (now : Instant) (route : ExternalRoute) :
    (p.redistribute now route).answer = p.areas.values.countP fun area => area.type ≠ .stub := by
  have hanswers : p.areas.entries.map (fun e => (e.2.advertise now p.routerId route).answer) =
      p.areas.values.map fun area => decide (area.type ≠ .stub) := by
    rw [SortedMap.values, List.map_map]
    apply List.map_congr_left
    intro e _
    exact answer_advertise e.2 now p.routerId route
  calc (p.redistribute now route).answer
      = (p.areas.entries.map fun e => (e.2.advertise now p.routerId route).answer).count true := rfl
    _ = (p.areas.values.map fun area => decide (area.type ≠ .stub)).count true := by rw [hanswers]
    _ = p.areas.values.countP fun area => area.type ≠ .stub := by
      rw [List.count, List.countP_map]
      apply List.countP_congr
      intro area _
      simp

/-- **Originations succeed.** Whatever a database holds, an origination of the Router-LSA, of an AS-external LSA or of an
NSSA-external LSA succeeds: its LSA is in the table from now on, of age zero, with the sequence number that follows on
the stored one and without checksum and length; the records of other keys are as before, and one more origination is
counted. So a redistribution advertises its route in every area that is no stub area. -/
theorem originations_succeed (db : Database) (now : Instant) (routerId : Address4) :
    (∀ flags links, Originated (.router routerId flags links) now db (db.installRouterLsa now routerId flags links)) ∧
      (∀ route, Originated (.external routerId route) now db (db.installExternalLsa now routerId route)) ∧
      (∀ route, Originated (.nssa routerId route) now db (db.installNssaLsa now routerId route)) ∧
      ∀ (p : Router) (route : ExternalRoute),
        (p.redistribute now route).answer = p.areas.values.countP fun area => area.type ≠ .stub := by
  refine ⟨?_, ?_, ?_, ?_⟩
  · intro flags links
    exact originated_build db now (.router routerId flags links)
  · intro route
    exact originated_build db now (.external routerId route)
  · intro route
    exact originated_build db now (.nssa routerId route)
  · intro p route
    exact answer_redistribute p now route

end Database

end RoutingReplay.Ospf
