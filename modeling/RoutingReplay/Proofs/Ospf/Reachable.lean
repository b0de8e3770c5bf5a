/-
The states that runs of a database lead to, and what holds in all of them.

`Reachable` is said of a database together with its clock. Every table that runs lead to is in order
(`sound_of_reachable`): a record stands under the key of its header, its header is of the type of its body, no record is
older than `maxAge`, and a record of the local router is younger than that and has a usable sequence number.

`calls` are the operations of a run from the start, each with the state that it found.
-/
import RoutingReplay.Proofs.Ospf.RecordView
import RoutingReplay.Proofs.Trace

namespace RoutingReplay.Ospf.Database

/-- the database and its clock after some run, which starts without LSAs -/
def Reachable (s : Timed Database) : Prop :=
  ∃ areaId start turns out, run ⟨start, empty areaId start⟩ turns = .ok out ∧ out.state = s

theorem reachable_empty (areaId : Address4) (start : Instant) : Reachable ⟨start, empty areaId start⟩ :=
  ⟨areaId, start, [], _, rfl, rfl⟩

/-- time may pass -/
theorem Reachable.wait {s : Timed Database} (h : Reachable s) {d : Duration} {now : Instant}
    (hnow : s.now.advance d = .ok now) : Reachable { s with now } := by
  obtain ⟨areaId, start, turns, out, hrun, rfl⟩ := h
  have hturn : Timed.turn Database.perform out.state (.wait d) = .ok (.silent { out.state with now } []) := by
    rw [Timed.turn, hnow]
  obtain ⟨longer, hlonger, hstate⟩ := Timed.run_concat hrun hturn
  exact ⟨areaId, start, turns ++ [Turn.wait d], longer, hlonger, hstate⟩

/-- any operation may come next -/
theorem Reachable.perform {s : Timed Database} (h : Reachable s) (op : Op) :
    Reachable { s with state := (Database.perform op s.now s.state).state } := by
  obtain ⟨areaId, start, turns, out, hrun, rfl⟩ := h
  obtain ⟨longer, hlonger, hstate⟩ := Timed.run_concat (t := .perform op) hrun rfl
  exact ⟨areaId, start, turns ++ [Turn.perform op], longer, hlonger, hstate⟩

/-- What holds of a database without LSAs, and what time and every operation keep, holds after every run. -/
theorem reachable_invariant {P : Timed Database → Prop} (empty : ∀ areaId start, P ⟨start, Database.empty areaId start⟩)
    (wait : ∀ s d now, P s → s.now.advance d = .ok now → P { s with now })
    (perform : ∀ s op, Reachable s → P s → P { s with state := (perform op s.now s.state).state })
    {s : Timed Database} (h : Reachable s) : P s := by
  obtain ⟨areaId, start, turns, out, hrun, rfl⟩ := h
  refine (Timed.run_invariant (P := fun s => Reachable s ∧ P s) ?_ ?_
    ⟨reachable_empty areaId start, empty areaId start⟩ turns hrun).2
  · rintro s d now ⟨hreach, hs⟩ hnow
    exact ⟨hreach.wait hnow, wait s d now hs hnow⟩
  · rintro s op ⟨hreach, hs⟩
    exact ⟨hreach.perform op, perform s op hreach hs⟩

theorem sound_empty (areaId : Address4) (now : Instant) : (empty areaId now).Sound := by
  intro k r hr
  cases hr

/-- An operation leaves a record in order that was in order. -/
theorem Op.sound_effect (op : Op) (now lastAgeTick : Instant) {k : LsaKey} {r? : Option Record}
    (h : ∀ r ∈ r?, r.Sound k) : ∀ r ∈ op.effect now lastAgeTick k r?, r.Sound k := by
  intro r hr
  cases Op.source_of_mem_effect hr with
  | kept hold => exact h r hold
  | aged hop hold hlt => exact (h _ hold).aged hlt
  | offered hop hkey htype => exact hkey ▸ .offered htype now
  | built b hop hkey => exact hkey ▸ .built b now r?
  | renewed hop hold =>
    rw [← (h _ hold).again_key]
    exact .built _ now _

theorem sound_perform {db : Database} (h : db.Sound) (op : Op) (now : Instant) : (perform op now db).state.Sound := by
  intro k r hr
  rw [Option.mem_def, find?_perform h] at hr
  exact op.sound_effect now db.lastAgeTick (h k) r hr

/-- **Every table that runs lead to is in order.** -/
theorem sound_of_reachable {s : Timed Database} (h : Reachable s) : s.state.Sound := by
  refine reachable_invariant (P := fun s => s.state.Sound) sound_empty ?_ ?_ h
  · intro s d now hs _
    exact hs
  · intro s op _ hs
    exact sound_perform hs op s.now

theorem code_type_mem (k : LsaKind) : k.type.code ∈ [1, 2, 3, 4, 5, 7] := by
  cases k <;> decide

/-- **The entries of a table.** In every state that a run leads to, an entry stands under the key of its header, its
header has one of the six known types, the one of its body, and its age is at most `maxAge`. It comes from a neighbour
or from the local router, not from both, which the type `Origin` makes true of every record. What comes from the local
router is younger than `maxAge`, has no checksum and no length, and has a sequence number other than the reserved
one. -/
theorem entries_in_order {s : Timed Database} (h : Reachable s) {k : LsaKey} {r : Record}
    (hentry : (k, r) ∈ s.state.table.entries) :
    r.lsa.hdr.key = k ∧
      (r.lsa.hdr.lsaType = r.lsa.body.lsaType ∧ r.lsa.hdr.lsaType.code ∈ [1, 2, 3, 4, 5, 7]) ∧
      r.lsa.hdr.age.toNat ≤ maxAge ∧
      (r.origin = .received ↔ ¬ r.origin = .selfOriginated) ∧
      (r.origin = .selfOriginated →
        r.lsa.hdr.age.toNat < maxAge ∧ r.lsa.hdr.checksum = none ∧ r.lsa.hdr.length = none ∧
          ∃ seqNo, r.lsa.hdr.seqNo = some seqNo ∧ seqNo ≠ reservedSeqNo) := by
  have hsound : r.Sound k := sound_of_reachable h k r (SortedMap.find?_eq_some_iff.mpr hentry)
  refine ⟨hsound.key, ⟨hsound.type, ?_⟩, hsound.age, ?_, hsound.own⟩
  · rw [hsound.type]
    exact code_type_mem r.lsa.body.kind
  · cases r.origin <;> decide

/-- the local router's own LSA comes back with the last number; the router starts over and renews it once -/
def comeBack : List (Turn Op) :=
  [.perform (.receive ⟨0, .external, LsaKind.router.type, ⟨1⟩, ⟨1⟩, some 0x7fffffff, none, some 24⟩ (.router ⟨⟨0⟩, []⟩)),
    .perform (.installRouterLsa ⟨1⟩ ⟨0⟩ []), .perform (.age 1800), .perform .refresh, .perform (.age 3599)]

/-- its only entry -/
theorem entries_in_order_comeBack :
    ∃ s r, Reachable s ∧ s.state.table.entries = [(⟨LsaKind.router.type, ⟨1⟩, ⟨1⟩⟩, r)] ∧
      r.origin = .selfOriginated ∧ r.lsa.hdr.age.toNat < maxAge ∧ r.lsa.hdr.length = none ∧
        ∃ seqNo, r.lsa.hdr.seqNo = some seqNo ∧ seqNo ≠ reservedSeqNo := by
  obtain ⟨s, r, hreach, hentries, hown⟩ : ∃ s r, Reachable s ∧
      s.state.table.entries = [(⟨LsaKind.router.type, ⟨1⟩, ⟨1⟩⟩, r)] ∧ r.origin = .selfOriginated :=
    ⟨_, _, ⟨.unspecified, .start, comeBack, _, rfl, rfl⟩, rfl, rfl⟩
  have hentry := entries_in_order hreach (hentries ▸ List.mem_singleton_self _)
  obtain ⟨hage, -, hlength, hseqNo⟩ := hentry.2.2.2.2 hown
  exact ⟨s, r, hreach, hentries, hown, hage, hlength, hseqNo⟩

/-! ## The operations of a run -/

/-- an operation on a database and the state that it found -/
abbrev Call := Timed.Call Database Op

/-- the record of a key that a call leaves -/
def Call.leaves (call : Call) (k : LsaKey) : Option Record :=
  (perform call.op call.before.now call.before.state).state.table.find? k

/-- the operations of a run that starts without LSAs -/
def calls (areaId : Address4) (start : Instant) (turns : List (Turn Op)) : List Call :=
  Timed.trace perform ⟨start, empty areaId start⟩ turns

/-- what a call results in -/
def Call.outcome (call : Call) : Step Answer := perform call.op call.before.now call.before.state

/-- a run leads to the state that each of its calls finds -/
theorem reachable_of_mem_calls {areaId : Address4} {start : Instant} {turns : List (Turn Op)} {call : Call}
    (h : call ∈ calls areaId start turns) : Reachable call.before := by
  obtain ⟨before, after, hsplit⟩ := List.append_of_mem h
  refine Timed.history_of_trace (P := fun _ s => Reachable s) ?_ ?_ [] (reachable_empty areaId start) hsplit
  · intro past s d now hs hnow
    exact hs.wait hnow
  · intro past s op hs
    exact hs.perform op

end RoutingReplay.Ospf.Database
