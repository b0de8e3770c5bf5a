/-
What a refresh does.

A refresh lists what is due before it starts, and then it originates one LSA after another into the table that it has
listed. It does not look at what the originations answer, and its own answer is the length of the list. That is right
because an origination always succeeds (`originate_build`), each one is counted, and no two LSAs of the list share a key,
so that none is overwritten by another; exhausted numbers, where an LSA is removed and put back, are no exception.

- `table_refresh`: the table after a refresh is the one before it, record by record.
- `refreshed_exactly`: what is due, and nothing else, is originated anew with its content, and then nothing is due.
-/
import RoutingReplay.Proofs.Ospf.Origination

namespace RoutingReplay.Ospf

/-! ## Records that are due -/

namespace Record

theorem isDue_iff {r : Record} :
    r.isDue = true ↔ r.origin = .selfOriginated ∧ refreshAge ≤ r.lsa.hdr.age.toNat := by
  simp [isDue]

/-- the record that a refresh leaves in the place of another -/
def refreshed (now : Instant) (r : Record) : Record := if r.isDue then (Build.again r.lsa).record now (some r) else r

/-- what was originated just now is not due -/
theorem isDue_refreshed (now : Instant) (r : Record) : (r.refreshed now).isDue = false := by
  unfold refreshed
  cases hdue : r.isDue with
  | false => exact hdue
  | true => rfl

/-- an LSA that is due keeps all but its age, its number and its time -/
theorem refreshed_of_isDue {k : LsaKey} {r : Record} (h : r.Sound k) (hdue : r.isDue = true) (now : Instant) :
    ∃ s, r.lsa.hdr.seqNo = some s ∧ r.refreshed now =
      ⟨⟨{ r.lsa.hdr with age := 0, seqNo := some (if s = 0x7fffffff then 0x80000001 else s + 1) }, r.lsa.body, now⟩,
        .selfOriginated⟩ := by
  obtain ⟨-, hchecksum, hlength, s, hs, -⟩ := h.own (isDue_iff.mp hdue).1
  have hnext : Build.seqNo (some r) = if s = 0x7fffffff then 0x80000001 else s + 1 := by
    simp only [Build.seqNo, Option.bind_some, hs, Header.succ_eq_reserved_iff]
    rfl
  refine ⟨s, hs, ?_⟩
  rw [refreshed, if_pos hdue, Build.record, Build.header, hnext]
  simp only [Build.again, ← h.type, hchecksum, hlength]

end Record

namespace Database

variable {db : Database}

/-! ## The table -/

/-- **A refresh goes record by record.** -/
theorem table_refresh (h : db.Sound) (now : Instant) :
    (db.refresh now).state.table = db.table.mapValues fun _ r => r.refreshed now := by
  apply SortedMap.ext_find?
  intro k
  rw [find?_refresh h, SortedMap.find?_mapValues]
  rfl

theorem mem_entries_refresh (h : db.Sound) (now : Instant) {k : LsaKey} {r : Record} (hr : (k, r) ∈ db.table.entries) :
    (k, r.refreshed now) ∈ (db.refresh now).state.table.entries := by
  rw [table_refresh h]
  exact List.mem_map_of_mem (f := fun e => (e.1, e.2.refreshed now)) hr

/-- after a refresh nothing is due -/
theorem dueForRefresh_refresh (h : db.Sound) (now : Instant) : (db.refresh now).state.dueForRefresh = [] := by
  rw [List.eq_nil_iff_forall_not_mem]
  intro lsa hlsa
  obtain ⟨k, r, hr, hdue, -⟩ := mem_dueForRefresh.mp hlsa
  rw [Option.mem_def, table_refresh h, SortedMap.find?_mapValues] at hr
  obtain ⟨old, -, rfl⟩ := Option.map_eq_some_iff.mp hr
  rw [Record.isDue_refreshed] at hdue
  cases hdue

theorem refresh_of_none_due (h : db.dueForRefresh = []) (now : Instant) : db.refresh now = .silent db 0 := by
  rw [refresh, h]
  rfl

/-! ## The count -/

theorem answer_refresh (db : Database) (now : Instant) :
    (db.refresh now).answer =
      db.table.values.countP fun r => r.origin = .selfOriginated ∧ refreshAge ≤ r.lsa.hdr.age.toNat := by
  change db.dueForRefresh.length = _
  rw [dueForRefresh, List.length_map, ← List.countP_eq_length_filter]
  apply List.countP_congr
  intro r _
  simp

/-- each renewal is counted -/
theorem originated_forEach_renew (now : Instant) (lsas : List Lsa) (db : Database) :
    (Outcome.forEach (refresh.renew now) lsas db).state.originated = db.originated + UInt32.ofNat lsas.length := by
  induction lsas generalizing db with
  | nil => exact (UInt32.add_zero _).symm
  | cons lsa rest ih =>
    have hfirst : (refresh.renew now lsa db).state.originated = db.originated + 1 :=
      originated_originate db now (.again lsa)
    simp only [Outcome.forEach]
    rw [ih, hfirst, List.length_cons, Nat.add_comm rest.length 1, UInt32.ofNat_add, ← UInt32.add_assoc]
    rfl

/-- a renewal does not touch what others with other keys go by -/
theorem flatMap_find?_renew {γ : Type} (f : Lsa → Option Record → List γ) {lsa : Lsa} {rest : List Lsa}
    (h : (Build.again lsa).key ∉ rest.map fun other => (Build.again other).key) (now : Instant) (db : Database) :
    (rest.flatMap fun other => f other ((refresh.renew now lsa db).state.table.find? (Build.again other).key)) =
      rest.flatMap fun other => f other (db.table.find? (Build.again other).key) := by
  refine List.flatMap_congr fun other hother => ?_
  have hne : (Build.again other).key ≠ (Build.again lsa).key := fun e => h (e ▸ List.mem_map_of_mem hother)
  rw [find?_renew, afterBuild, if_neg hne]

/-- the stored records of the LSAs that are due -/
theorem flatMap_dueForRefresh {γ : Type} (f : Lsa → Option Record → List γ) (h : db.Sound) :
    (db.dueForRefresh.flatMap fun lsa => f lsa (db.table.find? (Build.again lsa).key)) =
      (db.table.values.filter Record.isDue).flatMap fun r => f r.lsa (some r) := by
  rw [dueForRefresh, List.flatMap_map]
  refine List.flatMap_congr fun r hr => ?_
  obtain ⟨k, hstored⟩ := SortedMap.mem_values_iff.mp (List.mem_filter.mp hr).1
  rw [(h k r hstored).again_key, hstored]

/-- what a refresh does: the count, what it renews and what it leaves alone -/
structure Refreshed (now : Instant) (before : Database) (out : Step Nat) : Prop where
  count : out.answer =
    before.table.values.countP fun r => r.origin = .selfOriginated ∧ refreshAge ≤ r.lsa.hdr.age.toNat
  keys : out.state.table.keys = before.table.keys
  renewed : ∀ k r, (k, r) ∈ before.table.entries → r.origin = .selfOriginated → refreshAge ≤ r.lsa.hdr.age.toNat →
    ∃ s, r.lsa.hdr.seqNo = some s ∧
      (k, ⟨⟨{ r.lsa.hdr with age := 0, seqNo := some (if s = 0x7fffffff then 0x80000001 else s + 1) }, r.lsa.body, now⟩,
        .selfOriginated⟩) ∈ out.state.table.entries
  others : ∀ k r, (k, r) ∈ before.table.entries →
    ¬ (r.origin = .selfOriginated ∧ refreshAge ≤ r.lsa.hdr.age.toNat) → (k, r) ∈ out.state.table.entries
  counted : out.state.originated = before.originated + UInt32.ofNat out.answer
  /-- at once once more, and nothing happens -/
  again : out.state.refresh now = .silent out.state 0

/-- **A refresh renews exactly what is due.** In every state that runs lead to, its answer is the number of the records
of the local router that have reached the age for a refresh. Each of them has the same content afterwards, age zero, the
next sequence number and the present time; all others are as they were, and there are no others than before. Another
refresh right after it has nothing to do. -/
theorem refreshed_exactly {s : Timed Database} (h : Reachable s) :
    Refreshed s.now s.state (s.state.refresh s.now) := by
  have hsound := sound_of_reachable h
  refine ⟨answer_refresh s.state s.now, ?_, ?_, ?_, originated_forEach_renew s.now _ s.state, ?_⟩
  · rw [table_refresh hsound]
    simp [SortedMap.keys, SortedMap.mapValues]
  · intro k r hr hown hage
    have hrecord : r.Sound k := hsound k r (SortedMap.find?_eq_some_iff.mpr hr)
    obtain ⟨seqNo, hseqNo, hrefreshed⟩ :=
      Record.refreshed_of_isDue hrecord (Record.isDue_iff.mpr ⟨hown, hage⟩) s.now
    refine ⟨seqNo, hseqNo, ?_⟩
    rw [← hrefreshed]
    exact mem_entries_refresh hsound s.now hr
  · intro k r hr hnot
    have hkept : r.refreshed s.now = r := if_neg (mt Record.isDue_iff.mp hnot)
    have hmem := mem_entries_refresh hsound s.now hr
    rwa [hkept] at hmem
  · exact refresh_of_none_due (dueForRefresh_refresh hsound s.now) s.now

/-- The last number is reached just before the refresh; beside it stand an old LSA of a neighbour and a young one of the
local router. -/
def lastNumberDue : List (Turn Op) :=
  [.perform (.receive ⟨0, .external, LsaKind.router.type, ⟨1⟩, ⟨1⟩, some 0x7ffffffe, none, some 24⟩ (.router ⟨⟨0⟩, []⟩)),
    .perform (.installRouterLsa ⟨1⟩ ⟨0⟩ []),
    .perform (.receive ⟨0, .external, LsaKind.router.type, ⟨2⟩, ⟨2⟩, some 5, some 9, some 24⟩ (.router ⟨⟨0⟩, []⟩)),
    .perform (.age 1800),
    .perform (.installExternalLsa ⟨1⟩ ⟨⟨.ofOctets 10 0 0 1, Fin.last 32⟩, 1, .type2, none, 0⟩)]

/-- one of three records is due, and its numbers start over -/
theorem refreshed_exactly_lastNumber :
    ∃ s r, Reachable s ∧ s.state.table.size = 3 ∧ (⟨LsaKind.router.type, ⟨1⟩, ⟨1⟩⟩, r) ∈ s.state.table.entries ∧
      (s.state.refresh s.now).answer = 1 ∧ Refreshed s.now s.state (s.state.refresh s.now) ∧
      (⟨LsaKind.router.type, ⟨1⟩, ⟨1⟩⟩, ⟨⟨{ r.lsa.hdr with age := 0, seqNo := some 0x80000001 }, r.lsa.body, s.now⟩,
        .selfOriginated⟩) ∈ (s.state.refresh s.now).state.table.entries := by
  obtain ⟨s, r, hreach, hsize, hmem, hanswer, hown, hage, hlast⟩ : ∃ s r, Reachable s ∧ s.state.table.size = 3 ∧
      (⟨LsaKind.router.type, ⟨1⟩, ⟨1⟩⟩, r) ∈ s.state.table.entries ∧ (s.state.refresh s.now).answer = 1 ∧
      r.origin = .selfOriginated ∧ refreshAge ≤ r.lsa.hdr.age.toNat ∧ r.lsa.hdr.seqNo = some 0x7fffffff :=
    ⟨_, _, ⟨.unspecified, .start, lastNumberDue, _, rfl, rfl⟩, rfl, List.mem_cons_self, rfl, rfl, by decide +kernel, rfl⟩
  have hrefreshed := refreshed_exactly hreach
  obtain ⟨seqNo, hseqNo, hrenewed⟩ := hrefreshed.renewed _ r hmem hown hage
  cases hlast.symm.trans hseqNo
  exact ⟨s, r, hreach, hsize, hmem, hanswer, hrefreshed, hrenewed⟩

end Database

end RoutingReplay.Ospf
