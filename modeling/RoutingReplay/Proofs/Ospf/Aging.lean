/-
What ageing does, to the second.

The seconds are squeezed into 16 bits, added to an age with saturation and cut off at `maxAge`, and whether a record has
expired is told by the age that comes out. Since `maxAge` is far below the largest number of 16 bits, all that agrees with
the addition of natural numbers (`Header.age_aged`): no record expires early or late, however many seconds pass at once.

- `aged_exactly`: which records ageing keeps, with which age, and how many it removes.
- `age_age`: to age twice is to age once by the sum, in the table and in the number of the records that go.
-/
import RoutingReplay.Proofs.Ospf.Content
import RoutingReplay.Proofs.Ospf.Ticks

namespace RoutingReplay.Ospf

/-- below `maxAge` an age is the sum -/
theorem Record.aged_of_lt {r : Record} {elapsed : Nat} (h : r.lsa.hdr.age.toNat + elapsed < maxAge) :
    r.aged elapsed =
      { r with lsa := { r.lsa with hdr := { r.lsa.hdr with age := .ofNat (r.lsa.hdr.age.toNat + elapsed) } } } := by
  have hrange : r.lsa.hdr.age.toNat + elapsed < UInt16.size := h.trans (by decide)
  have hage : (r.lsa.hdr.aged elapsed).age = .ofNat (r.lsa.hdr.age.toNat + elapsed) := by
    rw [← UInt16.toNat_inj, Header.age_aged, UInt16.toNat_ofNat_of_lt' hrange]
    exact Nat.min_eq_left h.le
  rw [← hage]
  rfl

namespace Database

/-- what ageing does: the records that it keeps, and how many it removes -/
structure Aged (elapsed : Nat) (before : Database) (out : Step Nat) : Prop where
  kept : ∀ k r', (k, r') ∈ out.state.table.entries ↔
    ∃ r, (k, r) ∈ before.table.entries ∧ r.lsa.hdr.age.toNat + elapsed < maxAge ∧ r' =
      { r with lsa := { r.lsa with hdr := { r.lsa.hdr with age := .ofNat (r.lsa.hdr.age.toNat + elapsed) } } }
  count : out.answer = before.table.values.countP fun r => maxAge ≤ r.lsa.hdr.age.toNat + elapsed
  removed : out.state.size + out.answer = before.size

theorem mem_entries_age {db : Database} {now : Instant} {elapsed : Nat} {k : LsaKey} {r' : Record} :
    (k, r') ∈ (db.age now elapsed).state.table.entries ↔
      ∃ r, (k, r) ∈ db.table.entries ∧ r.lsa.hdr.age.toNat + elapsed < maxAge ∧ r.aged elapsed = r' := by
  simp only [← SortedMap.find?_eq_some_iff, find?_age]
  exact mem_afterAging

theorem answer_age (db : Database) (now : Instant) (elapsed : Nat) :
    (db.age now elapsed).answer =
      db.table.values.countP fun r => maxAge ≤ r.lsa.hdr.age.toNat + elapsed := by
  have hexpired : (db.age now elapsed).answer =
      ((db.agedTable elapsed).filter fun _ r => r.lsa.hdr.isMaxAge).keys.length := rfl
  rw [hexpired, SortedMap.keys, SortedMap.filter, List.length_map, ← List.countP_eq_length_filter, agedTable,
    SortedMap.mapValues, List.countP_map, SortedMap.values, List.countP_map]
  apply List.countP_congr
  intro e _
  simp [Header.isMaxAge_aged]

/-- what does not expire stays -/
theorem size_age (db : Database) (now : Instant) (elapsed : Nat) :
    (db.age now elapsed).state.size + (db.age now elapsed).answer = db.size := by
  have hkept : (db.age now elapsed).state.size =
      (db.agedTable elapsed).entries.countP fun e => !e.2.lsa.hdr.isMaxAge := by
    rw [size, table_age, SortedMap.size, SortedMap.filter, ← List.countP_eq_length_filter]
  have hexpired : (db.age now elapsed).answer =
      (db.agedTable elapsed).entries.countP fun e => e.2.lsa.hdr.isMaxAge := by
    rw [List.countP_eq_length_filter]
    exact List.length_map _
  have hall : (db.agedTable elapsed).entries.length = db.size := SortedMap.size_mapValues db.table _
  rw [hkept, hexpired, ← hall, Nat.add_comm]
  have hsplit := List.length_eq_countP_add_countP (fun e : LsaKey × Record => e.2.lsa.hdr.isMaxAge)
    (l := (db.agedTable elapsed).entries)
  simpa using hsplit.symm

/-- **Ageing is exact.** Of every database it keeps the records whose age plus the seconds is below `maxAge`, with that
sum as their age and nothing else changed; it removes all others, and its answer is their number. -/
theorem aged_exactly (db : Database) (now : Instant) (elapsed : Nat) : Aged elapsed db (db.age now elapsed) := by
  refine ⟨?_, answer_age db now elapsed, size_age db now elapsed⟩
  intro k r'
  rw [mem_entries_age]
  constructor
  · rintro ⟨r, hr, hlt, rfl⟩
    exact ⟨r, hr, hlt, Record.aged_of_lt hlt⟩
  · rintro ⟨r, hr, hlt, rfl⟩
    exact ⟨r, hr, hlt, Record.aged_of_lt hlt⟩

/-! ## One step and two -/

/-- **Ageing is additive** in the table, whenever the steps are taken. -/
theorem table_age_age (db : Database) (t₁ t₂ t : Instant) (a b : Nat) :
    ((db.age t₁ a).state.age t₂ b).state.table = (db.age t (a + b)).state.table := by
  apply SortedMap.ext_find?
  intro k
  rw [find?_age, find?_age, find?_age, afterAging_afterAging]

/-- Two steps remove as many records as one. -/
theorem answer_age_age (db : Database) (t₁ t₂ t : Instant) (a b : Nat) :
    (db.age t₁ a).answer + ((db.age t₁ a).state.age t₂ b).answer = (db.age t (a + b)).answer := by
  have hfirst := size_age db t₁ a
  have hsecond := size_age (db.age t₁ a).state t₂ b
  have honce := size_age db t (a + b)
  have hsize : ((db.age t₁ a).state.age t₂ b).state.size = (db.age t (a + b)).state.size :=
    congrArg SortedMap.size (table_age_age db t₁ t₂ t a b)
  omega

/-- two steps leave what one leaves, but for the change log -/
theorem content_age_age (db : Database) (t₁ t₂ t : Instant) (a b : Nat) :
    ((db.age t₁ a).state.age t₂ b).state.content = (db.age t (a + b)).state.content := by
  have htable := table_age_age db t₁ t₂ t a b
  rw [table_age, table_age] at htable
  rw [content_age, content_age, htable, content_age]

end Database

namespace Router

theorem routerId_age (p : Router) (now : Instant) (elapsed : Nat) :
    (p.age now elapsed).state.routerId = p.routerId := rfl

theorem isBoundary_age (p : Router) (now : Instant) (elapsed : Nat) :
    (p.age now elapsed).state.isBoundary = p.isBoundary := rfl

theorem find?_age (p : Router) (now : Instant) (elapsed : Nat) (id : Address4) :
    (p.age now elapsed).state.areas.find? id =
      (p.areas.find? id).map fun area => { area with db := (area.db.age now elapsed).state } :=
  find?_onAreas _ p id

/-- The databases of a process age alike, so two steps of them leave what one leaves. -/
theorem content_age_age (p : Router) (t₁ t₂ t : Instant) (a b : Nat) :
    ((p.age t₁ a).state.age t₂ b).state.content = (p.age t (a + b)).state.content := by
  apply eq_of_areas
  · simp only [routerId_content, routerId_age]
  · simp only [isBoundary_content, isBoundary_age]
  · intro id
    simp only [find?_content, find?_age]
    cases p.areas.find? id with
    | none => simp only [Option.map_none]
    | some area =>
      have hdb := area.db.content_age_age t₁ t₂ t a b
      simp only [Option.map_some, Area.content, hdb]

end Router

end RoutingReplay.Ospf
