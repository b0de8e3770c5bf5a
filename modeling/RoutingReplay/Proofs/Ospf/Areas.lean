/-
The areas of a routing process.

A new process has the areas of its configuration (`find?_of_create`). An operation that is addressed to an area fails if
and only if the process does not have it, and then it does nothing (`onArea_of_absent`, `answer_onArea_of_present`);
otherwise it changes that area alone (`find?_onArea`). An operation on all areas does the same to each of them
(`find?_onAreas`).
-/
import RoutingReplay.Ospf.Router.Operation

namespace RoutingReplay.Ospf.Router

/-! ## Creation -/

/-- an area as it is when it is created -/
def fresh (now : Instant) (config : AreaConfig) : Area := ⟨config.id, config.type, .empty config.id now⟩

theorem find?_of_createAreas {now : Instant} {configs : List AreaConfig} {areas made : SortedMap Address4 Area}
    (h : (createAreas now configs areas).answer = .ok made) (id : Address4) (area : Area) :
    made.find? id = some area ↔
      areas.find? id = some area ∨ ∃ config ∈ configs, config.id = id ∧ area = fresh now config := by
  induction configs generalizing areas with
  | nil =>
    cases h
    simp
  | cons config rest ih =>
    unfold createAreas at h
    split at h
    · cases h
    · rename_i hnew
      have habsent : areas.find? config.id = none := by simpa [SortedMap.contains] using hnew
      rw [ih h, SortedMap.find?_insert]
      simp only [List.mem_cons, exists_eq_or_imp]
      by_cases hid : id = config.id
      · subst hid
        rw [if_pos rfl, habsent]
        constructor
        · rintro (hmade | hrest)
          · exact Or.inr (Or.inl ⟨rfl, (Option.some.inj hmade).symm⟩)
          · exact Or.inr (Or.inr hrest)
        · rintro (hnone | ⟨-, harea⟩ | hrest)
          · cases hnone
          · exact Or.inl (congrArg some harea.symm)
          · exact Or.inr hrest
      · rw [if_neg hid]
        constructor
        · rintro (hold | hrest)
          · exact Or.inl hold
          · exact Or.inr (Or.inr hrest)
        · rintro (hold | ⟨hconfig, -⟩ | hrest)
          · exact Or.inl hold
          · exact absurd hconfig.symm hid
          · exact Or.inr hrest

theorem size_of_createAreas {now : Instant} {configs : List AreaConfig} {areas made : SortedMap Address4 Area}
    (h : (createAreas now configs areas).answer = .ok made) : made.size = areas.size + configs.length := by
  induction configs generalizing areas with
  | nil =>
    cases h
    rfl
  | cons config rest ih =>
    unfold createAreas at h
    split at h
    · cases h
    · rename_i hnew
      rw [ih h, SortedMap.size_insert (Bool.not_eq_true _ ▸ hnew), List.length_cons]
      omega

/-- what a process is that was created from a configuration -/
theorem create_eq_ok_iff {config : RouterConfig} {now : Instant} {p : Router} :
    (create config now).answer = .ok p ↔ ∃ routerId areas, config.routerId = some routerId ∧
      (createAreas now config.areas .empty).answer = .ok areas ∧ p = ⟨routerId, areas, false⟩ := by
  unfold create
  cases config.routerId with
  | none => simp [Outcome.silent]
  | some routerId =>
    cases hareas : (createAreas now config.areas .empty).answer with
    | error e => simp [Outcome.map, hareas, Except.map]
    | ok areas => simp [Outcome.map, hareas, Except.map, eq_comm]

/-- A new process has the configured areas, without LSAs. -/
theorem find?_of_create {config : RouterConfig} {now : Instant} {p : Router} (h : (create config now).answer = .ok p)
    (id : Address4) (area : Area) :
    p.areas.find? id = some area ↔ ∃ c ∈ config.areas, c.id = id ∧ area = fresh now c := by
  obtain ⟨routerId, areas, -, hareas, rfl⟩ := create_eq_ok_iff.mp h
  rw [find?_of_createAreas hareas, SortedMap.find?_empty]
  simp

theorem contains_of_create {config : RouterConfig} {now : Instant} {p : Router}
    (h : (create config now).answer = .ok p) (id : Address4) :
    p.areas.contains id = true ↔ id ∈ config.areas.map AreaConfig.id := by
  rw [SortedMap.contains, Option.isSome_iff_exists, List.mem_map]
  simp only [find?_of_create h]
  constructor
  · rintro ⟨area, c, hmem, hid, -⟩
    exact ⟨c, hmem, hid⟩
  · rintro ⟨c, hmem, hid⟩
    exact ⟨fresh now c, c, hmem, hid, rfl⟩

/-! ## Operations on one area -/

section

variable {α : Type} {p : Router} {id : Address4} (act : Area → Area.Step α)

theorem onArea_of_absent (h : p.areas.contains id = false) :
    p.onArea id act = .silent p (.error (.areaNotFound id)) := by
  have hnone : p.areas.find? id = none := by simpa [SortedMap.contains] using h
  simp only [onArea, area?, hnone]

theorem answer_onArea_of_present (h : p.areas.contains id = true) : ∃ a, (p.onArea id act).answer = .ok a := by
  obtain ⟨area, harea⟩ := Option.isSome_iff_exists.mp h
  simp only [onArea, area?, harea]
  exact ⟨_, rfl⟩

theorem routerId_onArea (p : Router) (target : Address4) : (p.onArea target act).state.routerId = p.routerId := by
  unfold onArea
  cases p.area? target <;> rfl

theorem isBoundary_onArea (p : Router) (target : Address4) :
    (p.onArea target act).state.isBoundary = p.isBoundary := by
  unfold onArea
  cases p.area? target <;> rfl

theorem find?_onArea (p : Router) (target id : Address4) :
    (p.onArea target act).state.areas.find? id =
      (p.areas.find? id).map fun area => if id = target then (act area).state else area := by
  cases htarget : p.areas.find? target with
  | none =>
    have habsent : p.areas.contains target = false := by rw [SortedMap.contains, htarget, Option.isSome_none]
    rw [onArea_of_absent act habsent]
    by_cases hid : id = target
    · simp [Outcome.silent, hid, htarget]
    · simp [Outcome.silent, hid]
  | some area =>
    simp only [onArea, area?, htarget, SortedMap.find?_insert]
    by_cases hid : id = target
    · simp [hid, htarget]
    · simp [hid]

/-! ## Operations on all areas -/

theorem find?_onAreas (p : Router) (id : Address4) :
    (p.onAreas act).state.areas.find? id = (p.areas.find? id).map fun area => (act area).state :=
  SortedMap.find?_mapValues _ _ _

end

end RoutingReplay.Ospf.Router
