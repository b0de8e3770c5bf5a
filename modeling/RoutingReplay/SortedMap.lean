/-
Finite maps whose entries stand in ascending order of their keys.

`SortedMap α β` holds a list of entries together with a proof that the keys ascend strictly, so that a map has exactly
one representation: two maps that answer every look-up alike are equal (`SortedMap.ext_find?`). The order of the keys
is the order in which a table is walked, which is why it is part of the type and not a matter of the container.

Every operation comes with its look-up equation (`find?_insert`, `find?_erase`, `find?_mapValues`, `find?_filter`), and
after that nobody needs to open the lists.
-/
import RoutingReplay.KeyOrder

namespace RoutingReplay

/-- a finite map; its entries ascend strictly by key -/
structure SortedMap (α β : Type) [KeyOrder α] where
  entries : List (α × β)
  ascending : entries.Pairwise (fun a b => a.1 < b.1)
  deriving DecidableEq

namespace SortedMap

variable {α β γ : Type} [KeyOrder α]

/-! ## Operations on the entry lists -/

/-- the value under `k` in an ascending list of entries -/
def lookup (k : α) : List (α × β) → Option β
  | [] => none
  | e :: rest => if e.1 < k then lookup k rest else if k < e.1 then none else some e.2

/-- `v` under `k`, in place of the entry of that key or between its neighbours -/
def place (k : α) (v : β) : List (α × β) → List (α × β)
  | [] => [(k, v)]
  | e :: rest =>
    if e.1 < k then e :: place k v rest
    else if k < e.1 then (k, v) :: e :: rest
    else (k, v) :: rest

theorem mem_place {k : α} {v : β} {e : α × β} {l : List (α × β)} (h : e ∈ place k v l) :
    e = (k, v) ∨ e ∈ l := by
  induction l with
  | nil => exact Or.inl (List.mem_singleton.mp h)
  | cons x rest ih =>
    unfold place at h
    split at h
    · rcases List.mem_cons.mp h with h | h
      · exact Or.inr (h ▸ List.mem_cons_self)
      · exact (ih h).imp_right (List.mem_cons_of_mem _)
    · split at h
      · exact (List.mem_cons.mp h).imp_right id
      · exact (List.mem_cons.mp h).imp_right (List.mem_cons_of_mem _)

theorem ascending_place {k : α} {v : β} {l : List (α × β)} (h : l.Pairwise (fun a b => a.1 < b.1)) :
    (place k v l).Pairwise (fun a b => a.1 < b.1) := by
  induction l with
  | nil => exact List.pairwise_singleton _ _
  | cons x rest ih =>
    obtain ⟨hx, hrest⟩ := List.pairwise_cons.mp h
    unfold place
    split
    · rename_i hlt
      refine List.pairwise_cons.mpr ⟨fun e he => ?_, ih hrest⟩
      rcases mem_place he with rfl | he
      · exact hlt
      · exact hx e he
    · rename_i hnot
      split
      · rename_i hlt
        refine List.pairwise_cons.mpr ⟨fun e he => ?_, h⟩
        rcases List.mem_cons.mp he with rfl | he
        · exact hlt
        · exact KeyOrder.trans hlt (hx e he)
      · rename_i hnot'
        have hk : x.1 = k := KeyOrder.connected hnot hnot'
        exact List.pairwise_cons.mpr ⟨fun e he => hk ▸ hx e he, hrest⟩

theorem lookup_eq_some_iff {k : α} {v : β} {l : List (α × β)} (h : l.Pairwise (fun a b => a.1 < b.1)) :
    lookup k l = some v ↔ (k, v) ∈ l := by
  induction l with
  | nil => simp [lookup]
  | cons x rest ih =>
    obtain ⟨hx, hrest⟩ := List.pairwise_cons.mp h
    unfold lookup
    split
    · rename_i hlt
      rw [ih hrest, List.mem_cons]
      refine ⟨Or.inr, fun he => he.resolve_left fun e => ?_⟩
      exact KeyOrder.irrefl k (by simpa [← e] using hlt)
    · rename_i hnot
      split
      · rename_i hlt
        simp only [reduceCtorEq, List.mem_cons, false_iff, not_or]
        refine ⟨fun e => KeyOrder.irrefl k (by simpa [← e] using hlt), fun he => ?_⟩
        exact KeyOrder.asymm hlt (hx _ he)
      · rename_i hnot'
        have hk : x.1 = k := KeyOrder.connected hnot hnot'
        rw [List.mem_cons]
        constructor
        · intro e
          exact Or.inl (Prod.ext hk.symm (Option.some.inj e).symm)
        · rintro (e | he)
          · rw [← e]
          · exact absurd (hx _ he) (by rw [hk]; exact KeyOrder.irrefl k)

/-! ## The maps -/

/-- the map without entries -/
def empty : SortedMap α β := ⟨[], List.Pairwise.nil⟩

instance : EmptyCollection (SortedMap α β) := ⟨empty⟩

/-- the value stored under `k` -/
def find? (m : SortedMap α β) (k : α) : Option β := lookup k m.entries

/-- `v` under `k`; what stood there before is gone -/
def insert (m : SortedMap α β) (k : α) (v : β) : SortedMap α β :=
  ⟨place k v m.entries, ascending_place m.ascending⟩

/-- the entries that pass a test -/
def filter (m : SortedMap α β) (p : α → β → Bool) : SortedMap α β :=
  ⟨m.entries.filter (fun e => p e.1 e.2), m.ascending.filter _⟩

/-- the map without the entry of `k` -/
def erase (m : SortedMap α β) (k : α) : SortedMap α β := m.filter (fun k' _ => k' ≠ k)

/-- the same keys with new values -/
def mapValues (m : SortedMap α β) (f : α → β → γ) : SortedMap α γ :=
  ⟨m.entries.map (fun e => (e.1, f e.1 e.2)), List.pairwise_map.mpr m.ascending⟩

/-- the keys, ascending -/
def keys (m : SortedMap α β) : List α := m.entries.map Prod.fst

/-- the values, by ascending keys -/
def values (m : SortedMap α β) : List β := m.entries.map Prod.snd

/-- the number of entries -/
def size (m : SortedMap α β) : Nat := m.entries.length

/-- whether a key has an entry -/
def contains (m : SortedMap α β) (k : α) : Bool := (m.find? k).isSome

/-! ## Look-up equations -/

theorem find?_eq_some_iff {m : SortedMap α β} {k : α} {v : β} : m.find? k = some v ↔ (k, v) ∈ m.entries :=
  lookup_eq_some_iff m.ascending

/-- Two maps with the same look-ups are equal. -/
theorem ext_find? {m n : SortedMap α β} (h : ∀ k, m.find? k = n.find? k) : m = n := by
  have mem : ∀ e : α × β, e ∈ m.entries ↔ e ∈ n.entries := fun e => by
    rw [← find?_eq_some_iff (m := m) (k := e.1) (v := e.2), h, find?_eq_some_iff]
  suffices m.entries = n.entries by
    cases m; cases n; simp_all
  have go : ∀ l₁ l₂ : List (α × β), l₁.Pairwise (fun a b => a.1 < b.1) → l₂.Pairwise (fun a b => a.1 < b.1) →
      (∀ e, e ∈ l₁ ↔ e ∈ l₂) → l₁ = l₂ := by
    intro l₁
    induction l₁ with
    | nil =>
      intro l₂ _ _ hm
      cases l₂ with
      | nil => rfl
      | cons y _ => exact absurd ((hm y).mpr List.mem_cons_self) List.not_mem_nil
    | cons x r₁ ih =>
      intro l₂ h₁ h₂ hm
      cases l₂ with
      | nil => exact absurd ((hm x).mp List.mem_cons_self) List.not_mem_nil
      | cons y r₂ =>
        obtain ⟨hx, hr₁⟩ := List.pairwise_cons.mp h₁
        obtain ⟨hy, hr₂⟩ := List.pairwise_cons.mp h₂
        have hxy : x = y := by
          rcases List.mem_cons.mp ((hm x).mp List.mem_cons_self) with e | hx'
          · exact e
          · rcases List.mem_cons.mp ((hm y).mpr List.mem_cons_self) with e | hy'
            · exact e.symm
            · exact absurd (hx y hy') (KeyOrder.asymm (hy x hx'))
        subst hxy
        refine congrArg _ (ih r₂ hr₁ hr₂ fun e => ⟨fun he => ?_, fun he => ?_⟩)
        · exact (List.mem_cons.mp ((hm e).mp (List.mem_cons_of_mem _ he))).resolve_left
            fun c => KeyOrder.irrefl _ (c ▸ hx e he)
        · exact (List.mem_cons.mp ((hm e).mpr (List.mem_cons_of_mem _ he))).resolve_left
            fun c => KeyOrder.irrefl _ (c ▸ hy e he)
  exact go _ _ m.ascending n.ascending mem

theorem find?_empty (k : α) : (empty : SortedMap α β).find? k = none := rfl

theorem find?_insert_self (m : SortedMap α β) (k : α) (v : β) : (m.insert k v).find? k = some v := by
  have : ∀ l : List (α × β), (k, v) ∈ place k v l := fun l => by
    induction l with
    | nil => exact List.mem_cons_self
    | cons x rest ih =>
      unfold place
      split
      · exact List.mem_cons_of_mem _ ih
      · split <;> exact List.mem_cons_self
  exact find?_eq_some_iff.mpr (this m.entries)

theorem find?_insert_of_ne (m : SortedMap α β) {k k' : α} (v : β) (h : k' ≠ k) :
    (m.insert k v).find? k' = m.find? k' := by
  have keep : ∀ (w : β) (l : List (α × β)), (k', w) ∈ l → (k', w) ∈ place k v l := fun w l hw => by
    induction l with
    | nil => exact absurd hw List.not_mem_nil
    | cons x rest ih =>
      unfold place
      split
      · rcases List.mem_cons.mp hw with e | hw
        · exact e ▸ List.mem_cons_self
        · exact List.mem_cons_of_mem _ (ih hw)
      · rename_i hnot
        split
        · exact List.mem_cons_of_mem _ hw
        · rename_i hnot'
          rcases List.mem_cons.mp hw with e | hw
          · exact absurd (KeyOrder.connected hnot hnot') (by rw [← e]; exact h)
          · exact List.mem_cons_of_mem _ hw
  apply Option.ext
  intro w
  rw [find?_eq_some_iff, find?_eq_some_iff]
  refine ⟨fun hw => (mem_place hw).resolve_left fun e => h (congrArg Prod.fst e), keep w _⟩

theorem find?_insert (m : SortedMap α β) (k k' : α) (v : β) :
    (m.insert k v).find? k' = if k' = k then some v else m.find? k' := by
  split
  · rename_i h; rw [h, find?_insert_self]
  · rename_i h; rw [find?_insert_of_ne m v h]

theorem find?_filter (m : SortedMap α β) (p : α → β → Bool) (k : α) :
    (m.filter p).find? k = (m.find? k).filter (p k) := by
  apply Option.ext
  intro v
  rw [find?_eq_some_iff, Option.filter_eq_some_iff, find?_eq_some_iff]
  simp [filter]

theorem find?_erase (m : SortedMap α β) (k k' : α) :
    (m.erase k).find? k' = if k' = k then none else m.find? k' := by
  rw [erase, find?_filter]
  split
  · rename_i h; subst h; cases m.find? k' <;> simp
  · rename_i h; cases m.find? k' <;> simp [Option.filter, h]

theorem find?_mapValues (m : SortedMap α β) (f : α → β → γ) (k : α) :
    (m.mapValues f).find? k = (m.find? k).map (f k) := by
  have : ∀ l : List (α × β), lookup k (l.map (fun e => (e.1, f e.1 e.2))) = (lookup k l).map (f k) := fun l => by
    induction l with
    | nil => rfl
    | cons x rest ih =>
      simp only [List.map_cons, lookup]
      split
      · exact ih
      · rename_i hnot
        split
        · rfl
        · rename_i hnot'
          rw [KeyOrder.connected hnot hnot', Option.map_some]
  exact this m.entries

theorem erase_of_absent {m : SortedMap α β} {k : α} (h : m.find? k = none) : m.erase k = m := by
  apply ext_find?
  intro k'
  rw [find?_erase]
  split
  · rename_i hk
    rw [hk, h]
  · rfl

theorem insert_erase (m : SortedMap α β) (k : α) (v : β) : (m.erase k).insert k v = m.insert k v := by
  apply ext_find?
  intro k'
  rw [find?_insert, find?_insert, find?_erase]
  split <;> rfl

theorem mem_values_iff {m : SortedMap α β} {v : β} : v ∈ m.values ↔ ∃ k, m.find? k = some v := by
  simp only [values, List.mem_map, Prod.exists, exists_eq_right, find?_eq_some_iff]

theorem size_mapValues (m : SortedMap α β) (f : α → β → γ) : (m.mapValues f).size = m.size := by
  simp [size, mapValues]

theorem keys_mapValues (m : SortedMap α β) (f : α → β → γ) : (m.mapValues f).keys = m.keys := by
  simp only [keys, mapValues, List.map_map, Function.comp_def]

theorem length_keys (m : SortedMap α β) : m.keys.length = m.size := List.length_map _

/-- A new key makes the map larger by one. -/
theorem size_insert {m : SortedMap α β} {k : α} (h : m.contains k = false) (v : β) :
    (m.insert k v).size = m.size + 1 := by
  have grow : ∀ l : List (α × β), lookup k l = none → (place k v l).length = l.length + 1 := fun l hl => by
    induction l with
    | nil => rfl
    | cons x rest ih =>
      unfold lookup at hl
      unfold place
      split at hl
      · rename_i hlt
        simp [hlt, ih hl]
      · rename_i hnot
        split at hl
        · rename_i hlt
          simp [hnot, hlt]
        · cases hl
  exact grow m.entries (by simpa [contains, find?] using h)

theorem mem_keys_iff {m : SortedMap α β} {k : α} : k ∈ m.keys ↔ (m.find? k).isSome := by
  rw [Option.isSome_iff_exists, keys, List.mem_map]
  constructor
  · rintro ⟨e, he, rfl⟩
    exact ⟨e.2, find?_eq_some_iff.mpr he⟩
  · rintro ⟨v, hv⟩
    exact ⟨(k, v), find?_eq_some_iff.mp hv, rfl⟩

/-- The keys ascend strictly. -/
theorem pairwise_keys (m : SortedMap α β) : m.keys.Pairwise (· < ·) := List.pairwise_map.mpr m.ascending

/-- The look-ups of the keys of some entries find their values. -/
theorem filterMap_find?_of_mem {m : SortedMap α β} {l : List (α × β)} (h : ∀ e ∈ l, e ∈ m.entries) :
    (l.map Prod.fst).filterMap m.find? = l.map Prod.snd := by
  induction l with
  | nil => rfl
  | cons e rest ih =>
    have hfirst : m.find? e.1 = some e.2 := find?_eq_some_iff.mpr (h e List.mem_cons_self)
    rw [List.map_cons, List.filterMap_cons, hfirst, List.map_cons, ih fun e' he' => h e' (List.mem_cons_of_mem _ he')]

/-- The look-ups of the keys, in their order, find the values. -/
theorem filterMap_find?_keys (m : SortedMap α β) : m.keys.filterMap m.find? = m.values :=
  filterMap_find?_of_mem fun _ he => he

/-- The keys of the entries that pass a test find their values in the whole map. -/
theorem filterMap_find?_keys_filter (m : SortedMap α β) (p : α → β → Bool) :
    (m.filter p).keys.filterMap m.find? = (m.filter p).values :=
  filterMap_find?_of_mem fun _ he => (List.mem_filter.mp he).1

/-- Every entry passes a test or fails it. -/
theorem size_filter_add_size_filter_not (m : SortedMap α β) (p : α → β → Bool) :
    (m.filter p).size + (m.filter fun k v => !p k v).size = m.size := by
  have hsplit := List.length_eq_countP_add_countP (fun e : α × β => p e.1 e.2) (l := m.entries)
  simpa [size, filter, ← List.countP_eq_length_filter] using hsplit.symm

end SortedMap

end RoutingReplay
