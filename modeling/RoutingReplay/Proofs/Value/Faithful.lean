/-
Types that come back from the values they are written as.

A writer and a reader of a type are faithful to each other (`Faithful`) if what is written has an exact text and is read
as what it was. Faithfulness of scalars is arithmetic; options, lists and choices take it from their parts. A record is
read by its slots: if its names differ, every slot holds the field of that name (`slots?_record`), and the record is as
faithful as its fields.
-/
import RoutingReplay.Value.Reading
import RoutingReplay.Proofs.Json.RoundTrip

namespace RoutingReplay

open Json (IsExact)

namespace Value

/-- what is written has an exact text, and it is read as what it was -/
structure Faithful {α : Type} (write : α → Value) (read : Value → Option α) : Prop where
  exact : ∀ a, IsExact (write a)
  readsBack : ∀ a, read (write a) = some a

variable {α : Type} {write : α → Value} {read : Value → Option α}

/-- A reader goes on with what was read. The proof is by rewriting: a definitional step here would let the kernel
compare the readers on both sides by running them. -/
theorem some_bind {β : Type} (a : α) (f : α → Option β) : (some a >>= f) = f a := by
  rw [Option.bind_eq_bind, Option.bind_some]

theorem Faithful.required (h : Faithful write read) (a : α) : Value.required read (some (write a)) = some a :=
  h.readsBack a

theorem Faithful.defaulted (h : Faithful write read) (d a : α) : Value.defaulted d read (some (write a)) = some a :=
  h.readsBack a

/-! ## Scalars -/

theorem isExact_nat {n : Nat} (h : n < 0x10000000000000000) : IsExact (.nat n) :=
  .int (by omega) (by omega)

theorem asNat?_nat {bound n : Nat} (h : n < bound) : (Value.nat n).asNat? bound = some n := by
  have hrange : 0 ≤ (n : Int) ∧ (n : Int) < bound := by omega
  rw [nat, asNat?, if_pos hrange, Int.toNat_natCast]

theorem faithful_uint8 : Faithful (fun n : UInt8 => .nat n.toNat) asUInt8? where
  exact n := isExact_nat (by have := n.toNat_lt; omega)
  readsBack n := by rw [asUInt8?, asNat?_nat n.toNat_lt, Option.map_some, UInt8.ofNat_toNat]

theorem faithful_uint16 : Faithful (fun n : UInt16 => .nat n.toNat) asUInt16? where
  exact n := isExact_nat (by have := n.toNat_lt; omega)
  readsBack n := by rw [asUInt16?, asNat?_nat n.toNat_lt, Option.map_some, UInt16.ofNat_toNat]

theorem faithful_uint32 : Faithful (fun n : UInt32 => .nat n.toNat) asUInt32? where
  exact n := isExact_nat (by have := n.toNat_lt; omega)
  readsBack n := by rw [asUInt32?, asNat?_nat n.toNat_lt, Option.map_some, UInt32.ofNat_toNat]

theorem faithful_uint64 : Faithful (fun n : UInt64 => .nat n.toNat) asUInt64? where
  exact n := isExact_nat n.toNat_lt
  readsBack n := by rw [asUInt64?, asNat?_nat n.toNat_lt, Option.map_some, UInt64.ofNat_toNat]

theorem faithful_bool : Faithful .bool asBool? where
  exact := .bool
  readsBack _ := rfl

/-- A notation that is read as it is written makes a faithful text. -/
theorem faithful_notation {write : α → List Char} {read : List Char → Option α} (h : ∀ a, read (write a) = some a) :
    Faithful (fun a => .chars (write a)) (asNotation? read) where
  exact a := .text _
  readsBack a := by
    rw [chars, asNotation?, asText?, Option.bind_some, String.toList_ofList, h]

/-! ## Options, lists and choices -/

theorem Faithful.option (h : Faithful write read) (hnull : ∀ a, write a ≠ .null) :
    Faithful (Value.option write) (asOption? read) where
  exact
    | none => .null
    | some a => h.exact a
  readsBack
    | none => rfl
    | some a => by
      rw [Value.option, asOption?]
      · rw [h.readsBack, Option.map_some]
      · exact hnull a

theorem Faithful.list (h : Faithful write read) : Faithful (fun xs => .list (xs.map write)) (asList? read) where
  exact xs := .list fun v hv => by
    obtain ⟨x, -, rfl⟩ := List.mem_map.mp hv
    exact h.exact x
  readsBack xs := by
    rw [asList?, mapM_map_eq_some (g := id) fun x _ => h.readsBack x, List.map_id]

/-- A choice between names is faithful if every choice is offered under a name of its own. -/
theorem faithful_oneOf {name : α → String} {choices : List α} (hall : ∀ a, a ∈ choices)
    (hname : ∀ a b, name a = name b → a = b) (format : Format) :
    Faithful (fun a => .text (name a)) (asOneOf? format (choices.map fun a => (name a, a))) where
  exact a := .text _
  readsBack a := by
    have hfind : (choices.map fun a => (name a, a)).find? (fun x => x.1 = name a) = some (name a, a) := by
      rw [List.find?_map]
      cases hfound : choices.find? ((fun x : String × α => decide (x.1 = name a)) ∘ fun b => (name b, b)) with
      | none => exact absurd (decide_eq_true rfl) (List.find?_eq_none.mp hfound a (hall a))
      | some b =>
        have hb := List.find?_some hfound
        obtain rfl := hname b a (of_decide_eq_true hb)
        rfl
    simp only [asOneOf?, variant?, Option.bind_eq_bind, Option.bind_some, Option.any_none, Bool.false_eq_true,
      if_false, hfind, Option.map_some]

/-! ## Records -/

theorem filter_name {fields : List (String × Value)} (h : (fields.map Prod.fst).Nodup) {f : String × Value}
    (hf : f ∈ fields) : (fields.filter fun g => g.1 = f.1) = [f] := by
  induction fields with
  | nil => cases hf
  | cons g rest ih =>
    obtain ⟨hg, hrest⟩ := List.nodup_cons.mp h
    rcases List.mem_cons.mp hf with rfl | hf
    · have hnone : (rest.filter fun g => g.1 = f.1) = [] := by
        rw [List.filter_eq_nil_iff]
        intro g' hg' hname
        exact hg (of_decide_eq_true hname ▸ List.mem_map_of_mem hg')
      rw [List.filter_cons_of_pos (by simp), hnone]
    · have hne : g.1 ≠ f.1 := fun hname => hg (hname ▸ List.mem_map_of_mem hf)
      rw [List.filter_cons_of_neg (by simpa using hne), ih hrest hf]

/-- A record whose names differ fills the slots of these names, one after the other. -/
theorem slots?_record {shape : Shape} {fields : List (String × Value)} (hnames : shape.names = fields.map Prod.fst)
    (hnodup : shape.names.Nodup) (format : Format) :
    slots? format shape (.record fields) = some (fields.map fun f => some f.2) := by
  rw [hnames] at hnodup
  have hknown : (fields.any fun f => !(fields.map Prod.fst).contains f.1) = false := by
    rw [List.any_eq_false]
    intro f hf
    simp only [Bool.not_eq_true', Bool.not_eq_false, List.contains_iff_mem]
    exact List.mem_map_of_mem hf
  rw [slots?, fieldSlots?, hnames, hknown, Bool.and_false, if_neg Bool.false_ne_true]
  refine mapM_map_eq_some fun f hf => ?_
  rw [filter_name hnodup hf]

end Value

end RoutingReplay
