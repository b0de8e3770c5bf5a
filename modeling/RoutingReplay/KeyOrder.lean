/-
Orders on keys.

A `KeyOrder` is a strict order in which any two different keys are ordered, given together with its laws. Keys with
several parts are ordered part by part (`KeyOrder.prod`), and a structure takes the order of its parts along an
injection (`KeyOrder.along`), so that no order is written twice.
-/
namespace RoutingReplay

/-- a strict order on keys in which any two different keys are ordered -/
class KeyOrder (α : Type) extends LT α where
  decide_lt : ∀ a b : α, Decidable (a < b)
  irrefl : ∀ a : α, ¬ a < a
  trans : ∀ {a b c : α}, a < b → b < c → a < c
  connected : ∀ {a b : α}, ¬ a < b → ¬ b < a → a = b

instance KeyOrder.decidableLT {α : Type} [KeyOrder α] (a b : α) : Decidable (a < b) :=
  KeyOrder.decide_lt a b

namespace KeyOrder

variable {α : Type} [KeyOrder α]

theorem ne_of_lt {a b : α} (h : a < b) : a ≠ b := fun e => irrefl b (e ▸ h)

theorem asymm {a b : α} (h : a < b) : ¬ b < a := fun h' => irrefl a (trans h h')

/-- equality of keys, decided by the order alone -/
instance (priority := low) decidableEq : DecidableEq α := fun a b =>
  if h : a < b then isFalse (ne_of_lt h)
  else if h' : b < a then isFalse (fun e => irrefl a (e ▸ h'))
  else isTrue (connected h h')

/-- how two keys stand to each other -/
def order (a b : α) : Ordering :=
  if a < b then .lt else if b < a then .gt else .eq

/-- a pair is ordered by its first part, and by its second where the first parts agree -/
instance prod {β : Type} [KeyOrder β] : KeyOrder (α × β) where
  lt a b := a.1 < b.1 ∨ a.1 = b.1 ∧ a.2 < b.2
  decide_lt a b := inferInstanceAs (Decidable (a.1 < b.1 ∨ a.1 = b.1 ∧ a.2 < b.2))
  irrefl a h := h.elim (irrefl _) (fun h => irrefl _ h.2)
  trans := by
    rintro a b c (h | ⟨e, h⟩) (h' | ⟨e', h'⟩)
    · exact Or.inl (trans h h')
    · exact Or.inl (e' ▸ h)
    · exact Or.inl (e ▸ h')
    · exact Or.inr ⟨e.trans e', trans h h'⟩
  connected {a b} h h' := by
    have e₁ : a.1 = b.1 := connected (fun c => h (Or.inl c)) (fun c => h' (Or.inl c))
    exact Prod.ext e₁ (connected (fun c => h (Or.inr ⟨e₁, c⟩)) (fun c => h' (Or.inr ⟨e₁.symm, c⟩)))

/-- the order of the images under an injection -/
@[reducible]
def along {β : Type} (f : β → α) (inj : ∀ {a b : β}, f a = f b → a = b) : KeyOrder β where
  lt a b := f a < f b
  decide_lt a b := inferInstanceAs (Decidable (f a < f b))
  irrefl a := irrefl (f a)
  trans := trans
  connected h h' := inj (connected h h')

instance nat : KeyOrder Nat where
  decide_lt a b := inferInstanceAs (Decidable (a < b))
  irrefl a := Nat.lt_irrefl a
  trans := Nat.lt_trans
  connected h h' := Nat.le_antisymm (Nat.not_lt.mp h') (Nat.not_lt.mp h)

end KeyOrder

end RoutingReplay
