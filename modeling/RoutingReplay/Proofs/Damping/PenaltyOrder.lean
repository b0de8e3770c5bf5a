/-
What the damping engine needs to know about its arithmetic.

`PenaltyOrder` says that the comparisons order the numbers, of which NaN is none: whatever compares with itself compares
with everything else that does. `IdleDecay` says that a penalty stays what it is while no time passes. Both are stated
for any arithmetic; that binary64 numbers have them is proved where their model is opened.

`Config.Accepted` collects what the check of the parameters guarantees.
-/
import Mathlib.Tactic
import RoutingReplay.Damping.Damper

namespace RoutingReplay.Damping

open PenaltyArithmetic

/-- comparisons that form a total order on all numbers, and sums that are numbers; a number is what is at most itself -/
class PenaltyOrder (R : Type) [PenaltyArithmetic R] : Prop where
  zero_le_zero : (ofNat 0 : R) ≤ ofNat 0
  self_of_isFinite : ∀ {a : R}, isFinite a = true → a ≤ a
  self_of_le : ∀ {a b : R}, a ≤ b → a ≤ a ∧ b ≤ b
  le_trans : ∀ {a b c : R}, a ≤ b → b ≤ c → a ≤ c
  le_total : ∀ {a b : R}, a ≤ a → b ≤ b → a ≤ b ∨ b ≤ a
  lt_iff : ∀ {a b : R}, a < b ↔ a ≤ b ∧ ¬ b ≤ a
  add_self : ∀ {a b : R}, a ≤ a → isFinite b = true → a + b ≤ a + b

/-- a penalty that is not negative stays what it is while no time passes -/
class IdleDecay (R : Type) [PenaltyArithmetic R] : Prop where
  decay_idle : ∀ {p : R} {halfLife : UInt32}, halfLife ≠ 0 → p = ofNat 0 ∨ ofNat 0 < p → decay p ⟨0⟩ halfLife = p

variable {R : Type} [PenaltyArithmetic R]

namespace PenaltyOrder

variable [PenaltyOrder R] {a b c : R}

theorem le_of_le_of_lt (hab : a ≤ b) (hbc : b < c) : a ≤ c := le_trans hab (lt_iff.mp hbc).1

theorem not_lt_of_le (h : a ≤ b) : ¬ b < a := fun hlt => (lt_iff.mp hlt).2 h

theorem lt_of_not_le (ha : a ≤ a) (hb : b ≤ b) (h : ¬ a ≤ b) : b < a :=
  lt_iff.mpr ⟨(le_total ha hb).resolve_left h, h⟩

theorem le_of_not_lt (ha : a ≤ a) (hb : b ≤ b) (h : ¬ a < b) : b ≤ a := by
  by_contra hle
  exact h (lt_of_not_le hb ha hle)

theorem lt_of_lt_of_le (hab : a < b) (hbc : b ≤ c) : a < c := by
  obtain ⟨hle, hnot⟩ := lt_iff.mp hab
  exact lt_iff.mpr ⟨le_trans hle hbc, fun hca => hnot (le_trans hbc hca)⟩

theorem not_lt_iff (ha : a ≤ a) (hb : b ≤ b) : ¬ a < b ↔ b ≤ a := ⟨le_of_not_lt ha hb, not_lt_of_le⟩

theorem not_le_iff (ha : a ≤ a) (hb : b ≤ b) : ¬ a ≤ b ↔ b < a := ⟨lt_of_not_le ha hb, fun h => (lt_iff.mp h).2⟩

end PenaltyOrder

/-- the smaller of two is a number if one of them is -/
theorem smaller_self [PenaltyOrder R] {a : R} (ha : a ≤ a) (b : R) : smaller a b ≤ smaller a b := by
  unfold smaller
  split_ifs with hab hb
  · exact ha
  · exact hb
  · exact ha

/-- the larger of two is one of them -/
theorem larger_eq_or (a b : R) : larger a b = b ∨ larger a b = a := by
  unfold larger
  split_ifs
  · exact Or.inl rfl
  · exact Or.inr rfl
  · exact Or.inl rfl

/-! ## Decay -/

theorem larger_zero_cases [PenaltyOrder R] (x : R) : larger x (ofNat 0) = ofNat 0 ∨ ofNat 0 < larger x (ofNat 0) := by
  unfold larger
  split
  · exact Or.inl rfl
  · rename_i hnot
    split
    · rename_i hself
      exact Or.inr (PenaltyOrder.lt_of_not_le hself PenaltyOrder.zero_le_zero hnot)
    · exact Or.inl rfl

/-- a number that is not negative is the larger of itself and zero -/
theorem larger_zero_eq_self [PenaltyOrder R] {x : R} (hx : x = ofNat 0 ∨ ofNat 0 < x) : larger x (ofNat 0) = x := by
  unfold larger
  rcases hx with rfl | hpos
  · rw [if_pos PenaltyOrder.zero_le_zero]
  · obtain ⟨hle, hnot⟩ := PenaltyOrder.lt_iff.mp hpos
    rw [if_neg hnot, if_pos (PenaltyOrder.self_of_le hle).2]

/-- a decayed penalty is a number, whatever it was before -/
theorem decay_self [PenaltyOrder R] (p : R) (d : Duration) (halfLife : UInt32) :
    decay p d halfLife ≤ decay p d halfLife := by
  rcases larger_zero_cases (p * exp2 (-seconds d / ofNat halfLife.toNat)) with hzero | hpos
  · rw [decay, hzero]
    exact PenaltyOrder.zero_le_zero
  · exact (PenaltyOrder.self_of_le (PenaltyOrder.lt_iff.mp hpos).1).2

/-- A penalty that has just been brought up to date does not decay any further. -/
theorem decay_again [PenaltyOrder R] [IdleDecay R] {halfLife : UInt32} (hlife : halfLife ≠ 0) (p : R) (d : Duration) :
    decay (decay p d halfLife) ⟨0⟩ halfLife = decay p d halfLife :=
  IdleDecay.decay_idle hlife (larger_zero_cases _)

/-! ## Accepted parameters -/

/-- what the check of the parameters guarantees -/
structure Config.Accepted (c : Config R) : Prop where
  parameters : ∀ p ∈ c.parameters, isFinite p.2 = true ∧ ¬ p.2 < ofNat 0
  reuse_pos : ¬ c.reuseThreshold ≤ ofNat 0
  halfLife_ne : c.halfLife ≠ 0
  thresholds : ¬ c.suppressThreshold ≤ c.reuseThreshold
  maxSuppressTime : ¬ c.maxSuppressTime < c.halfLife
  ceiling : ¬ c.ceiling < c.suppressThreshold

theorem Config.check_eq_ok_iff {c : Config R} : c.check = .ok () ↔ c.Accepted := by
  unfold check
  cases hfind : c.parameters.find? fun p => !isFinite p.2 || decide (p.2 < ofNat 0) with
  | some found =>
    refine ⟨fun h => (by cases h), fun h => ?_⟩
    have hbad := List.find?_some hfind
    obtain ⟨hfinite, hnonneg⟩ := h.parameters found (List.mem_of_find?_eq_some hfind)
    simp [hfinite, hnonneg] at hbad
  | none =>
    have hparameters : ∀ p ∈ c.parameters, isFinite p.2 = true ∧ ¬ p.2 < ofNat 0 := by
      intro p hp
      simpa using List.find?_eq_none.mp hfind p hp
    simp only
    split_ifs with h₁ h₂ h₃ h₄ h₅
    · exact ⟨fun h => (by cases h), fun h => absurd h₁ h.reuse_pos⟩
    · exact ⟨fun h => (by cases h), fun h => absurd h₂ h.halfLife_ne⟩
    · exact ⟨fun h => (by cases h), fun h => absurd h₃ h.thresholds⟩
    · exact ⟨fun h => (by cases h), fun h => absurd h₄ h.maxSuppressTime⟩
    · exact ⟨fun h => (by cases h), fun h => absurd h₅ h.ceiling⟩
    · exact ⟨fun _ => ⟨hparameters, h₁, h₂, h₃, h₄, h₅⟩, fun _ => rfl⟩

namespace Config.Accepted

variable {c : Config R}

instance decidable (c : Config R) : Decidable c.Accepted :=
  decidable_of_iff (c.check.isOk = true) <| by
    rw [← Config.check_eq_ok_iff]
    cases c.check <;> simp [Except.isOk, Except.toBool]

/-- No penalty reaches the suppress threshold and is below the reuse threshold. -/
theorem not_both [PenaltyOrder R] (h : c.Accepted) {p : R} (hs : c.suppressThreshold ≤ p) : ¬ p < c.reuseThreshold :=
  fun hr => h.thresholds (PenaltyOrder.le_of_le_of_lt hs hr)

theorem withdrawalPenalty_finite (h : c.Accepted) : isFinite c.withdrawalPenalty = true :=
  (h.parameters (.withdrawalPenalty, c.withdrawalPenalty) (by simp [Config.parameters])).1

theorem attributeChangePenalty_finite (h : c.Accepted) : isFinite c.attributeChangePenalty = true :=
  (h.parameters (.attributeChangePenalty, c.attributeChangePenalty) (by simp [Config.parameters])).1

theorem reuseThreshold_finite (h : c.Accepted) : isFinite c.reuseThreshold = true :=
  (h.parameters (.reuseThreshold, c.reuseThreshold) (by simp [Config.parameters])).1

theorem suppress_self [PenaltyOrder R] (h : c.Accepted) : c.suppressThreshold ≤ c.suppressThreshold :=
  PenaltyOrder.self_of_isFinite (h.parameters (.suppressThreshold, c.suppressThreshold) (by simp [Config.parameters])).1

theorem reuse_self [PenaltyOrder R] (h : c.Accepted) : c.reuseThreshold ≤ c.reuseThreshold :=
  PenaltyOrder.self_of_isFinite h.reuseThreshold_finite

theorem reuseThreshold_pos [PenaltyOrder R] (h : c.Accepted) : ofNat 0 < c.reuseThreshold :=
  PenaltyOrder.lt_of_not_le h.reuse_self PenaltyOrder.zero_le_zero h.reuse_pos

end Config.Accepted

/-- a damper is created from accepted parameters, and it starts without routes -/
theorem Damper.create_eq_ok_iff {c : Config R} {d : Damper R} :
    (create c).answer = .ok d ↔ c.Accepted ∧ d = ⟨c, .empty⟩ := by
  rw [← Config.check_eq_ok_iff]
  unfold create
  cases hcheck : c.check with
  | error e => simp [Outcome.silent]
  | ok u => simp [Outcome.silent, eq_comm]

end RoutingReplay.Damping
