/-
Signs of penalties, and factors between zero and one.

`PenaltySigns` collects what has to be known of single operations of the arithmetic: the signs of whole numbers, sums,
quotients and powers, that a factor between zero and one makes nothing larger, and that a power whose exponent is not
positive is such a factor. A product need not be a number, as infinity times zero is none; the larger of it and zero is
zero then.

From that follows that time only lowers a penalty (`decay_le`), and that the ceiling of accepted parameters is a number
(`Config.Accepted.ceiling_isNumber`), though it may be infinite.
-/
import RoutingReplay.Proofs.Damping.Ceiling

namespace RoutingReplay.Damping

open PenaltyArithmetic

/-- the signs of results, and the factors that make nothing larger -/
class PenaltySigns (R : Type) [PenaltyArithmetic R] : Prop where
  ofNat_nonneg : ∀ n : ℕ, (ofNat 0 : R) ≤ ofNat n
  ofNat_pos : ∀ {n : ℕ}, n ≠ 0 → n < 2 ^ 64 → isFinite (ofNat n : R) = true ∧ (ofNat 0 : R) < ofNat n
  neg_nonpos : ∀ {a : R}, ofNat 0 ≤ a → -a ≤ ofNat 0
  add_nonneg : ∀ {a b : R}, ofNat 0 ≤ a → ofNat 0 ≤ b → ofNat 0 ≤ a + b
  div_nonneg : ∀ {a b : R}, ofNat 0 ≤ a → isFinite b = true → ofNat 0 < b → ofNat 0 ≤ a / b
  div_nonpos : ∀ {a b : R}, a ≤ ofNat 0 → isFinite b = true → ofNat 0 < b → a / b ≤ ofNat 0
  mul_nonneg : ∀ {a b : R}, isFinite a = true → ofNat 0 < a → ofNat 0 ≤ b → ofNat 0 ≤ a * b
  /-- if the product is a number at all -/
  mul_le_left : ∀ {a x : R}, ofNat 0 ≤ a → ofNat 0 ≤ x → x ≤ ofNat 1 → a * x ≤ a * x → a * x ≤ a
  exp2_nonneg : ∀ {x : R}, ofNat 0 ≤ x → ofNat 0 ≤ exp2 x
  exp2_le_one : ∀ {x : R}, x ≤ ofNat 0 → ofNat 0 ≤ exp2 x ∧ exp2 x ≤ ofNat 1

variable {R : Type} [PenaltyArithmetic R] [PenaltySigns R]

/-- a half-life other than zero can be divided by -/
theorem halfLife_pos {halfLife : UInt32} (hlife : halfLife ≠ 0) :
    isFinite (ofNat halfLife.toNat : R) = true ∧ (ofNat 0 : R) < ofNat halfLife.toNat := by
  have hne : halfLife.toNat ≠ 0 := fun h => hlife (UInt32.toNat_inj.mp h)
  have hlt : halfLife.toNat < 2 ^ 32 := halfLife.toNat_lt
  exact PenaltySigns.ofNat_pos hne (by omega)

theorem zero_le_seconds (d : Duration) : (ofNat 0 : R) ≤ seconds d := by
  obtain ⟨hfinite, hpos⟩ : isFinite (ofNat 1000000000 : R) = true ∧ (ofNat 0 : R) < ofNat 1000000000 :=
    PenaltySigns.ofNat_pos (by norm_num) (by norm_num)
  have hfraction : (ofNat 0 : R) ≤ ofNat d.subsecond / ofNat 1000000000 :=
    PenaltySigns.div_nonneg (PenaltySigns.ofNat_nonneg _) hfinite hpos
  exact PenaltySigns.add_nonneg (PenaltySigns.ofNat_nonneg _) hfraction

/-- the factor of a decay lies between zero and one -/
theorem decay_factor (d : Duration) {halfLife : UInt32} (hlife : halfLife ≠ 0) :
    (ofNat 0 : R) ≤ exp2 (-seconds d / ofNat halfLife.toNat) ∧
      exp2 (-seconds d / ofNat halfLife.toNat) ≤ (ofNat 1 : R) := by
  obtain ⟨hfinite, hpos⟩ : isFinite (ofNat halfLife.toNat : R) = true ∧ (ofNat 0 : R) < ofNat halfLife.toNat :=
    halfLife_pos hlife
  have hseconds : -(seconds d : R) ≤ ofNat 0 := PenaltySigns.neg_nonpos (zero_le_seconds d)
  exact PenaltySigns.exp2_le_one (PenaltySigns.div_nonpos hseconds hfinite hpos)

variable [PenaltyOrder R]

/-- **Time only lowers a penalty.** -/
theorem decay_le {p : R} (d : Duration) {halfLife : UInt32} (hlife : halfLife ≠ 0) (hp : ofNat 0 ≤ p) :
    decay p d halfLife ≤ p := by
  obtain ⟨hnonneg, hone⟩ := decay_factor (R := R) d hlife
  unfold decay
  rcases larger_zero_cases (p * exp2 (-seconds d / ofNat halfLife.toNat)) with hzero | hpos
  · rw [hzero]
    exact hp
  · -- the product is a number, since it is the larger one
    have hself : larger (p * exp2 (-seconds d / ofNat halfLife.toNat)) (ofNat 0) =
        p * exp2 (-seconds d / ofNat halfLife.toNat) := by
      refine (larger_eq_or _ _).resolve_left fun hzero => ?_
      rw [hzero] at hpos
      exact (PenaltyOrder.lt_iff.mp hpos).2 PenaltyOrder.zero_le_zero
    rw [hself] at hpos ⊢
    have hnumber := (PenaltyOrder.self_of_le (PenaltyOrder.lt_iff.mp hpos).1).2
    exact PenaltySigns.mul_le_left hp hnonneg hone hnumber

theorem boundedDecay : BoundedDecay R where
  decay_le := fun d hlife hp => decay_le d hlife hp
  add_nonneg := PenaltySigns.add_nonneg

/-- The ceiling of accepted parameters is a number. -/
theorem Config.Accepted.ceiling_isNumber {c : Config R} (hc : c.Accepted) : c.ceiling ≤ c.ceiling := by
  obtain ⟨hfinite, hpos⟩ : isFinite (ofNat c.halfLife.toNat : R) = true ∧ (ofNat 0 : R) < ofNat c.halfLife.toNat :=
    halfLife_pos hc.halfLife_ne
  have hexponent : (ofNat 0 : R) ≤ ofNat c.maxSuppressTime.toNat / ofNat c.halfLife.toNat :=
    PenaltySigns.div_nonneg (PenaltySigns.ofNat_nonneg _) hfinite hpos
  have hceiling : ofNat 0 ≤ c.ceiling :=
    PenaltySigns.mul_nonneg hc.reuseThreshold_finite hc.reuseThreshold_pos (PenaltySigns.exp2_nonneg hexponent)
  exact (PenaltyOrder.self_of_le hceiling).2

end RoutingReplay.Damping
