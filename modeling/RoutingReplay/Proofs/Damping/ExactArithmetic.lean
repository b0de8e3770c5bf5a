/-
The damping engine over the real numbers.

Powers and logarithms are the real functions here and nothing is rounded, so what is proved of this engine is true of
the formulas themselves. Decay composes: a penalty that decays in two steps ends up where it does in one
(`decay_decay`). And the time in which it decays to a threshold is a logarithm (`le_decay_iff`). Only a time that is
handed out is rounded, to the nearest whole nanosecond (`nearestEven_spec`).
-/
import Mathlib
import RoutingReplay.Proofs.Damping.Ceiling

namespace RoutingReplay.Damping

open PenaltyArithmetic

/-- the whole number nearest to a real number that is not negative, ties to even -/
noncomputable def nearestEven (x : ℝ) : ℕ :=
  if Int.fract x < 1 / 2 then ⌊x⌋₊ else if 1 / 2 < Int.fract x then ⌊x⌋₊ + 1 else ⌊x⌋₊ + ⌊x⌋₊ % 2

/-- a whole number that is as near to a real number as any, and even if another one is as near -/
structure NearestEven (x : ℝ) (n : ℕ) : Prop where
  near : |(n : ℝ) - x| ≤ 1 / 2
  even_of_tie : |(n : ℝ) - x| = 1 / 2 → Even n

theorem nearestEven_spec {x : ℝ} (hx : 0 ≤ x) : NearestEven x (nearestEven x) := by
  have hparts : (⌊x⌋₊ : ℝ) + Int.fract x = x := by
    rw [natCast_floor_eq_intCast_floor hx]
    exact Int.floor_add_fract x
  have hfract : 0 ≤ Int.fract x := Int.fract_nonneg x
  have hlt : Int.fract x < 1 := Int.fract_lt_one x
  unfold nearestEven
  split_ifs with hbelow habove
  · have hdist : |(⌊x⌋₊ : ℝ) - x| = Int.fract x := by
      rw [abs_sub_comm, abs_of_nonneg] <;> linarith
    rw [← hdist] at hbelow
    exact ⟨hbelow.le, fun htie => absurd htie hbelow.ne⟩
  · have hdist : |((⌊x⌋₊ + 1 : ℕ) : ℝ) - x| = 1 - Int.fract x := by
      push_cast
      rw [abs_of_nonneg] <;> linarith
    have hnear : |((⌊x⌋₊ + 1 : ℕ) : ℝ) - x| < 1 / 2 := by linarith
    exact ⟨hnear.le, fun htie => absurd htie hnear.ne⟩
  · -- in the middle: an odd floor goes up to the next number
    have hmiddle : Int.fract x = 1 / 2 := le_antisymm (not_lt.mp habove) (not_lt.mp hbelow)
    refine ⟨?_, fun _ => Nat.even_iff.mpr (by omega)⟩
    rcases Nat.mod_two_eq_zero_or_one ⌊x⌋₊ with hmod | hmod <;> rw [hmod, abs_le] <;> push_cast <;>
      constructor <;> linarith

/-- rounding does not go past a whole number -/
theorem NearestEven.le_of_le {x : ℝ} {n m : ℕ} (h : NearestEven x n) (hle : x ≤ m) : n ≤ m := by
  have hnear := (abs_le.mp h.near).2
  have hlt : (n : ℝ) < (m + 1 : ℕ) := by
    push_cast
    linarith
  exact Nat.lt_succ_iff.mp (Nat.cast_lt.mp hlt)

noncomputable instance : PenaltyArithmetic ℝ where
  decide_le _ _ := Classical.propDecidable _
  decide_lt _ _ := Classical.propDecidable _
  ofNat n := n
  exp2 x := 2 ^ x
  log2 x := Real.logb 2 x
  isFinite _ := true
  nanoseconds? x := if 0 ≤ x ∧ x < 2 ^ 64 then some (nearestEven (x * 10 ^ 9)) else none

theorem ofNat_eq (n : ℕ) : (ofNat n : ℝ) = n := rfl

theorem ofNat_zero : (ofNat 0 : ℝ) = 0 := Nat.cast_zero

theorem larger_eq_max (a b : ℝ) : larger a b = max a b := by
  unfold larger
  split_ifs with hle hself
  · exact (max_eq_right hle).symm
  · exact (max_eq_left (le_of_not_ge hle)).symm
  · exact absurd le_rfl hself

instance : PenaltyOrder ℝ where
  zero_le_zero := le_rfl
  self_of_isFinite := fun _ => le_rfl
  self_of_le := fun _ => ⟨le_rfl, le_rfl⟩
  le_trans := fun hab hbc => hab.trans hbc
  le_total := fun {a b} _ _ => le_total a b
  lt_iff := lt_iff_le_not_ge
  add_self := fun _ _ => le_rfl

/-- a duration in seconds is its nanoseconds over a billion -/
theorem seconds_eq (d : Duration) : (seconds d : ℝ) = d.nanos / 10 ^ 9 := by
  have hparts : 1000000000 * (d.nanos / 1000000000) + d.nanos % 1000000000 = d.nanos := Nat.div_add_mod _ _
  have hreal : (1000000000 : ℝ) * ((d.nanos / 1000000000 : ℕ) : ℝ) + ((d.nanos % 1000000000 : ℕ) : ℝ) = d.nanos := by
    exact_mod_cast hparts
  simp only [seconds, Duration.seconds, Duration.subsecond, ofNat_eq]
  field_simp
  push_cast at hreal ⊢
  linarith

/-! ## Decay -/

variable {p r : ℝ} {halfLife : UInt32}

theorem decay_eq (hp : 0 ≤ p) (d : Duration) (halfLife : UInt32) :
    decay p d halfLife = p * 2 ^ (-(seconds d : ℝ) / halfLife.toNat) := by
  have hnonneg : 0 ≤ p * (2 : ℝ) ^ (-(seconds d : ℝ) / halfLife.toNat) := by positivity
  rw [decay, larger_eq_max, ofNat_zero]
  exact max_eq_left hnonneg

/-- A penalty that decays in two steps ends up where it does in one. -/
theorem decay_decay (hp : 0 ≤ p) (d d' : Duration) (halfLife : UInt32) :
    decay (decay p d halfLife) d' halfLife = decay p ⟨d.nanos + d'.nanos⟩ halfLife := by
  have hexponent : -(seconds ⟨d.nanos + d'.nanos⟩ : ℝ) / halfLife.toNat =
      -(seconds d : ℝ) / halfLife.toNat + -(seconds d' : ℝ) / halfLife.toNat := by
    simp only [seconds_eq, Nat.cast_add]
    ring
  have hmiddle : 0 ≤ decay p d halfLife := by
    rw [decay_eq hp]
    positivity
  calc decay (decay p d halfLife) d' halfLife
      = decay p d halfLife * 2 ^ (-(seconds d' : ℝ) / halfLife.toNat) := decay_eq hmiddle _ _
    _ = p * (2 ^ (-(seconds d : ℝ) / halfLife.toNat) * 2 ^ (-(seconds d' : ℝ) / halfLife.toNat)) := by
        rw [decay_eq hp, mul_assoc]
    _ = p * 2 ^ (-(seconds ⟨d.nanos + d'.nanos⟩ : ℝ) / halfLife.toNat) := by
        rw [hexponent, Real.rpow_add two_pos]
    _ = decay p ⟨d.nanos + d'.nanos⟩ halfLife := (decay_eq hp _ _).symm

theorem seconds_nonneg (d : Duration) : 0 ≤ (seconds d : ℝ) := by
  rw [seconds_eq]
  positivity

instance : BoundedDecay ℝ where
  decay_le := by
    intro p halfLife d _ hp
    rw [ofNat_zero] at hp
    have hexponent : -(seconds d : ℝ) / halfLife.toNat ≤ 0 :=
      div_nonpos_of_nonpos_of_nonneg (neg_nonpos.mpr (seconds_nonneg d)) (Nat.cast_nonneg _)
    rw [decay_eq hp]
    exact mul_le_of_le_one_right hp (Real.rpow_le_one_of_one_le_of_nonpos one_le_two hexponent)
  add_nonneg := by
    intro a b ha hb
    rw [ofNat_zero] at ha hb ⊢
    exact add_nonneg ha hb

instance : IdleDecay ℝ where
  decay_idle := by
    intro p halfLife _ hp
    have hp' : 0 ≤ p := by
      rcases hp with rfl | hpos
      · exact ofNat_zero.ge
      · exact ofNat_zero.symm.le.trans hpos.le
    simp [decay_eq hp', seconds_eq]

/-- The time in which a penalty decays to a threshold is a logarithm. -/
theorem le_decay_iff (hr : 0 < r) (hp : 0 < p) (hlife : halfLife ≠ 0) (d : Duration) :
    r ≤ decay p d halfLife ↔ (seconds d : ℝ) ≤ halfLife.toNat * Real.logb 2 (p / r) := by
  have hlife' : (0 : ℝ) < halfLife.toNat :=
    Nat.cast_pos.mpr (Nat.pos_of_ne_zero fun h => hlife (UInt32.toNat_inj.mp h))
  have hpower : (0 : ℝ) < 2 ^ ((seconds d : ℝ) / halfLife.toNat) := by positivity
  calc r ≤ decay p d halfLife
      ↔ r ≤ p / 2 ^ ((seconds d : ℝ) / halfLife.toNat) := by
        rw [decay_eq hp.le, neg_div, Real.rpow_neg two_pos.le, ← div_eq_mul_inv]
    _ ↔ 2 ^ ((seconds d : ℝ) / halfLife.toNat) ≤ p / r := by
        rw [le_div_iff₀ hpower, le_div_iff₀ hr, mul_comm]
    _ ↔ (seconds d : ℝ) / halfLife.toNat ≤ Real.logb 2 (p / r) :=
        (Real.le_logb_iff_rpow_le one_lt_two (div_pos hp hr)).symm
    _ ↔ (seconds d : ℝ) ≤ halfLife.toNat * Real.logb 2 (p / r) := by
        rw [div_le_iff₀ hlife', mul_comm]

end RoutingReplay.Damping
