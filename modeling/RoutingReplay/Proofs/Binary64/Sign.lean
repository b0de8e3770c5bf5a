/-
Signs of binary64 numbers.

The sign of a sum, a product or a quotient follows from the signs of its operands, also where the result overflows or
vanishes: rounding and packing never change a sign. So whether a number is negative is settled without any arithmetic,
and that it is a number at all is settled on the way.
-/
import Mathlib
import RoutingReplay.Proofs.Binary64.Exact

namespace RoutingReplay.Binary64

open Float.Model
open UnpackedFloat (Sign unpackSign unpackExponent unpackMantissa packComponents roundWithAccuracy Accuracy)

/-- a number of a sign; zeros are of both signs, and NaN is of none -/
def Signed (s : Sign) : UnpackedFloat → Prop
  | .notANumber => False
  | .infinity t => t = s
  | .zero _ => True
  | .finite t _ _ _ => t = s

/-- a finite number other than zero -/
def Finite (s : Sign) (u : UnpackedFloat) : Prop := ∃ m e hm, u = .finite s m e hm

variable {s t : Sign} {u v : UnpackedFloat}

/-! ## Taking signs apart and putting them together -/

theorem signed_packComponents (s : Sign) {exponent : BitVec Format.binary64.exponentBits}
    (fraction : BitVec Format.binary64.mantissaBitsWithoutImplicit) (hexponent : exponent ≠ -1#_) :
    Signed s (UnpackedFloat.unpack Format.binary64 (packComponents Format.binary64 s exponent fraction)) := by
  simp only [UnpackedFloat.unpack, UnpackedFloat.unpackExponent_packComponents, unpackSign_packComponents, ofBitVec_toBitVec,
    hexponent, if_false]
  split_ifs
  · trivial
  · rfl
  · rfl

/-- Packing and unpacking keep a sign. -/
theorem signed_pack (hu : Signed s u) : Signed s (pack u).unpack := by
  cases u with
  | notANumber => cases hu
  | infinity t =>
    obtain rfl : t = s := hu
    cases t <;> rfl
  | zero t => cases t <;> trivial
  | finite t m e hm =>
    obtain rfl : t = s := hu
    change Signed t (UnpackedFloat.unpack Format.binary64 (UnpackedFloat.pack Format.binary64 (.finite t m e hm)))
    simp only [UnpackedFloat.pack]
    split_ifs with hrange
    · cases t <;> rfl
    · refine signed_packComponents t _ fun hall => ?_
      have hlast :
          (e + Format.binary64.exponentBias + Format.binary64.mantissaBitsWithoutImplicit).toNat % 2048 = 2047 :=
        congrArg BitVec.toNat hall
      have hlow :
          ¬ 2048 ≤ (e + Format.binary64.exponentBias + Format.binary64.mantissaBitsWithoutImplicit).toNat + 1 :=
        hrange
      omega
    · refine signed_packComponents t _ ?_
      decide

/-! ## Operations -/

theorem signed_roundWithAccuracy (s : Sign) (m : ℕ) (e : ℤ) (a : Accuracy) :
    Signed s (roundWithAccuracy Format.binary64 s m e a) := by
  simp only [roundWithAccuracy]
  split
  · trivial
  · rfl

theorem signed_neg (hu : Signed s u) : Signed (-s) u.neg := by
  cases u with
  | notANumber => cases hu
  | infinity t => exact congrArg Neg.neg hu
  | zero t => trivial
  | finite t m e hm => exact congrArg Neg.neg hu

theorem signed_normalize {s : Sign} {m : ℤ} (hm : 0 ≤ s.apply m) (e : ℤ) (zeroSign : Sign) :
    Signed s (UnpackedFloat.normalize Format.binary64 m e zeroSign) := by
  simp only [UnpackedFloat.normalize]
  cases hcompare : compare m 0 with
  | lt =>
    have hneg : m < 0 := compare_lt_iff_lt.mp hcompare
    cases s with
    | negative => exact signed_roundWithAccuracy _ _ _ _
    | positive => exact absurd hm (not_le_of_gt hneg)
  | eq => trivial
  | gt =>
    have hpos : 0 < m := compare_gt_iff_gt.mp hcompare
    cases s with
    | negative => exact absurd hm (not_le_of_gt (Int.neg_neg_of_pos hpos))
    | positive => exact signed_roundWithAccuracy _ _ _ _

theorem apply_sum_nonneg (s : Sign) (m n : ℕ) : 0 ≤ s.apply (s.apply m + s.apply n) := by
  cases s <;> simp only [Sign.apply] <;> omega

/-- Numbers of one sign add up to a number of that sign. -/
theorem signed_add (hu : Signed s u) (hv : Signed s v) : Signed s (UnpackedFloat.add Format.binary64 u v) := by
  cases u with
  | notANumber => cases hu
  | infinity t =>
    obtain rfl : t = s := hu
    cases v with
    | notANumber => cases hv
    | infinity t' =>
      obtain rfl : t' = t := hv
      cases t' <;> rfl
    | zero t' => rfl
    | finite t' n f hn => rfl
  | zero t =>
    cases v with
    | notANumber => cases hv
    | infinity t' => exact hv
    | zero t' =>
      simp only [UnpackedFloat.add]
      split_ifs <;> trivial
    | finite t' n f hn => exact hv
  | finite t m e hm =>
    obtain rfl : t = s := hu
    cases v with
    | notANumber => cases hv
    | infinity t' => exact hv
    | zero t' => rfl
    | finite t' n f hn =>
      obtain rfl : t' = t := hv
      exact signed_normalize (apply_sum_nonneg t' _ _) _ _

/-- A number times a finite one that is not zero is a number, of the sign that the two signs make. -/
theorem signed_mul (hu : Finite s u) (hv : Signed t v) : Signed (s * t) (UnpackedFloat.mul Format.binary64 u v) := by
  obtain ⟨m, e, hm, rfl⟩ := hu
  cases v with
  | notANumber => cases hv
  | infinity t' => exact congrArg (s * ·) hv
  | zero t' => trivial
  | finite t' n f hn =>
    obtain rfl : t' = t := hv
    exact signed_roundWithAccuracy _ _ _ _

/-- A number divided by a finite one that is not zero is a number, of the sign that the two signs make. -/
theorem signed_div (hu : Signed s u) (hv : Finite t v) : Signed (s / t) (UnpackedFloat.div Format.binary64 u v) := by
  obtain ⟨n, f, hn, rfl⟩ := hv
  cases u with
  | notANumber => cases hu
  | infinity t' => exact congrArg (· / t) hu
  | zero t' => trivial
  | finite t' m e hm =>
    obtain rfl : t' = s := hu
    exact signed_roundWithAccuracy _ _ _ _

section

variable {x y : Float}

theorem signed_add_float (hx : Signed s x.toModel.unpack) (hy : Signed s y.toModel.unpack) :
    Signed s (x + y).toModel.unpack :=
  signed_pack (signed_add hx hy)

theorem signed_neg_float (hx : Signed s x.toModel.unpack) : Signed (-s) (-x).toModel.unpack :=
  signed_pack (signed_neg hx)

theorem signed_mul_float (hx : Finite s x.toModel.unpack) (hy : Signed t y.toModel.unpack) :
    Signed (s * t) (x * y).toModel.unpack :=
  signed_pack (signed_mul hx hy)

theorem signed_div_float (hx : Signed s x.toModel.unpack) (hy : Finite t y.toModel.unpack) :
    Signed (s / t) (x / y).toModel.unpack :=
  signed_pack (signed_div hx hy)

/-- infinity times a positive number is infinity -/
theorem infinity_mul (hx : Finite .positive x.toModel.unpack) (hy : y.toModel.unpack = .infinity .positive) :
    (x * y).toModel.unpack = .infinity .positive := by
  obtain ⟨m, e, hm, hx⟩ := hx
  have hproduct : UnpackedFloat.mul Format.binary64 x.toModel.unpack y.toModel.unpack = .infinity .positive := by
    rw [hx, hy]
    rfl
  change (pack (UnpackedFloat.mul Format.binary64 x.toModel.unpack y.toModel.unpack)).unpack = _
  rw [hproduct]
  rfl

end

/-! ## Comparisons with zero -/

theorem rank_zero : rank (0 : Float).toModel.unpack = some (toLex (0, toLex (0, 0))) := by rfl

theorem zero_le_iff {x : Float} : PenaltyArithmetic.ofNat 0 ≤ x ↔ Signed .positive x.toModel.unpack := by
  change 0 ≤ x ↔ _
  rw [le_iff, rank_zero]
  cases x.toModel.unpack with
  | notANumber => simp [rank, Signed]
  | infinity t => cases t <;> simp [rank, Signed, Prod.Lex.toLex_le_toLex]
  | zero t => simp [rank, Signed]
  | finite t m e hm => cases t <;> simp [rank, Signed, Prod.Lex.toLex_le_toLex]

theorem le_zero_iff {x : Float} : x ≤ PenaltyArithmetic.ofNat 0 ↔ Signed .negative x.toModel.unpack := by
  change x ≤ 0 ↔ _
  rw [le_iff, rank_zero]
  cases x.toModel.unpack with
  | notANumber => simp [rank, Signed]
  | infinity t => cases t <;> simp [rank, Signed, Prod.Lex.toLex_le_toLex]
  | zero t => simp [rank, Signed]
  | finite t m e hm => cases t <;> simp [rank, Signed, Prod.Lex.toLex_le_toLex]

/-- Infinity is at least any number. -/
theorem le_infinity {x y : Float} (hy : y ≤ y) (hx : x.toModel.unpack = .infinity .positive) : y ≤ x := by
  obtain ⟨r, -, hr, -, -⟩ := le_iff.mp hy
  rw [le_iff, hx]
  refine ⟨r, _, hr, rfl, ?_⟩
  revert hr
  cases y.toModel.unpack with
  | notANumber =>
    intro hr
    cases hr
  | infinity t =>
    intro hr
    cases t <;> obtain rfl := Option.some.inj hr <;> simp [Prod.Lex.toLex_le_toLex]
  | zero t =>
    intro hr
    obtain rfl := Option.some.inj hr
    simp [Prod.Lex.toLex_le_toLex]
  | finite t m e hm =>
    intro hr
    cases t <;> obtain rfl := Option.some.inj hr <;> simp [Prod.Lex.toLex_le_toLex]

end RoutingReplay.Binary64
