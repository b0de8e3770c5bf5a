/-
Finite numbers that are not negative, as rational numbers.

`Magnitude x q` says that `x` is such a number and that its value is `q`. Comparisons compare the values, and a product
or a quotient whose exact value is at most some number of the format is again such a number, and at most that one.

The last section is about overflow. A finite product may exceed its exact value, but not by so much that it could not be
divided by one of its factors again (`Magnitude.mul_le_largest`): if the other factor is at most the largest finite
number, the exact product falls short of the factor times `2 ^ 1024` by more than half a last place.
-/
import Mathlib
import RoutingReplay.Proofs.Binary64.Rounding

namespace RoutingReplay.Binary64

open Float.Model
open UnpackedFloat (Sign ExtendedMantissa Accuracy roundWithAccuracy unpackSign unpackExponent unpackMantissa)

/-- a finite number of a sign, and how large it is -/
def Measures (s : Sign) (u : UnpackedFloat) (q : ℚ) : Prop :=
  (∃ t, u = .zero t ∧ q = 0) ∨ ∃ m e hm, u = .finite s m e hm ∧ q = m * 2 ^ e

/-- a finite number that is not negative, and its value -/
def Magnitude (x : Float) (q : ℚ) : Prop := Measures .positive x.toModel.unpack q

variable {s : Sign} {u : UnpackedFloat} {x y z : Float} {p q w : ℚ}

theorem Measures.nonneg (h : Measures s u q) : 0 ≤ q := by
  rcases h with ⟨t, -, rfl⟩ | ⟨m, e, hm, -, rfl⟩
  · exact le_rfl
  · positivity

theorem Measures.signed (h : Measures s u q) : Signed s u := by
  rcases h with ⟨t, rfl, -⟩ | ⟨m, e, hm, rfl, -⟩
  · trivial
  · rfl

/-- the two forms of a finite number that is not negative -/
theorem Magnitude.zero_or_fits (h : Magnitude x q) :
    (∃ t, x.toModel.unpack = .zero t ∧ q = 0) ∨
      ∃ m e hm, x.toModel.unpack = .finite .positive m e hm ∧ Fits m e ∧ q = m * 2 ^ e := by
  rcases h with hzero | ⟨m, e, hm, hx, hq⟩
  · exact Or.inl hzero
  · exact Or.inr ⟨m, e, hm, hx, fits_of_unpack hx, hq⟩

theorem Magnitude.zero_le (h : Magnitude x q) : PenaltyArithmetic.ofNat 0 ≤ x := zero_le_iff.mpr h.signed

/-! ## What is finite -/

def isNegative : Sign → Bool
  | .negative => true
  | .positive => false

theorem toNat_unpackMantissa (b : Bits) : (@unpackMantissa Format.binary64 b).toNat = b.toNat % pow2 52 := by
  simp only [unpackMantissa, BitVec.toNat_cast, BitVec.extractLsb_toNat, Nat.shiftRight_eq_div_pow]
  change b.toNat / 1 % _ = _
  rw [Nat.div_one]
  rfl

theorem isNegative_unpackSign (b : Bits) :
    isNegative (Sign.ofBitVec (@unpackSign Format.binary64 b)) = decide (pow2 63 ≤ b.toNat) := by
  have hpow : pow2 63 = 9223372036854775808 := rfl
  have hlt : b.toNat < 18446744073709551616 := b.isLt
  have hbit : (@unpackSign Format.binary64 b).toNat = b.toNat / 9223372036854775808 % 2 := by
    simp only [unpackSign, BitVec.toNat_cast, BitVec.extractLsb_toNat, Nat.shiftRight_eq_div_pow]
  rw [hpow, Sign.ofBitVec]
  split_ifs with hzero
  · rw [hzero] at hbit
    have hpositive : 0 = b.toNat / 9223372036854775808 % 2 := hbit
    have hsmall : ¬ 9223372036854775808 ≤ b.toNat := by omega
    rw [decide_eq_false hsmall]
    rfl
  · have hne : (@unpackSign Format.binary64 b).toNat ≠ 0 := fun h => hzero (BitVec.eq_of_toNat_eq h)
    have hlarge : 9223372036854775808 ≤ b.toNat := by omega
    rw [decide_eq_true hlarge]
    rfl

/-- The exact value of a number, read off its parts. -/
theorem toDyadic?_eq (x : Float) : toDyadic? x =
    match x.toModel.unpack with
    | .zero s => some ⟨isNegative s, 0, -1074⟩
    | .finite s m e _ => some ⟨isNegative s, m, e⟩
    | .infinity _ | .notANumber => none := by
  set b : Bits := x.toModel.toBits.toBitVec with hb
  have hexponent := toNat_unpackExponent b
  have hfraction := toNat_unpackMantissa b
  have hsign := isNegative_unpackSign b
  have hbias := bias_eq
  have hbits : x.toBits.toNat = b.toNat := rfl
  have hunpack : x.toModel.unpack = UnpackedFloat.unpack Format.binary64 b := rfl
  simp only [toDyadic?, hbits, ← hexponent, ← hfraction, ← hsign, hunpack, UnpackedFloat.unpack, hbias]
  by_cases hall : @unpackExponent Format.binary64 b = -1#_
  · have hlast : (@unpackExponent Format.binary64 b).toNat = 2047 := congrArg BitVec.toNat hall
    rw [if_pos hlast, if_pos hall]
    split_ifs <;> rfl
  · have hlast : (@unpackExponent Format.binary64 b).toNat ≠ 2047 := fun h => hall (BitVec.eq_of_toNat_eq h)
    rw [if_neg hlast, if_neg hall]
    by_cases hzero : @unpackExponent Format.binary64 b = 0#_
    · have hfirst : (@unpackExponent Format.binary64 b).toNat = 0 := congrArg BitVec.toNat hzero
      rw [if_pos hfirst, if_pos hzero, hfirst]
      by_cases hnone : @unpackMantissa Format.binary64 b = 0#_
      · rw [dif_pos hnone, hnone]
        rfl
      · rw [dif_neg hnone]
        rfl
    · have hfirst : (@unpackExponent Format.binary64 b).toNat ≠ 0 := fun h => hzero (BitVec.eq_of_toNat_eq h)
      rw [if_neg hfirst, if_neg hzero]
      exact congrArg (fun m => some (Dyadic.mk _ m _)) (toNat_one_append _).symm

/-- A number is finite if it is neither infinite nor NaN. -/
theorem isFinite_iff {x : Float} : PenaltyArithmetic.isFinite x = true ↔
    (∃ s, x.toModel.unpack = .zero s) ∨ ∃ s m e hm, x.toModel.unpack = .finite s m e hm := by
  change (toDyadic? x).isSome = true ↔ _
  rw [toDyadic?_eq]
  cases x.toModel.unpack with
  | notANumber => simp
  | infinity s => simp
  | zero s => simp
  | finite s m e hm => exact ⟨fun _ => Or.inr ⟨s, m, e, hm, rfl⟩, fun _ => rfl⟩

theorem Magnitude.isFinite (h : Magnitude x q) : PenaltyArithmetic.isFinite x = true := by
  rcases h with ⟨t, hx, -⟩ | ⟨m, e, hm, hx, -⟩
  · exact isFinite_iff.mpr (Or.inl ⟨t, hx⟩)
  · exact isFinite_iff.mpr (Or.inr ⟨_, m, e, hm, hx⟩)

/-- a finite number that is not negative has a value -/
theorem exists_magnitude (hfinite : PenaltyArithmetic.isFinite x = true) (hnonneg : PenaltyArithmetic.ofNat 0 ≤ x) :
    ∃ q, Magnitude x q := by
  have hsigned := zero_le_iff.mp hnonneg
  rcases isFinite_iff.mp hfinite with ⟨s, hx⟩ | ⟨s, m, e, hm, hx⟩
  · exact ⟨0, Or.inl ⟨s, hx, rfl⟩⟩
  · rw [hx] at hsigned
    obtain rfl : s = .positive := hsigned
    exact ⟨_, Or.inr ⟨m, e, hm, hx, rfl⟩⟩

/-- a number with a sign that is not finite is infinite -/
theorem infinity_of_signed (hx : Signed s x.toModel.unpack) (hnot : PenaltyArithmetic.isFinite x = false) :
    x.toModel.unpack = .infinity s := by
  have hfinite := (isFinite_iff (x := x)).not.mp (by rw [hnot]; exact Bool.false_ne_true)
  cases hu : x.toModel.unpack with
  | notANumber =>
    rw [hu] at hx
    cases hx
  | infinity t =>
    rw [hu] at hx
    exact congrArg _ hx
  | zero t => exact absurd (Or.inl ⟨t, hu⟩) hfinite
  | finite t m e hm => exact absurd (Or.inr ⟨t, m, e, hm, hu⟩) hfinite

/-- a finite number above zero -/
theorem finite_of_pos (hfinite : PenaltyArithmetic.isFinite x = true) (hpos : PenaltyArithmetic.ofNat 0 < x) :
    Finite .positive x.toModel.unpack := by
  obtain ⟨hle, hnot⟩ := Damping.PenaltyOrder.lt_iff.mp hpos
  obtain ⟨q, hq⟩ := exists_magnitude hfinite hle
  rcases hq.zero_or_fits with ⟨t, hu, -⟩ | ⟨m, e, hm, hu, -, -⟩
  · refine absurd (le_zero_iff.mpr ?_) hnot
    rw [hu]
    trivial
  · exact ⟨m, e, hm, hu⟩

/-! ## Comparisons -/

/-- a larger exponent makes a larger number -/
theorem value_lt_of_exponent_lt {m n : ℕ} {e f : ℤ} (hm : Canonical m e) (hn : Canonical n f) (hlt : e < f) :
    (m : ℚ) * 2 ^ e < n * 2 ^ f := by
  have hn' : 2 ^ 52 ≤ n := by
    have := hm.2.1
    have := hn.2.2
    omega
  calc (m : ℚ) * 2 ^ e < 2 ^ 53 * 2 ^ e := mul_lt_mul_of_pos_right (by exact_mod_cast hm.1) (by positivity)
    _ = 2 ^ 52 * 2 ^ (e + 1) := by rw [zpow_add₀ two_ne_zero]; norm_num; ring
    _ ≤ 2 ^ 52 * 2 ^ f := mul_le_mul_of_nonneg_left (zpow_le_zpow_right₀ one_le_two hlt) (by positivity)
    _ ≤ n * 2 ^ f := mul_le_mul_of_nonneg_right (by exact_mod_cast hn') (by positivity)

/-- Exponents first and significands then order numbers as their values do. -/
theorem toLex_le_iff {m n : ℕ} {e f : ℤ} (hm : Canonical m e) (hn : Canonical n f) :
    toLex (e, (m : ℤ)) ≤ toLex (f, (n : ℤ)) ↔ (m : ℚ) * 2 ^ e ≤ n * 2 ^ f := by
  rw [Prod.Lex.toLex_le_toLex]
  rcases lt_trichotomy e f with hlt | rfl | hgt
  · simp [hlt, (value_lt_of_exponent_lt hm hn hlt).le]
  · have hpos : (0 : ℚ) < 2 ^ e := by positivity
    simp [mul_le_mul_iff_left₀ hpos]
  · simp [hgt.not_gt, hgt.ne', (value_lt_of_exponent_lt hn hm hgt).not_ge]

/-- Numbers compare as their values do. -/
theorem Magnitude.le_iff (hx : Magnitude x p) (hy : Magnitude y q) : x ≤ y ↔ p ≤ q := by
  rw [Binary64.le_iff]
  rcases hx.zero_or_fits with ⟨s, hux, rfl⟩ | ⟨m, e, hm, hux, hfits, rfl⟩
  · have hnonneg : 0 ≤ q := hy.nonneg
    rcases hy.zero_or_fits with ⟨t, huy, rfl⟩ | ⟨n, f, hn, huy, -, rfl⟩
    · simp [hux, huy, rank]
    · simp [hux, huy, rank, Prod.Lex.toLex_le_toLex, hnonneg]
  · have hpos : (0 : ℚ) < m * 2 ^ e := by positivity
    rcases hy.zero_or_fits with ⟨t, huy, rfl⟩ | ⟨n, f, hn, huy, hfits', rfl⟩
    · simp [hux, huy, rank, Prod.Lex.toLex_le_toLex, hpos.not_ge]
    · have hlex := toLex_le_iff hfits.canonical hfits'.canonical
      rw [hux, huy]
      simpa [rank, Prod.Lex.toLex_le_toLex] using hlex

/-- what is between zero and a finite number is finite -/
theorem exists_magnitude_of_le (hnonneg : PenaltyArithmetic.ofNat 0 ≤ x) (hle : x ≤ y) (hy : Magnitude y q) :
    ∃ p ≤ q, Magnitude x p := by
  have hsigned := zero_le_iff.mp hnonneg
  have hfinite : PenaltyArithmetic.isFinite x = true := by
    rw [isFinite_iff]
    cases hx : x.toModel.unpack with
    | notANumber =>
      rw [hx] at hsigned
      cases hsigned
    | infinity s =>
      rw [hx] at hsigned
      obtain rfl : s = .positive := hsigned
      rw [Binary64.le_iff, hx] at hle
      rcases hy with ⟨t, hy, -⟩ | ⟨n, f, hn, hy, -⟩
      · simp [hy, rank, Prod.Lex.toLex_le_toLex] at hle
      · simp [hy, rank, Prod.Lex.toLex_le_toLex] at hle
    | zero s => exact Or.inl ⟨s, rfl⟩
    | finite s m e hm => exact Or.inr ⟨s, m, e, hm, rfl⟩
  obtain ⟨p, hp⟩ := exists_magnitude hfinite hnonneg
  exact ⟨p, (hp.le_iff hy).mp hle, hp⟩

/-! ## Products and quotients -/

/-- a number that an exact value, which is not negative, rounds to -/
def RoundsTo (v : ℚ) (z : Float) : Prop :=
  (v = 0 ∧ Magnitude z 0) ∨ 0 < v ∧ ∃ u r t, Rounded .positive v u r t ∧ z.toModel.unpack = (pack u).unpack

theorem measures_pack_zero (s t : Sign) : Measures s (pack (.zero t)).unpack 0 :=
  Or.inl ⟨t, by cases t <;> rfl, rfl⟩

/-- A rounded value fits if the exact one is at most a number of the format. -/
theorem Rounded.measures_pack {v : ℚ} {r : ℕ} {t : ℤ} (h : Rounded s v u r t) {m : ℕ} {e : ℤ} (hfits : Fits m e)
    (hle : v ≤ m * 2 ^ e) : Measures s (pack u).unpack (r * 2 ^ t) := by
  rcases h.shape with ⟨rfl, rfl⟩ | ⟨n, f, hn, rfl, hcanonical, hvalue⟩
  · rw [Nat.cast_zero, zero_mul]
    exact measures_pack_zero s s
  · have hf : f ≤ 971 := by
      by_contra hlarge
      have hlt := value_lt_of_exponent_lt hfits.canonical hcanonical (by have := (fits_iff.mp hfits).2; omega)
      rw [hvalue] at hlt
      exact absurd (h.le hfits hle) (not_le_of_gt hlt)
    have hfits' : Fits n f := fits_iff.mpr ⟨hcanonical, hf⟩
    rw [unpack_pack_of_fits s hfits' hn]
    exact Or.inr ⟨n, f, hn, rfl, hvalue.symm⟩

/-- what is finite once it is packed is the rounded value -/
theorem Rounded.eq_of_pack {v : ℚ} {r : ℕ} {t : ℤ} (h : Rounded s v u r t) (hq : Measures s (pack u).unpack q) :
    q = r * 2 ^ t := by
  rcases h.shape with ⟨rfl, rfl⟩ | ⟨n, f, hn, rfl, hcanonical, hvalue⟩
  · have hzero : (pack (.zero s)).unpack = .zero s := by cases s <;> rfl
    rw [hzero] at hq
    rcases hq with ⟨t', -, rfl⟩ | ⟨m, e, hm, hu, -⟩
    · simp
    · cases hu
  · by_cases hf : f ≤ 971
    · rw [unpack_pack_of_fits s (fits_iff.mpr ⟨hcanonical, hf⟩) hn] at hq
      rcases hq with ⟨t', hu, -⟩ | ⟨m, e, hm, hu, rfl⟩
      · cases hu
      · obtain ⟨-, rfl, rfl⟩ := UnpackedFloat.finite.inj hu
        exact hvalue
    · rw [unpack_pack_of_overflow s (not_le.mp hf) hn] at hq
      rcases hq with ⟨t', hu, -⟩ | ⟨m, e, hm, hu, -⟩
      · cases hu
      · cases hu

theorem RoundsTo.exists_le_of_fits {v : ℚ} (h : RoundsTo v x) {m : ℕ} {e : ℤ} (hfits : Fits m e)
    (hle : v ≤ m * 2 ^ e) : ∃ q, q ≤ (m : ℚ) * 2 ^ e ∧ Magnitude x q := by
  rcases h with ⟨-, hzero⟩ | ⟨-, u, r, t, hrounded, hx⟩
  · exact ⟨0, by positivity, hzero⟩
  · refine ⟨r * 2 ^ t, hrounded.le hfits hle, ?_⟩
    rw [Magnitude, hx]
    exact hrounded.measures_pack hfits hle

/-- What is at most a number of the format rounds to a number that is. -/
theorem RoundsTo.exists_le {v : ℚ} (h : RoundsTo v x) (hz : Magnitude z w) (hle : v ≤ w) :
    ∃ q ≤ w, Magnitude x q := by
  rcases hz.zero_or_fits with ⟨s, -, rfl⟩ | ⟨m, e, hm, -, hfits, rfl⟩
  · rcases h with ⟨-, hzero⟩ | ⟨hpos, -⟩
    · exact ⟨0, le_rfl, hzero⟩
    · exact absurd hle (not_le_of_gt hpos)
  · exact h.exists_le_of_fits hfits hle

theorem rounded_mul (s : Sign) {m n : ℕ} {e f : ℤ} (hm : Canonical m e) (hn : Canonical n f) (hpos : 0 < m)
    (hpos' : 0 < n) :
    ∃ r t, Rounded s (m * 2 ^ e * (n * 2 ^ f)) (roundWithAccuracy Format.binary64 s (m * n) (e + f) .exact) r t := by
  have hlow : 2 ^ 52 ≤ m * n ∨ e + f ≤ -1074 := by
    rcases hm.2.2 with hnormal | rfl
    · exact Or.inl (hnormal.trans (Nat.le_mul_of_pos_right m hpos'))
    · rcases hn.2.2 with hnormal | rfl
      · exact Or.inl (hnormal.trans (Nat.le_mul_of_pos_left n hpos))
      · right
        norm_num
  have hstands : Stands (ExtendedMantissa.ofMantissaAndAccuracy (m * n) .exact) ((m * n : ℕ) : ℚ) := sub_self _
  have hvalue : ((m * n : ℕ) : ℚ) * 2 ^ (e + f) = m * 2 ^ e * (n * 2 ^ f) := by
    rw [zpow_add₀ two_ne_zero]
    push_cast
    ring
  rw [← hvalue]
  exact rounded_roundWithAccuracy s hlow hstands

/-- A product is what the exact product rounds to. -/
theorem Magnitude.mul (hx : Magnitude x p) (hy : Magnitude y q) : RoundsTo (p * q) (x * y) := by
  have hunpack : (x * y).toModel.unpack =
      (pack (UnpackedFloat.mul Format.binary64 x.toModel.unpack y.toModel.unpack)).unpack := rfl
  have hvanishes : ∀ t, (x * y).toModel.unpack = (pack (.zero t)).unpack → Magnitude (x * y) 0 := by
    intro t h
    rw [Magnitude, h]
    exact measures_pack_zero _ t
  rcases hx.zero_or_fits with ⟨s, hux, rfl⟩ | ⟨m, e, hm, hux, hfits, rfl⟩
  · rcases hy.zero_or_fits with ⟨t, huy, rfl⟩ | ⟨n, f, hn, huy, -, rfl⟩
    · rw [hux, huy] at hunpack
      exact Or.inl ⟨zero_mul _, hvanishes _ hunpack⟩
    · rw [hux, huy] at hunpack
      exact Or.inl ⟨zero_mul _, hvanishes _ hunpack⟩
  · rcases hy.zero_or_fits with ⟨t, huy, rfl⟩ | ⟨n, f, hn, huy, hfits', rfl⟩
    · rw [hux, huy] at hunpack
      exact Or.inl ⟨mul_zero _, hvanishes _ hunpack⟩
    · rw [hux, huy] at hunpack
      obtain ⟨r, t, hrounded⟩ := rounded_mul .positive hfits.canonical hfits'.canonical hm hn
      exact Or.inr ⟨by positivity, _, r, t, hrounded, hunpack⟩

/-- the two bits behind a whole quotient tell where the remainder is -/
theorem stands_accuracyOfFraction (k : ℕ) {num den : ℕ} (hlt : num < den) :
    Stands (ExtendedMantissa.ofMantissaAndAccuracy k (UnpackedFloat.accuracyOfFraction num den)) (k + num / den) := by
  have hden : (0 : ℚ) < den := by exact_mod_cast Nat.zero_lt_of_lt hlt
  have hpart : (k : ℚ) + num / den - k = num / den := add_sub_cancel_left _ _
  have hwhole : (num : ℚ) / den < 1 := (div_lt_one hden).mpr (by exact_mod_cast hlt)
  unfold UnpackedFloat.accuracyOfFraction
  split_ifs with hzero
  · change (k : ℚ) + num / den - k = 0
    rw [hpart, hzero, Nat.cast_zero, zero_div]
  · have hpos : (0 : ℚ) < num / den := div_pos (by exact_mod_cast Nat.pos_of_ne_zero hzero) hden
    cases hcompare : compare (2 * num) den with
    | lt =>
      have hhalf : (2 * num : ℚ) < den := by exact_mod_cast compare_lt_iff_lt.mp hcompare
      change 0 < (k : ℚ) + num / den - k ∧ (k : ℚ) + num / den - k < 1 / 2
      rw [hpart]
      refine ⟨hpos, ?_⟩
      rw [div_lt_div_iff₀ hden two_pos]
      linarith
    | eq =>
      have hhalf : (2 * num : ℚ) = den := by exact_mod_cast compare_eq_iff_eq.mp hcompare
      change (k : ℚ) + num / den - k = 1 / 2
      rw [hpart, div_eq_div_iff hden.ne' two_ne_zero]
      linarith
    | gt =>
      have hhalf : (den : ℚ) < 2 * num := by exact_mod_cast compare_gt_iff_gt.mp hcompare
      change 1 / 2 < (k : ℚ) + num / den - k ∧ (k : ℚ) + num / den - k < 1
      rw [hpart]
      refine ⟨?_, hwhole⟩
      rw [div_lt_div_iff₀ two_pos hden]
      linarith

/-- a whole quotient whose numerator is moved up far enough has 53 places -/
theorem le_quotient {m n k : ℕ} (hm : 0 < m) (hn : 0 < n) (hplaces : n.log2 + 53 ≤ m.log2 + k) :
    2 ^ 52 ≤ m * 2 ^ k / n := by
  rw [Nat.le_div_iff_mul_le hn]
  calc 2 ^ 52 * n ≤ 2 ^ 52 * 2 ^ (n.log2 + 1) := Nat.mul_le_mul_left _ Nat.lt_log2_self.le
    _ = 2 ^ (n.log2 + 53) := by rw [← pow_add]; congr 1; omega
    _ ≤ 2 ^ (m.log2 + k) := Nat.pow_le_pow_right two_pos hplaces
    _ = 2 ^ m.log2 * 2 ^ k := pow_add _ _ _
    _ ≤ m * 2 ^ k := Nat.mul_le_mul_right _ (Nat.log2_self_le hm.ne')

/-- a whole quotient and its remainder make up the exact quotient -/
theorem quotient_value (m : ℕ) {n k : ℕ} {e f g : ℤ} (hn : 0 < n) (he : e = f + g + k) :
    ((m * 2 ^ k / n : ℕ) + ((m * 2 ^ k % n : ℕ) : ℚ) / n) * 2 ^ g = m * 2 ^ e / (n * 2 ^ f) := by
  have hn' : (n : ℚ) ≠ 0 := by exact_mod_cast hn.ne'
  have hdivision : ((m * 2 ^ k / n : ℕ) : ℚ) + ((m * 2 ^ k % n : ℕ) : ℚ) / n = (m * 2 ^ k : ℕ) / n := by
    have hparts : (n : ℚ) * (m * 2 ^ k / n : ℕ) + (m * 2 ^ k % n : ℕ) = (m * 2 ^ k : ℕ) := by
      exact_mod_cast Nat.div_add_mod (m * 2 ^ k) n
    rw [← hparts]
    field_simp
  rw [hdivision, he, zpow_add₀ two_ne_zero, zpow_add₀ two_ne_zero, zpow_natCast]
  push_cast
  field_simp

/-- The quotient is computed to enough places. -/
theorem rounded_div (s : Sign) {m n : ℕ} (e f : ℤ) (hm : 0 < m) (hn : 0 < n) :
    ∃ r t, Rounded s (m * 2 ^ e / (n * 2 ^ f))
      (roundWithAccuracy Format.binary64 s (UnpackedFloat.divCore Format.binary64 m e n f).1
        (UnpackedFloat.divCore Format.binary64 m e n f).2.1 (UnpackedFloat.divCore Format.binary64 m e n f).2.2) r t := by
  set g := min (e - f) (Format.binary64.targetExponent (totalExponent m e - totalExponent n f)) with hg
  set k := (e - f - g).toNat with hk
  have hcore : UnpackedFloat.divCore Format.binary64 m e n f =
      ((m * 2 ^ k) / n, g, UnpackedFloat.accuracyOfFraction ((m * 2 ^ k) % n) n) := by
    simp only [UnpackedFloat.divCore, ← hg, ← hk, Nat.shiftLeft_eq]
  have htarget : g ≤ max ((m.log2 : ℤ) + e - n.log2 - f - 53) (-1074) := by
    have hbits : Format.binary64.mantissaBits = 53 := rfl
    have hmin : Format.binary64.minExponent = -1074 := rfl
    rw [hg, Format.targetExponent, totalExponent, totalExponent, hbits, hmin]
    omega
  have hlow : 2 ^ 52 ≤ m * 2 ^ k / n ∨ g ≤ -1074 := by
    by_cases hsmall : g ≤ -1074
    · exact Or.inr hsmall
    · exact Or.inl (le_quotient hm hn (by omega))
  have hstands := stands_accuracyOfFraction (m * 2 ^ k / n) (Nat.mod_lt (m * 2 ^ k) hn)
  have hvalue := quotient_value m hn (show e = f + g + k by omega)
  rw [hcore, ← hvalue]
  exact rounded_roundWithAccuracy s hlow hstands

/-- A quotient is what the exact quotient rounds to. -/
theorem Magnitude.div (hx : Magnitude x p) (hy : Magnitude y q) (hq : 0 < q) : RoundsTo (p / q) (x / y) := by
  have hunpack : (x / y).toModel.unpack =
      (pack (UnpackedFloat.div Format.binary64 x.toModel.unpack y.toModel.unpack)).unpack := rfl
  rcases hy.zero_or_fits with ⟨t, -, rfl⟩ | ⟨n, f, hn, huy, -, rfl⟩
  · exact absurd hq (lt_irrefl 0)
  · rcases hx.zero_or_fits with ⟨s, hux, rfl⟩ | ⟨m, e, hm, hux, -, rfl⟩
    · rw [hux, huy] at hunpack
      refine Or.inl ⟨zero_div _, ?_⟩
      rw [Magnitude, hunpack]
      exact measures_pack_zero _ _
    · rw [hux, huy] at hunpack
      obtain ⟨r, t, hrounded⟩ := rounded_div .positive e f hm hn
      exact Or.inr ⟨by positivity, _, r, t, hrounded, hunpack⟩

/-! ## Products that do not overflow -/

/-- the largest finite number -/
def largest : ℚ := (2 ^ 53 - 1) * 2 ^ (971 : ℤ)

theorem Magnitude.le_largest (hx : Magnitude x q) : q ≤ largest := by
  rcases hx.zero_or_fits with ⟨s, -, rfl⟩ | ⟨m, e, hm, -, hfits, rfl⟩
  · unfold largest
    positivity
  · obtain ⟨⟨hlt, -, -⟩, hmax⟩ := fits_iff.mp hfits
    have hm' : (m : ℚ) ≤ 2 ^ 53 - 1 := by
      have : ((m + 1 : ℕ) : ℚ) ≤ ((2 ^ 53 : ℕ) : ℚ) := Nat.cast_le.mpr hlt
      push_cast at this
      linarith
    exact mul_le_mul hm' (zpow_le_zpow_right₀ one_le_two hmax) (by positivity) (by norm_num)

/-- an exact value that is not above the largest finite number does not overflow -/
theorem RoundsTo.exists_of_le_largest {v : ℚ} (h : RoundsTo v x) (hle : v ≤ largest) : ∃ q, Magnitude x q := by
  have hfits : Fits (2 ^ 53 - 1) 971 := by
    right
    norm_num
  have hlargest : largest = ((2 ^ 53 - 1 : ℕ) : ℚ) * 2 ^ (971 : ℤ) := by
    have hsignificand : ((2 ^ 53 - 1 : ℕ) : ℚ) = 2 ^ 53 - 1 := by norm_num
    rw [largest, hsignificand]
  obtain ⟨q, -, hq⟩ := h.exists_le_of_fits hfits (hlargest ▸ hle)
  exact ⟨q, hq⟩

/-- a positive number has a significand between two powers of two, the higher of which is allowed -/
theorem exists_significand {m : ℕ} (hm : 0 < m) (hlt : m < 2 ^ 53) : ∃ k ≤ 53, 2 ^ 52 < m * 2 ^ k ∧ m * 2 ^ k ≤ 2 ^ 53 := by
  have hquotient : 2 ^ 53 / m ≠ 0 := (Nat.div_pos hlt.le hm).ne'
  refine ⟨(2 ^ 53 / m).log2, ?_, ?_, ?_⟩
  · have hle : 2 ^ 53 / m ≤ 2 ^ 53 := Nat.div_le_self _ _
    have hlog : (2 ^ 53 / m).log2 < 54 := (Nat.log2_lt hquotient).mpr (by omega)
    omega
  · have hbelow : 2 ^ 53 / m < 2 ^ ((2 ^ 53 / m).log2 + 1) := Nat.lt_log2_self
    rw [Nat.div_lt_iff_lt_mul hm] at hbelow
    have hswap : 2 ^ ((2 ^ 53 / m).log2 + 1) * m = 2 * (m * 2 ^ (2 ^ 53 / m).log2) := by ring
    rw [hswap] at hbelow
    have hpow : 2 ^ 53 = 2 * 2 ^ 52 := by norm_num
    omega
  · rw [mul_comm, ← Nat.le_div_iff_mul_le hm]
    exact Nat.log2_self_le hquotient

/-- Above `2 ^ 52` places, a number below a multiple of a place is at most the multiple before. -/
theorem le_pred_of_lt {m n : ℕ} {f g : ℤ} (hn : n < 2 ^ 53) (hm : 2 ^ 52 < m) (hlt : (n : ℚ) * 2 ^ f < m * 2 ^ g) :
    (n : ℚ) * 2 ^ f ≤ (m - 1) * 2 ^ g := by
  have hplace : (0 : ℚ) < 2 ^ g := by positivity
  have hm' : (2 : ℚ) ^ 52 + 1 ≤ m := by exact_mod_cast hm
  rcases le_or_gt g f with hle | hgt
  · rw [value_eq_multiple n hle] at hlt ⊢
    have hwhole : n * 2 ^ (f - g).toNat + 1 ≤ m := Nat.cast_lt.mp (lt_of_mul_lt_mul_right hlt hplace.le)
    have hwhole' : ((n * 2 ^ (f - g).toNat : ℕ) : ℚ) + 1 ≤ m := by exact_mod_cast hwhole
    exact mul_le_mul_of_nonneg_right (by linarith) hplace.le
  · calc (n : ℚ) * 2 ^ f ≤ 2 ^ 53 * 2 ^ (g - 1) :=
        mul_le_mul (by exact_mod_cast hn.le) (zpow_le_zpow_right₀ one_le_two (by omega)) (by positivity) (by positivity)
      _ = 2 ^ 52 * 2 ^ g := by rw [zpow_sub₀ two_ne_zero]; norm_num; ring
      _ ≤ (m - 1) * 2 ^ g := mul_le_mul_of_nonneg_right (by linarith) hplace.le

theorem Magnitude.unique (hp : Magnitude x p) (hq : Magnitude x q) : p = q := by
  have hself : x ≤ x := (hp.le_iff hp).mpr le_rfl
  exact le_antisymm ((hp.le_iff hq).mp hself) ((hq.le_iff hp).mp hself)

/-- A number times the largest one, in places of `2 ^ g`, where its own significand is moved up by `k` places. -/
theorem mul_largest (m k : ℕ) {e g : ℤ} (hg : g = e - k + 1024) :
    (m : ℚ) * 2 ^ e * largest = (((m * 2 ^ k : ℕ) : ℚ) - ((m * 2 ^ k : ℕ) : ℚ) / 2 ^ 53) * 2 ^ g := by
  have hmoved : (m : ℚ) * 2 ^ e = ((m * 2 ^ k : ℕ) : ℚ) * 2 ^ (e - k) := by
    have hk : (e - (e - k)).toNat = k := by omega
    rw [value_eq_multiple m (show e - k ≤ e by omega), hk]
  have hplaces : (2 : ℚ) ^ g = 2 ^ (e - k) * 2 ^ 53 * 2 ^ (971 : ℤ) := by
    have hsplit : g = e - k + (53 : ℕ) + 971 := by omega
    rw [hsplit, zpow_add₀ two_ne_zero, zpow_add₀ two_ne_zero, zpow_natCast]
  rw [hplaces, hmoved, largest]
  field_simp

/-- **A finite product does not exceed its exact value by much.** Divided by one of its factors, it is at most the
largest finite number. -/
theorem Magnitude.mul_le_largest (hx : Magnitude x p) (hy : Magnitude y q) (hw : Magnitude (x * y) w) :
    w ≤ p * largest := by
  have hlargest : 0 ≤ largest := hy.nonneg.trans hy.le_largest
  rcases hx.mul hy with ⟨-, hzero⟩ | ⟨hpos, u, r, t, hrounded, hu⟩
  · rw [hw.unique hzero]
    exact mul_nonneg hx.nonneg hlargest
  · rcases hx.zero_or_fits with ⟨s, -, rfl⟩ | ⟨m₀, e, hm₀, -, hfits, rfl⟩
    · exact absurd hpos (by simp)
    · obtain ⟨⟨hlt, hmin, -⟩, -⟩ := fits_iff.mp hfits
      obtain ⟨k, hk, hlow, hhigh⟩ := exists_significand hm₀ hlt
      obtain ⟨g, hg⟩ : ∃ g : ℤ, g = e - k + 1024 := ⟨_, rfl⟩
      have hfactor := mul_largest m₀ k hg
      set m := m₀ * 2 ^ k
      have hlow' : (2 : ℚ) ^ 52 + 1 ≤ m := by exact_mod_cast hlow
      have hhigh' : (m : ℚ) ≤ 2 ^ 53 := by exact_mod_cast hhigh
      have hplace : (0 : ℚ) < 2 ^ g := by positivity
      have hexact : m₀ * 2 ^ e * q < (m - 1 / 2) * 2 ^ g := by
        calc m₀ * 2 ^ e * q ≤ m₀ * 2 ^ e * largest := mul_le_mul_of_nonneg_left hy.le_largest hx.nonneg
          _ = (m - m / 2 ^ 53) * 2 ^ g := hfactor
          _ < (m - 1 / 2) * 2 ^ g := mul_lt_mul_of_pos_right (by linarith) hplace
      have hbelow : w < m * 2 ^ g := by
        rw [Magnitude, hu] at hw
        rw [hrounded.eq_of_pack hw]
        exact hrounded.lt_of_half hhigh (by omega) hexact
      have hpred : w ≤ (m - 1) * 2 ^ g := by
        rcases hw.zero_or_fits with ⟨s, -, rfl⟩ | ⟨n, f, hn, -, hfits', rfl⟩
        · exact mul_nonneg (by linarith) hplace.le
        · exact le_pred_of_lt hfits'.canonical.1 hlow hbelow
      calc w ≤ (m - 1) * 2 ^ g := hpred
        _ ≤ (m - m / 2 ^ 53) * 2 ^ g := mul_le_mul_of_nonneg_right (by linarith) hplace.le
        _ = m₀ * 2 ^ e * largest := hfactor.symm

end RoutingReplay.Binary64
