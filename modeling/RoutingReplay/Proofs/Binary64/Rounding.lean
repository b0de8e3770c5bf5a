/-
How far rounding goes.

An operation hands a significand with two more bits to the rounding: whether the places behind it reach a half, and
whether there is anything beyond. Whatever is cut off later, the two bits go on telling where the exact value is
(`Stands`). So a rounded value is within half a last place of the exact one (`Rounded`), and two bounds follow: what is
at most a number of the format is still at most that number once it is rounded (`Rounded.le`), and an exact value that
falls short of the next number by more than half a place stays below it (`Rounded.lt_of_half`).
-/
import Mathlib
import RoutingReplay.Proofs.Binary64.Sign

namespace RoutingReplay.Binary64

open Float.Model
open UnpackedFloat (Sign ExtendedMantissa Accuracy roundWithAccuracy shiftToTargetExponent shiftToExponent)

/-! ## What the two bits tell -/

/-- the part of a significand behind its last place, as far as two bits tell -/
def Residue (half rest : Bool) (δ : ℚ) : Prop :=
  match half, rest with
  | false, false => δ = 0
  | false, true => 0 < δ ∧ δ < 1 / 2
  | true, false => δ = 1 / 2
  | true, true => 1 / 2 < δ ∧ δ < 1

/-- a significand with its two bits stands for an exact one -/
def Stands (em : ExtendedMantissa) (x : ℚ) : Prop := Residue em.roundBit em.stickyBit (x - em.mantissa)

theorem Residue.bounds {half rest : Bool} {δ : ℚ} (h : Residue half rest δ) : 0 ≤ δ ∧ δ < 1 := by
  cases half <;> cases rest <;> simp only [Residue] at h
  · rw [h]; norm_num
  · constructor <;> linarith [h.1, h.2]
  · rw [h]; norm_num
  · constructor <;> linarith [h.1, h.2]

/-- one more place cut off, a zero -/
theorem Residue.halve_even {half rest : Bool} {δ : ℚ} (h : Residue half rest δ) :
    Residue false (half || rest) (δ / 2) := by
  cases half <;> cases rest <;> simp only [Residue] at h
  · exact (div_eq_zero_iff).mpr (Or.inl h)
  · constructor <;> linarith [h.1, h.2]
  · constructor <;> linarith
  · constructor <;> linarith [h.1, h.2]

/-- one more place cut off, a one -/
theorem Residue.halve_odd {half rest : Bool} {δ : ℚ} (h : Residue half rest δ) :
    Residue true (half || rest) ((δ + 1) / 2) := by
  cases half <;> cases rest <;> simp only [Residue] at h
  · change (δ + 1) / 2 = 1 / 2
    rw [h, zero_add]
  · constructor <;> linarith [h.1, h.2]
  · constructor <;> linarith
  · constructor <;> linarith [h.1, h.2]

theorem Stands.shiftRightOne {em : ExtendedMantissa} {x : ℚ} (h : Stands em x) : Stands em.shiftRightOne (x / 2) := by
  have hparts : ((em.mantissa / 2 : ℕ) : ℚ) * 2 + (em.mantissa % 2 : ℕ) = em.mantissa := by
    exact_mod_cast Nat.div_add_mod' em.mantissa 2
  rcases Nat.mod_two_eq_zero_or_one em.mantissa with heven | hodd
  · have hresidue : x / 2 - ((em.mantissa / 2 : ℕ) : ℚ) = (x - em.mantissa) / 2 := by
      rw [heven, Nat.cast_zero] at hparts
      linarith
    have hbit : (em.mantissa % 2 != 0) = false := by rw [heven]; rfl
    rw [Stands, ExtendedMantissa.shiftRightOne, hresidue, hbit]
    exact Residue.halve_even h
  · have hresidue : x / 2 - ((em.mantissa / 2 : ℕ) : ℚ) = (x - em.mantissa + 1) / 2 := by
      rw [hodd, Nat.cast_one] at hparts
      linarith
    have hbit : (em.mantissa % 2 != 0) = true := by rw [hodd]; rfl
    rw [Stands, ExtendedMantissa.shiftRightOne, hresidue, hbit]
    exact Residue.halve_odd h

/-- Cutting off places divides what a significand stands for. -/
theorem Stands.shiftRight {em : ExtendedMantissa} {x : ℚ} (h : Stands em x) (n : ℕ) : Stands (em >>> n) (x / 2 ^ n) := by
  change Stands (n.repeat ExtendedMantissa.shiftRightOne em) _
  induction n with
  | zero => simpa [Nat.repeat] using h
  | succ n ih =>
    have hpower : x / 2 ^ (n + 1) = x / 2 ^ n / 2 := by rw [pow_succ, div_mul_eq_div_div]
    rw [hpower]
    exact ih.shiftRightOne

/-- A rounded significand is within a half of the exact one. -/
theorem Stands.near {em : ExtendedMantissa} {x : ℚ} (h : Stands em x) : |(em.roundedMantissa : ℚ) - x| ≤ 1 / 2 := by
  obtain ⟨m, half, rest⟩ := em
  have htie : ((m + m % 2 : ℕ) : ℚ) = m ∨ ((m + m % 2 : ℕ) : ℚ) = m + 1 := by
    rcases Nat.mod_two_eq_zero_or_one m with heven | hodd
    · exact Or.inl (by rw [heven, Nat.add_zero])
    · exact Or.inr (by rw [hodd, Nat.cast_add, Nat.cast_one])
  rw [abs_le]
  cases half <;> cases rest <;> simp only [Stands, Residue] at h <;>
    simp only [ExtendedMantissa.roundedMantissa, ExtendedMantissa.accuracy, Accuracy.roundToNearestEven]
  · constructor <;> linarith
  · constructor <;> linarith [h.1, h.2]
  · rcases htie with hdown | hup
    · rw [hdown]
      constructor <;> linarith
    · rw [hup]
      constructor <;> linarith
  · rw [Nat.cast_add, Nat.cast_one]
    constructor <;> linarith [h.1, h.2]

/-- Rounding does not cross a whole number from below. -/
theorem Stands.rounded_le {em : ExtendedMantissa} {x : ℚ} (h : Stands em x) {k : ℕ} (hle : x ≤ k) :
    em.roundedMantissa ≤ k := by
  have hlt : (em.roundedMantissa : ℚ) < ((k + 1 : ℕ) : ℚ) := by
    push_cast
    linarith [(abs_le.mp h.near).2]
  exact Nat.lt_succ_iff.mp (Nat.cast_lt.mp hlt)

/-- Rounding does not cross a whole number from above. -/
theorem Stands.le_rounded {em : ExtendedMantissa} {x : ℚ} (h : Stands em x) {k : ℕ} (hle : (k : ℚ) ≤ x) :
    k ≤ em.roundedMantissa := by
  have hlt : (k : ℚ) < ((em.roundedMantissa + 1 : ℕ) : ℚ) := by
    push_cast
    linarith [(abs_le.mp h.near).1]
  exact Nat.lt_succ_iff.mp (Nat.cast_lt.mp hlt)

/-! ## Rounded values -/

/-- `u` is what an exact value rounds to: the nearest multiple of its last place `2 ^ t` -/
structure Rounded (s : Sign) (v : ℚ) (u : UnpackedFloat) (r : ℕ) (t : ℤ) : Prop where
  place_min : -1074 ≤ t
  place_le : t = -1074 ∨ (2 : ℚ) ^ (t + 52) ≤ v
  near : |r * (2 : ℚ) ^ t - v| ≤ 2 ^ t / 2
  shape : (r = 0 ∧ u = .zero s) ∨
    ∃ m e hm, u = .finite s m e hm ∧ Canonical m e ∧ (m : ℚ) * 2 ^ e = r * 2 ^ t

/-- the exponent that the rounding aims at -/
theorem targetExponent_bounds {m : ℕ} {e : ℤ} (hlow : 2 ^ 52 ≤ m ∨ e ≤ -1074) :
    let t := Format.binary64.targetExponent (totalExponent m e)
    e ≤ t ∧ -1074 ≤ t ∧ (m.log2 : ℤ) + e ≤ t + 52 ∧ (t = -1074 ∨ 0 < m ∧ t + 52 = m.log2 + e) := by
  have hbits : Format.binary64.mantissaBits = 53 := rfl
  have hmin : Format.binary64.minExponent = -1074 := rfl
  simp only [Format.targetExponent, totalExponent, hbits, hmin]
  have hlog : 2 ^ 52 ≤ m → 52 ≤ m.log2 := fun h => (Nat.le_log2 (by omega)).mpr h
  rcases hlow with hnormal | hsmall
  · have := hlog hnormal
    omega
  · rcases Nat.eq_zero_or_pos m with rfl | hpos
    · have hzero : Nat.log2 0 = 0 := by decide
      omega
    · omega

/-- a significand that has not too many places stays as it is -/
theorem shift_small {m : ℕ} {e : ℤ} (hm : m < 2 ^ 53) (he : -1074 ≤ e) :
    shiftToTargetExponent Format.binary64 m e .exact = (⟨m, false, false⟩, e) := by
  have hbits : Format.binary64.mantissaBits = 53 := rfl
  have hmin : Format.binary64.minExponent = -1074 := rfl
  have hlog : m.log2 < 53 := by
    rcases Nat.eq_zero_or_pos m with rfl | hpos
    · decide
    · exact (Nat.log2_lt hpos.ne').mpr hm
  have htarget : (Format.binary64.targetExponent (totalExponent m e) - e).toNat = 0 := by
    rw [Format.targetExponent, totalExponent, hbits, hmin]
    omega
  simp only [shiftToTargetExponent, shiftToExponent, htarget, ExtendedMantissa.ofMantissaAndAccuracy, Nat.cast_zero,
    add_zero]
  rfl

/-- a significand is what it stands for, cut off -/
theorem Stands.floor {m : ℕ} {a : Accuracy} {x : ℚ} (h : Stands (ExtendedMantissa.ofMantissaAndAccuracy m a) x) :
    (m : ℚ) ≤ x ∧ x < m + 1 := by
  have hmantissa : (ExtendedMantissa.ofMantissaAndAccuracy m a).mantissa = m := by
    cases a with
    | exact => rfl
    | inexact o => cases o <;> rfl
  have hbounds := Residue.bounds h
  rw [hmantissa] at hbounds
  constructor <;> linarith [hbounds.1, hbounds.2]

/-- The last step of the rounding only renames a significand that has grown by a place. -/
theorem shape_of_rounded (s : Sign) {r : ℕ} {t : ℤ} (hr : r ≤ 2 ^ 53) (hmin : -1074 ≤ t)
    (hlow : 2 ^ 52 ≤ r ∨ t = -1074) {u : UnpackedFloat}
    (hu : u = if h : (shiftToTargetExponent Format.binary64 r t .exact).1.mantissa = 0 then .zero s
      else .finite s (shiftToTargetExponent Format.binary64 r t .exact).1.mantissa
        (shiftToTargetExponent Format.binary64 r t .exact).2 (Nat.pos_of_ne_zero h)) :
    (r = 0 ∧ u = .zero s) ∨
      ∃ m e hm, u = .finite s m e hm ∧ Canonical m e ∧ (m : ℚ) * 2 ^ e = r * 2 ^ t := by
  rcases Nat.lt_or_eq_of_le hr with hlt | rfl
  · simp only [shift_small hlt hmin] at hu
    rcases Nat.eq_zero_or_pos r with rfl | hpos
    · exact Or.inl ⟨rfl, hu⟩
    · rw [dif_neg hpos.ne'] at hu
      exact Or.inr ⟨r, t, hpos, hu, ⟨hlt, hmin, hlow⟩, rfl⟩
  · have hcanonical : Canonical (2 ^ 52) (t + 1) := ⟨by norm_num, by omega, Or.inl le_rfl⟩
    have hshift := shift_shifted hcanonical (by norm_num) 1
    have hcarry : 2 ^ 52 * 2 ^ 1 = 2 ^ 53 := by norm_num
    have hback : t + 1 - ((1 : ℕ) : ℤ) = t := by omega
    rw [hcarry, hback] at hshift
    simp only [hshift] at hu
    rw [dif_neg (by norm_num)] at hu
    refine Or.inr ⟨2 ^ 52, t + 1, by norm_num, hu, hcanonical, ?_⟩
    rw [zpow_add₀ two_ne_zero]
    push_cast
    ring

/-- a significand with enough places cut off has 53 places at most -/
theorem cut_lt {m n : ℕ} {x : ℚ} (hx : x < m + 1) (hplaces : m.log2 ≤ 52 + n) : x / 2 ^ n < 2 ^ 53 := by
  have hsucc : m + 1 ≤ 2 ^ (53 + n) := by
    have hlog : m < 2 ^ (m.log2 + 1) := Nat.lt_log2_self
    have hle : 2 ^ (m.log2 + 1) ≤ 2 ^ (53 + n) := Nat.pow_le_pow_right two_pos (by omega)
    omega
  have hsucc' : (m : ℚ) + 1 ≤ 2 ^ 53 * 2 ^ n := by
    rw [← pow_add]
    exact_mod_cast hsucc
  rw [div_lt_iff₀ (by positivity)]
  linarith

/-- the first place of a significand is a lower bound of its value -/
theorem first_place_le {m : ℕ} {e t : ℤ} {x : ℚ} (hm : 0 < m) (hx : (m : ℚ) ≤ x) (hplace : t + 52 = m.log2 + e) :
    (2 : ℚ) ^ (t + 52) ≤ x * 2 ^ e := by
  have hself : (2 : ℚ) ^ m.log2 ≤ m := by exact_mod_cast Nat.log2_self_le hm.ne'
  calc (2 : ℚ) ^ (t + 52) = 2 ^ m.log2 * 2 ^ e := by rw [hplace, zpow_add₀ two_ne_zero, zpow_natCast]
    _ ≤ x * 2 ^ e := mul_le_mul_of_nonneg_right (hself.trans hx) (by positivity)

/-- Rounding finds the nearest multiple of the last place. -/
theorem rounded_roundWithAccuracy (s : Sign) {m : ℕ} {e : ℤ} {a : Accuracy} {x : ℚ}
    (hlow : 2 ^ 52 ≤ m ∨ e ≤ -1074) (hx : Stands (ExtendedMantissa.ofMantissaAndAccuracy m a) x) :
    ∃ r t, Rounded s (x * 2 ^ e) (roundWithAccuracy Format.binary64 s m e a) r t := by
  set t := Format.binary64.targetExponent (totalExponent m e) with ht
  obtain ⟨het, hmin, hbits, hplace⟩ := targetExponent_bounds hlow
  set n := (t - e).toNat with hn
  have hexponent : e + (n : ℤ) = t := by omega
  set em := ExtendedMantissa.ofMantissaAndAccuracy m a >>> n with hem
  have hstands : Stands em (x / 2 ^ n) := hx.shiftRight n
  have hvalue : x * 2 ^ e = x / 2 ^ n * 2 ^ t := by
    rw [← hexponent, zpow_add₀ two_ne_zero, zpow_natCast]
    field_simp
  have hfirst : shiftToTargetExponent Format.binary64 m e a = (em, t) := by
    simp only [shiftToTargetExponent, shiftToExponent, ← ht, ← hn, hexponent, ← hem]
  -- the exact significand lies between two powers of two
  obtain ⟨hfloor, hceil⟩ := hx.floor
  have habove : t = -1074 ∨ (2 : ℚ) ^ (t + 52) ≤ x * 2 ^ e := by
    rcases hplace with hleast | ⟨hm, hplace⟩
    · exact Or.inl hleast
    · exact Or.inr (first_place_le hm hfloor hplace)
  have hr : em.roundedMantissa ≤ 2 ^ 53 := by
    refine hstands.rounded_le ?_
    push_cast
    exact (cut_lt hceil (by omega)).le
  have hrlow : 2 ^ 52 ≤ em.roundedMantissa ∨ t = -1074 := by
    rcases habove with hleast | habove
    · exact Or.inr hleast
    · refine Or.inl (hstands.le_rounded ?_)
      rw [hvalue, zpow_add₀ two_ne_zero, mul_comm] at habove
      push_cast
      exact le_of_mul_le_mul_right habove (by positivity)
  refine ⟨em.roundedMantissa, t, hmin, habove, ?_, ?_⟩
  · calc |(em.roundedMantissa : ℚ) * 2 ^ t - x * 2 ^ e|
        = |(em.roundedMantissa : ℚ) - x / 2 ^ n| * 2 ^ t := by
          rw [hvalue, ← sub_mul, abs_mul, abs_of_pos (show (0 : ℚ) < 2 ^ t by positivity)]
      _ ≤ 1 / 2 * 2 ^ t := mul_le_mul_of_nonneg_right hstands.near (by positivity)
      _ = 2 ^ t / 2 := by ring
  · refine shape_of_rounded s hr hmin hrlow ?_
    simp only [roundWithAccuracy, hfirst]
    rfl

/-! ## Bounds -/

/-- a number is a multiple of every power of two below its last place -/
theorem value_eq_multiple (m : ℕ) {e t : ℤ} (hle : t ≤ e) :
    (m : ℚ) * 2 ^ e = ((m * 2 ^ (e - t).toNat : ℕ) : ℚ) * 2 ^ t := by
  have he : e = ((e - t).toNat : ℤ) + t := by omega
  conv_lhs => rw [he, zpow_add₀ two_ne_zero, zpow_natCast]
  push_cast
  ring

namespace Rounded

variable {s : Sign} {v : ℚ} {u : UnpackedFloat} {r : ℕ} {t : ℤ}

/-- the last place of a value that takes at most 53 places of a larger one -/
theorem place_le_of_lt (h : Rounded s v u r t) {g : ℤ} (hmin : -1074 ≤ g) (hlt : v < 2 ^ 53 * 2 ^ g) : t ≤ g := by
  rcases h.place_le with hleast | hplace
  · omega
  · have hexponents : (2 : ℚ) ^ (t + 52) < 2 ^ (53 + g) := by
      calc (2 : ℚ) ^ (t + 52) ≤ v := hplace
        _ < 2 ^ 53 * 2 ^ g := hlt
        _ = 2 ^ (53 + g) := by rw [zpow_add₀ two_ne_zero (53 : ℤ) g]; norm_num
    have := (zpow_lt_zpow_iff_right₀ one_lt_two).mp hexponents
    omega

/-- What is at most a number of the format still is once it is rounded. -/
theorem le (h : Rounded s v u r t) {m : ℕ} {e : ℤ} (hfits : Fits m e) (hle : v ≤ m * 2 ^ e) :
    (r : ℚ) * 2 ^ t ≤ m * 2 ^ e := by
  obtain ⟨⟨hm, hmin, -⟩, -⟩ := fits_iff.mp hfits
  have hte : t ≤ e := by
    refine h.place_le_of_lt hmin (lt_of_le_of_lt hle ?_)
    exact mul_lt_mul_of_pos_right (by exact_mod_cast hm) (by positivity)
  have hpos : (0 : ℚ) < 2 ^ t := by positivity
  -- the bound is a multiple of the last place
  rw [value_eq_multiple m hte] at hle ⊢
  refine mul_le_mul_of_nonneg_right ?_ hpos.le
  have hlt : (r : ℚ) < ((m * 2 ^ (e - t).toNat + 1 : ℕ) : ℚ) := by
    have hnear := (abs_le.mp h.near).2
    refine lt_of_mul_lt_mul_right ?_ hpos.le
    rw [Nat.cast_add, Nat.cast_one, add_mul]
    linarith
  exact_mod_cast Nat.lt_succ_iff.mp (Nat.cast_lt.mp hlt)

/-- An exact value that is more than half a place below a significand of 53 bits rounds to a number below it. -/
theorem lt_of_half (h : Rounded s v u r t) {m : ℕ} {g : ℤ} (hm : m ≤ 2 ^ 53)
    (hmin : -1074 ≤ g) (hhalf : v < (m - 1 / 2) * 2 ^ g) : r * (2 : ℚ) ^ t < m * 2 ^ g := by
  have hm' : (m : ℚ) ≤ 2 ^ 53 := by exact_mod_cast hm
  have hwhole : ((m : ℚ) - 1 / 2) * 2 ^ g ≤ 2 ^ 53 * 2 ^ g := mul_le_mul_of_nonneg_right (by linarith) (by positivity)
  have hlast : (2 : ℚ) ^ t ≤ 2 ^ g :=
    zpow_le_zpow_right₀ one_le_two (h.place_le_of_lt hmin (hhalf.trans_le hwhole))
  have hnear := (abs_le.mp h.near).2
  linarith

end Rounded

end RoutingReplay.Binary64
