/-
Bounds on powers of two, logarithms and durations.

`exp2` and `log2` compute in whole numbers and round a fraction once at the end, so a bound on the fraction is a bound on
the result (`exists_nearest_le`). A power with a negative exponent is at most one, the logarithm of a finite number is
at most 1024, and a finite number below `2 ^ 64` is a number of seconds that a duration can hold.
-/
import Mathlib
import RoutingReplay.Proofs.Binary64.Magnitude

namespace RoutingReplay.Binary64

open Float.Model
open UnpackedFloat (Sign unpackSign unpackExponent unpackMantissa)

variable {x : Float} {q : ℚ}

theorem pow2_eq (n : ℕ) : pow2 n = 2 ^ n := rfl

theorem pow2_pos (n : ℕ) : 0 < pow2 n := Nat.two_pow_pos n

theorem pow2_le_pow2 {m n : ℕ} (h : m ≤ n) : pow2 m ≤ pow2 n := Nat.pow_le_pow_right two_pos h

/-! ## Numbers from bits -/

/-- the value of bits that hold a finite number without a sign -/
def bitsValue (n : ℕ) : ℚ :=
  if n / 2 ^ 52 = 0 then n * 2 ^ (-1074 : ℤ) else (2 ^ 52 + (n % 2 ^ 52 : ℕ)) * 2 ^ ((n / 2 ^ 52 : ℕ) - 1075 : ℤ)

/-- bits without a sign -/
theorem sign_eq_positive {b : Bits} (hb : b.toNat < pow2 63) :
    Sign.ofBitVec (@unpackSign Format.binary64 b) = .positive := by
  have hnegative := isNegative_unpackSign b
  rw [decide_eq_false (not_le.mpr hb)] at hnegative
  cases hs : Sign.ofBitVec (@unpackSign Format.binary64 b) with
  | positive => rfl
  | negative =>
    rw [hs] at hnegative
    cases hnegative

theorem magnitude_ofBits {n : ℕ} (hn : n < 2047 * 2 ^ 52) : Magnitude (Float.ofBits (UInt64.ofNat n)) (bitsValue n) := by
  set b : Bits := (UInt64.ofNat n).toBitVec with hb
  have hnat : b.toNat = n := by
    change n % 2 ^ 64 = n
    omega
  have hexponent : (@unpackExponent Format.binary64 b).toNat = n / 2 ^ 52 := by
    rw [toNat_unpackExponent, hnat, pow2_eq]
    exact Nat.mod_eq_of_lt (by omega)
  have hfraction : (@unpackMantissa Format.binary64 b).toNat = n % 2 ^ 52 := by
    rw [toNat_unpackMantissa, hnat, pow2_eq]
  have hsign : Sign.ofBitVec (@unpackSign Format.binary64 b) = .positive := by
    refine sign_eq_positive ?_
    rw [hnat, pow2_eq]
    omega
  have hall : @unpackExponent Format.binary64 b ≠ -1#_ := by
    intro h
    have hlast : n / 2 ^ 52 = 2047 := hexponent ▸ congrArg BitVec.toNat h
    omega
  have hbias := bias_eq
  rw [Magnitude, unpack_ofBits ⟨fun h => absurd h hall⟩, ← hb]
  simp only [UnpackedFloat.unpack, hall, if_false, hsign, hbias, bitsValue]
  by_cases hzero : @unpackExponent Format.binary64 b = 0#_
  · have hfirst : n / 2 ^ 52 = 0 := hexponent ▸ congrArg BitVec.toNat hzero
    have hsmall : n % 2 ^ 52 = n := Nat.mod_eq_of_lt (by omega)
    rw [if_pos hzero, if_pos hfirst]
    by_cases hnone : @unpackMantissa Format.binary64 b = 0#_
    · have hvanishes : n = 0 := by
        rw [← hsmall, ← hfraction, hnone]
        rfl
      rw [dif_pos hnone, hvanishes, Nat.cast_zero, zero_mul]
      exact Or.inl ⟨_, rfl, rfl⟩
    · rw [dif_neg hnone]
      refine Or.inr ⟨_, _, _, rfl, ?_⟩
      rw [hfraction, hsmall, hexponent, hfirst]
      rfl
  · have hfirst : n / 2 ^ 52 ≠ 0 := fun h => hzero (BitVec.eq_of_toNat_eq (hexponent.trans h))
    rw [if_neg hzero, if_neg hfirst]
    refine Or.inr ⟨_, _, _, rfl, ?_⟩
    rw [toNat_one_append, hfraction, hexponent]
    push_cast
    rfl

/-- Bits grow with the numbers that they hold. -/
theorem bitsValue_le {n k : ℕ} (hn : n ≤ (k + 1023) * 2 ^ 52) : bitsValue n ≤ 2 ^ k := by
  have hfraction : ((n % 2 ^ 52 : ℕ) : ℚ) + 1 ≤ 2 ^ 52 := by
    have : n % 2 ^ 52 < 2 ^ 52 := Nat.mod_lt _ (by norm_num)
    exact_mod_cast this
  have hpower : (2 : ℚ) ^ 52 * 2 ^ ((k : ℤ) - 52) = 2 ^ k := by
    rw [zpow_sub₀ two_ne_zero, zpow_natCast]
    norm_num
    ring
  unfold bitsValue
  split_ifs with hfirst
  · have hsmall : (n : ℚ) ≤ 2 ^ 52 := by
      have : n < 2 ^ 52 := by omega
      exact_mod_cast this.le
    calc (n : ℚ) * 2 ^ (-1074 : ℤ) ≤ 2 ^ 52 * 2 ^ ((k : ℤ) - 52) :=
        mul_le_mul hsmall (zpow_le_zpow_right₀ one_le_two (by omega)) (by positivity) (by positivity)
      _ = 2 ^ k := hpower
  · rcases Nat.lt_or_ge (n / 2 ^ 52) (k + 1023) with hlt | hge
    · calc (2 ^ 52 + (n % 2 ^ 52 : ℕ) : ℚ) * 2 ^ ((n / 2 ^ 52 : ℕ) - 1075 : ℤ)
          ≤ 2 ^ 53 * 2 ^ ((k : ℤ) - 53) :=
            mul_le_mul (by linarith) (zpow_le_zpow_right₀ one_le_two (by omega)) (by positivity) (by positivity)
        _ = 2 ^ k := by
          rw [← hpower, zpow_sub₀ two_ne_zero, zpow_sub₀ two_ne_zero]
          norm_num
          ring
    · have hnone : n % 2 ^ 52 = 0 := by omega
      have hlast : n / 2 ^ 52 = k + 1023 := by omega
      have hexponent : (((k + 1023 : ℕ) : ℤ) - 1075) = k - 52 := by omega
      rw [hnone, hlast, hexponent, Nat.cast_zero, add_zero, hpower]

/-! ## Rounded fractions -/

theorem roundQuotient_le {num den k : ℕ} (hden : 0 < den) (h : num ≤ den * k) : roundQuotient num den ≤ k := by
  have hquotient : num / den ≤ k := Nat.div_le_of_le_mul h
  rcases Nat.lt_or_eq_of_le hquotient with hlt | heq
  · unfold roundQuotient
    simp only
    have := Nat.mod_lt (num / den) two_pos
    split_ifs <;> omega
  · -- the quotient is exact
    have hparts : den * (num / den) + num % den = num := Nat.div_add_mod num den
    have hrest : num % den = 0 := by
      rw [heq] at hparts
      omega
    unfold roundQuotient
    simp only [hrest, heq]
    rw [if_pos (by omega)]

/-- a fraction is below the power of two after its binary exponent -/
theorem lt_two_pow_binaryExponent {num den : ℕ} (hden : 0 < den) :
    (num : ℚ) < den * 2 ^ (binaryExponent num den + 1) := by
  have hrange : (num : ℚ) < den * 2 ^ ((num.log2 : ℤ) - den.log2 + 1) := by
    have hnum' : (num : ℚ) < 2 ^ (num.log2 + 1) := by exact_mod_cast Nat.lt_log2_self
    have hden' : (2 : ℚ) ^ den.log2 ≤ den := by exact_mod_cast Nat.log2_self_le hden.ne'
    calc (num : ℚ) < 2 ^ (num.log2 + 1) := hnum'
      _ = 2 ^ den.log2 * 2 ^ ((num.log2 : ℤ) - den.log2 + 1) := by
        rw [← zpow_natCast, ← zpow_natCast, ← zpow_add₀ two_ne_zero]
        congr 1
        push_cast
        ring
      _ ≤ den * 2 ^ ((num.log2 : ℤ) - den.log2 + 1) := mul_le_mul_of_nonneg_right hden' (by positivity)
  simp only [binaryExponent]
  split_ifs with hsign hreached hreached
  · exact hrange
  · -- the first guess was too high
    have he : ((num.log2 : ℤ) - den.log2) = ((num.log2 : ℤ) - den.log2).toNat := by omega
    rw [not_le, pow2_eq] at hreached
    rw [sub_add_cancel, he, zpow_natCast]
    exact_mod_cast hreached
  · exact hrange
  · have he : ((num.log2 : ℤ) - den.log2) = -((-((num.log2 : ℤ) - den.log2)).toNat : ℤ) := by omega
    rw [not_le, pow2_eq] at hreached
    rw [sub_add_cancel, he, zpow_neg, zpow_natCast, ← div_eq_mul_inv, lt_div_iff₀ (by positivity)]
    exact_mod_cast hreached

theorem binaryExponent_le {num den k : ℕ} (hnum : 0 < num) (hle : num ≤ den * 2 ^ k) :
    binaryExponent num den ≤ k := by
  have hlog : num.log2 ≤ den.log2 + k := by
    have hlt : num < 2 ^ (den.log2 + k + 1) := by
      calc num ≤ den * 2 ^ k := hle
        _ < 2 ^ (den.log2 + 1) * 2 ^ k := Nat.mul_lt_mul_of_pos_right Nat.lt_log2_self (Nat.two_pow_pos k)
        _ = 2 ^ (den.log2 + k + 1) := by rw [← pow_add]; congr 1; omega
    have := (Nat.log2_lt hnum.ne').mpr hlt
    omega
  simp only [binaryExponent]
  split_ifs <;> omega

/-- the significand of a rounded fraction, in units of `2 ^ unit` -/
def significand (num den : ℕ) (unit : ℤ) : ℕ :=
  if 0 ≤ unit then roundQuotient num (den * pow2 unit.toNat) else roundQuotient (num * pow2 (-unit).toNat) den

theorem significand_le {num den k : ℕ} {unit : ℤ} (hden : 0 < den) (hle : (num : ℚ) ≤ den * 2 ^ (unit + k)) :
    significand num den unit ≤ 2 ^ k := by
  rw [zpow_add₀ two_ne_zero, zpow_natCast] at hle
  unfold significand
  split_ifs with hsign
  · have hunit : unit = unit.toNat := by omega
    refine roundQuotient_le (Nat.mul_pos hden (Nat.two_pow_pos _)) ?_
    rw [hunit, zpow_natCast, ← mul_assoc] at hle
    rw [pow2_eq]
    exact_mod_cast hle
  · have hunit : unit = -((-unit).toNat : ℤ) := by omega
    refine roundQuotient_le hden ?_
    rw [hunit, zpow_neg, zpow_natCast, ← mul_assoc, mul_right_comm, ← div_eq_mul_inv, le_div_iff₀ (by positivity)] at hle
    rw [pow2_eq]
    exact_mod_cast hle

/-- the bits of a rounded fraction, before overflow -/
def fractionBits (num den : ℕ) : ℕ :=
  (max (binaryExponent num den - 52) (-1074) + 1074).toNat * 2 ^ 52 +
    significand num den (max (binaryExponent num den - 52) (-1074))

theorem nearest_eq {num : ℕ} (hnum : 0 < num) (den : ℕ) :
    nearest num den = if fractionBits num den < 2047 * 2 ^ 52 then Float.ofBits (UInt64.ofNat (fractionBits num den))
      else infinity := by
  rw [nearest, if_neg hnum.ne']
  rfl

theorem fractionBits_le {num den k : ℕ} (hnum : 0 < num) (hden : 0 < den) (hle : num ≤ den * 2 ^ k) :
    fractionBits num den ≤ (k + 1023) * 2 ^ 52 := by
  have hexponent := binaryExponent_le hnum hle
  obtain ⟨unit, hunit⟩ : ∃ unit, unit = max (binaryExponent num den - 52) (-1074) := ⟨_, rfl⟩
  rw [fractionBits, ← hunit]
  rcases lt_or_eq_of_le (show unit ≤ (k : ℤ) - 52 by omega) with hlt | heq
  · have hsignificand : significand num den unit ≤ 2 ^ 53 := by
      refine significand_le hden ?_
      calc (num : ℚ) ≤ den * 2 ^ (binaryExponent num den + 1) := (lt_two_pow_binaryExponent hden).le
        _ ≤ den * 2 ^ (unit + (53 : ℕ)) :=
          mul_le_mul_of_nonneg_left (zpow_le_zpow_right₀ one_le_two (by omega)) (by positivity)
    omega
  · have hsignificand : significand num den unit ≤ 2 ^ 52 := by
      refine significand_le hden ?_
      have hk : unit + (52 : ℕ) = k := by omega
      rw [hk, zpow_natCast]
      exact_mod_cast hle
    omega

theorem magnitude_nearest_zero (den : ℕ) : Magnitude (nearest 0 den) 0 := by
  rw [nearest, if_pos rfl]
  exact Or.inl ⟨.positive, by rfl, rfl⟩

/-- What is at most a power of two is rounded to a finite number that is. -/
theorem exists_nearest_le {num den k : ℕ} (hden : 0 < den) (hle : num ≤ den * 2 ^ k) (hk : k ≤ 1023) :
    ∃ q ≤ 2 ^ k, Magnitude (nearest num den) q := by
  rcases Nat.eq_zero_or_pos num with rfl | hnum
  · exact ⟨0, by positivity, magnitude_nearest_zero den⟩
  · have hbits := fractionBits_le hnum hden hle
    have hfinite : fractionBits num den < 2047 * 2 ^ 52 := by omega
    rw [nearest_eq hnum, if_pos hfinite]
    exact ⟨_, bitsValue_le hbits, magnitude_ofBits hfinite⟩

theorem signed_nearest (num den : ℕ) : Signed .positive (nearest num den).toModel.unpack := by
  rcases Nat.eq_zero_or_pos num with rfl | hnum
  · exact (magnitude_nearest_zero den).signed
  · rw [nearest_eq hnum]
    split_ifs with hfinite
    · exact (magnitude_ofBits hfinite).signed
    · rfl

/-! ## Powers -/

theorem foldl_mono {f g : ℕ × ℕ → ℕ → ℕ × ℕ} (hfg : ∀ p p' n, p ≤ p' → f p n ≤ g p' n) (l : List ℕ) {p p' : ℕ × ℕ}
    (hp : p ≤ p') : l.foldl f p ≤ l.foldl g p' := by
  induction l generalizing p p' with
  | nil => exact hp
  | cons n l ih => exact ih (hfg p p' n hp)

/-- the series grows with its argument -/
theorem expSeries_mono {t t' : ℕ} (h : t ≤ t') : expSeries t ≤ expSeries t' := by
  refine (foldl_mono ?_ (List.range 80) le_rfl).1
  intro p p' n hp
  refine Prod.mk_le_mk.mpr ⟨Nat.add_le_add hp.1 hp.2, ?_⟩
  exact Nat.div_le_div_right (Nat.div_le_div_right (Nat.mul_le_mul hp.2 h))

theorem expSeries_lnTwo_le : expSeries lnTwo ≤ pow2 257 := by
  decide +kernel

theorem expSeries_le {fraction : ℕ} (h : fraction ≤ pow2 1074) :
    expSeries (fraction * lnTwo / pow2 1074) ≤ pow2 257 := by
  refine (expSeries_mono ?_).trans expSeries_lnTwo_le
  exact Nat.div_le_of_le_mul (Nat.mul_le_mul_right _ h)

theorem magnitude_one : Magnitude 1 1 := by
  refine Or.inr ⟨4503599627370496, -52, by decide, by rfl, ?_⟩
  norm_num

theorem magnitude_two : Magnitude (PenaltyArithmetic.ofNat 2) 2 := by
  refine Or.inr ⟨4503599627370496, -51, by decide, by rfl, ?_⟩
  norm_num

theorem magnitude_zero : Magnitude 0 0 := Or.inl ⟨.positive, by rfl, rfl⟩

/-- a finite exponent below zero: the series is below two, and at least one more halving follows -/
theorem exists_exp2_le_one_of_neg {d : Dyadic} (hd : toDyadic? x = some d) (hneg : d.subnormalUnits < 0) :
    ∃ q ≤ 1, Magnitude (exp2 x) q := by
  obtain ⟨units, hunits⟩ : ∃ units : ℤ, units = d.subnormalUnits := ⟨_, rfl⟩
  rw [← hunits] at hneg
  have hone : (0 : ℤ) < (pow2 1074 : ℕ) := Int.natCast_pos.mpr (pow2_pos 1074)
  have hwhole : units / (pow2 1074 : ℕ) < 0 := Int.ediv_neg_of_neg_of_pos hneg hone
  have hfraction : (units % (pow2 1074 : ℕ)).toNat ≤ pow2 1074 := by
    have hlt : units % (pow2 1074 : ℕ) < (pow2 1074 : ℕ) := Int.emod_lt_of_pos _ hone
    omega
  rw [exp2, hd]
  simp only [← hunits]
  rw [if_neg (by omega), if_neg (by omega : ¬ 0 ≤ units / (pow2 1074 : ℕ))]
  split_ifs
  · exact ⟨0, zero_le_one, magnitude_zero⟩
  · have hplaces : 257 ≤ seriesPlaces + (-(units / (pow2 1074 : ℕ))).toNat := by
      have hseries : seriesPlaces = 256 := rfl
      omega
    have hhalved : pow2 257 ≤ pow2 (seriesPlaces + (-(units / (pow2 1074 : ℕ))).toNat) * 2 ^ 0 := by
      rw [pow_zero, Nat.mul_one]
      exact pow2_le_pow2 hplaces
    have hbound := exists_nearest_le (pow2_pos _) ((expSeries_le hfraction).trans hhalved) (Nat.zero_le _)
    rw [pow_zero] at hbound
    exact hbound

/-- **A power with an exponent that is not positive is at most one.** -/
theorem exists_exp2_le_one (hx : Signed .negative x.toModel.unpack) : ∃ q ≤ 1, Magnitude (exp2 x) q := by
  have hdyadic := toDyadic?_eq x
  cases hu : x.toModel.unpack with
  | notANumber =>
    rw [hu] at hx
    cases hx
  | infinity s =>
    rw [hu] at hx hdyadic
    obtain rfl : s = .negative := hx
    have hlt : x < 0 := by
      rw [lt_iff, hu, rank_zero]
      exact ⟨_, _, rfl, rfl, by decide⟩
    rw [exp2, hdyadic]
    simp only [hlt, if_true]
    exact ⟨0, zero_le_one, magnitude_zero⟩
  | zero s =>
    have hzero : x = Float.ofModel (pack (.zero s)) := by
      rw [← hu, pack_unpack]
    rw [hzero, exp2_zero]
    exact ⟨1, le_rfl, magnitude_one⟩
  | finite s m e hm =>
    rw [hu] at hx hdyadic
    obtain rfl : s = .negative := hx
    have hpos : 0 < m * pow2 (e + 1074).toNat := Nat.mul_pos hm (pow2_pos _)
    refine exists_exp2_le_one_of_neg hdyadic ?_
    change -((m * pow2 (e + 1074).toNat : ℕ) : ℤ) < 0
    omega

/-- A power is a number if its exponent is one. -/
theorem signed_exp2 (hx : Signed .positive x.toModel.unpack) : Signed .positive (exp2 x).toModel.unpack := by
  rw [exp2]
  cases toDyadic? x with
  | none =>
    simp only
    split_ifs
    · exact magnitude_zero.signed
    · exact hx
  | some d =>
    simp only
    split_ifs
    · rfl
    · exact magnitude_zero.signed
    · exact signed_nearest _ _
    · exact signed_nearest _ _

/-! ## Logarithms -/

theorem logFraction_lt (n y acc : ℕ) : logFraction n y acc < (acc + 1) * 2 ^ n := by
  induction n generalizing y acc with
  | zero => simp [logFraction]
  | succ n ih =>
    have hpower : (acc + 1) * 2 ^ (n + 1) = (2 * acc + 1 + 1) * 2 ^ n := by ring
    have hsmaller : (2 * acc + 1) * 2 ^ n ≤ (2 * acc + 1 + 1) * 2 ^ n := Nat.mul_le_mul_right _ (by omega)
    rw [hpower, logFraction]
    split_ifs
    · exact ih _ _
    · exact (ih _ _).trans_le hsmaller

theorem pow_logPlaces : pow2 logPlaces = 2 ^ 128 := rfl

/-- **The logarithm of a finite number is at most 1024.** -/
theorem exists_log2_le (hx : Magnitude x q) :
    (∃ w ≤ 2 ^ 10, Magnitude (log2 x) w) ∨ Signed .negative (log2 x).toModel.unpack := by
  have hdyadic := toDyadic?_eq x
  rcases hx.zero_or_fits with ⟨s, hu, -⟩ | ⟨m, e, hm, hu, hfits, -⟩
  · rw [hu] at hdyadic
    rw [log2, hdyadic]
    simp only [if_true]
    exact Or.inr (by rfl)
  · rw [hu] at hdyadic
    obtain ⟨⟨hlt, -, -⟩, hmax⟩ := fits_iff.mp hfits
    have hlog : m.log2 < 53 := (Nat.log2_lt hm.ne').mpr hlt
    have hfraction := logFraction_lt logPlaces (m * pow2 squarePlaces / pow2 m.log2) 0
    rw [log2, hdyadic]
    simp only [isNegative, hm.ne', if_false, Bool.false_eq_true]
    generalize hplaces : (e + (m.log2 : ℤ)) * (pow2 logPlaces : ℕ) +
      (logFraction logPlaces (m * pow2 squarePlaces / pow2 m.log2) 0 : ℕ) = places
    rw [pow_logPlaces] at hplaces ⊢
    by_cases hnegative : places < 0
    · right
      rw [nearestSigned, if_pos (decide_eq_true hnegative)]
      exact signed_pack (signed_neg (signed_nearest _ _))
    · left
      rw [nearestSigned, if_neg (by simpa using hnegative)]
      refine exists_nearest_le (Nat.two_pow_pos _) ?_ (by norm_num)
      rw [zero_add, one_mul] at hfraction
      have hlogPlaces : logPlaces = 128 := rfl
      rw [hlogPlaces] at hfraction hplaces
      have hexponent : (e + (m.log2 : ℤ)) * ((2 ^ 128 : ℕ) : ℤ) ≤ 1023 * ((2 ^ 128 : ℕ) : ℤ) :=
        mul_le_mul_of_nonneg_right (by omega) (by positivity)
      omega

theorem log2_infinity (hx : x.toModel.unpack = .infinity .positive) : log2 x = x := by
  have hdyadic := toDyadic?_eq x
  rw [hx] at hdyadic
  have hnonneg : ¬ x < 0 := by
    rw [lt_iff, hx, rank_zero]
    rintro ⟨r, r', hr, hr', hlt⟩
    obtain rfl := Option.some.inj hr
    obtain rfl := Option.some.inj hr'
    exact absurd hlt (by decide)
  rw [log2, hdyadic]
  exact if_neg hnonneg

/-! ## Durations -/

theorem Dyadic.fraction_value (negative : Bool) (m : ℕ) (e : ℤ) :
    (((⟨negative, m, e⟩ : Dyadic).fraction.1 : ℕ) : ℚ) =
      m * 2 ^ e * ((⟨negative, m, e⟩ : Dyadic).fraction.2 : ℕ) := by
  simp only [Dyadic.fraction]
  split_ifs with hsign
  · have he : e = e.toNat := by omega
    conv_rhs => rw [he, zpow_natCast]
    rw [pow2_eq]
    push_cast
    ring
  · have he : (2 : ℚ) ^ e = (2 ^ (-e).toNat)⁻¹ := by
      rw [← zpow_natCast, ← zpow_neg]
      congr 1
      omega
    rw [he, pow2_eq]
    push_cast
    field_simp

theorem Dyadic.fraction_pos (d : Dyadic) : 0 < d.fraction.2 := by
  unfold Dyadic.fraction
  split_ifs
  · exact Nat.one_pos
  · exact pow2_pos _

theorem exists_nanoseconds_of_fraction {d : Dyadic} (hd : toDyadic? x = some d)
    (hsign : d.negative = false ∨ d.fraction.1 = 0) (hlt : d.fraction.1 < d.fraction.2 * pow2 64) :
    ∃ n, nanoseconds? x = some n := by
  have hcheck : (d.negative && decide (d.fraction.1 ≠ 0) || decide (d.fraction.2 * pow2 64 ≤ d.fraction.1)) = false := by
    rw [decide_eq_false (not_le.mpr hlt), Bool.or_false]
    rcases hsign with hpositive | hzero
    · rw [hpositive, Bool.false_and]
    · rw [hzero]
      exact Bool.and_false _
  rw [nanoseconds?, hd]
  simp only [hcheck]
  exact ⟨_, rfl⟩

/-- A duration can hold a finite number of seconds below `2 ^ 64`. -/
theorem exists_nanoseconds (hx : Magnitude x q) (hq : q < 2 ^ 64) : ∃ n, nanoseconds? x = some n := by
  have hdyadic := toDyadic?_eq x
  rcases hx.zero_or_fits with ⟨s, hu, -⟩ | ⟨m, e, hm, hu, hfits, rfl⟩
  · rw [hu] at hdyadic
    have hnum : (⟨isNegative s, 0, -1074⟩ : Dyadic).fraction.1 = 0 := rfl
    refine exists_nanoseconds_of_fraction hdyadic (Or.inr hnum) ?_
    rw [hnum]
    exact Nat.mul_pos (Dyadic.fraction_pos _) (pow2_pos 64)
  · rw [hu] at hdyadic
    refine exists_nanoseconds_of_fraction hdyadic (Or.inl rfl) ?_
    have hden : (0 : ℚ) < (⟨isNegative .positive, m, e⟩ : Dyadic).fraction.2 :=
      Nat.cast_pos.mpr (Dyadic.fraction_pos _)
    have hlt : (((⟨isNegative .positive, m, e⟩ : Dyadic).fraction.1 : ℕ) : ℚ) <
        ((⟨isNegative .positive, m, e⟩ : Dyadic).fraction.2 : ℕ) * ((2 ^ 64 : ℕ) : ℚ) := by
      rw [Dyadic.fraction_value, mul_comm]
      push_cast
      exact mul_lt_mul_of_pos_left hq hden
    rw [pow2_eq]
    exact_mod_cast hlt

/-- No duration can hold an infinite number of seconds. -/
theorem nanoseconds_infinity (hx : x.toModel.unpack = .infinity .positive) : nanoseconds? x = none := by
  have hdyadic := toDyadic?_eq x
  rw [hx] at hdyadic
  rw [nanoseconds?, hdyadic]

end RoutingReplay.Binary64
