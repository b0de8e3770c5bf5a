/-
Binary64 operations that round nothing.

An operation takes its operands apart, computes exactly, rounds and puts the result together again. Taking a number
apart and putting it together changes nothing (`pack_unpack`), and rounding leaves alone what fits (`round_shifted`).
So a number times one is that number (`mul_one`), and a penalty stays what it is while no time passes.
-/
import Mathlib
import RoutingReplay.Proofs.Binary64.Comparison

namespace RoutingReplay.Binary64

open Float.Model
open UnpackedFloat (Sign ExtendedMantissa unpackSign unpackExponent unpackMantissa packComponents roundWithAccuracy
  shiftToTargetExponent shiftToExponent)

/-! ## Taking numbers apart and putting them together -/

theorem toBitVec_ofBitVec (v : BitVec 1) : (Sign.ofBitVec v).toBitVec = v := by
  unfold Sign.ofBitVec
  split_ifs with hzero
  · exact hzero.symm
  · refine BitVec.eq_of_toNat_eq ?_
    have hne : v.toNat ≠ 0 := fun e => hzero (BitVec.eq_of_toNat_eq e)
    have hlt : v.toNat < 2 := v.isLt
    simp only [Sign.toBitVec, BitVec.toNat_ofNat]
    omega

theorem ofBitVec_toBitVec (s : Sign) : Sign.ofBitVec s.toBitVec = s := by
  cases s <;> rfl

/-- Bits are their sign, exponent and significand put together. -/
theorem packComponents_unpack (b : Bits) :
    packComponents Format.binary64 (Sign.ofBitVec (unpackSign b)) (unpackExponent b) (unpackMantissa b) = b := by
  rw [packComponents, toBitVec_ofBitVec]
  ext i hi
  simp only [unpackSign, unpackExponent, unpackMantissa]
  grind

theorem unpackSign_packComponents (s : Sign) (exponent : BitVec Format.binary64.exponentBits)
    (fraction : BitVec Format.binary64.mantissaBitsWithoutImplicit) :
    unpackSign (packComponents Format.binary64 s exponent fraction) = s.toBitVec := by
  ext i hi
  simp only [unpackSign, packComponents]
  grind

/-- what the exponent field adds to the exponent of the last place -/
theorem bias_eq : ((Format.binary64.exponentBias : Nat) : Int) + (Format.binary64.mantissaBitsWithoutImplicit : Nat) =
    1075 := rfl

/-- a significand and an exponent that binary64 has, subnormal or normal -/
def Fits (m : Nat) (e : Int) : Prop :=
  m < 2 ^ 52 ∧ e = -1074 ∨ (2 ^ 52 ≤ m ∧ m < 2 ^ 53) ∧ -1074 ≤ e ∧ e ≤ 971

theorem log2_eq {m k : Nat} (hlow : 2 ^ k ≤ m) (hhigh : m < 2 ^ (k + 1)) : m.log2 = k :=
  (Nat.log2_eq_iff (Nat.ne_of_gt (Nat.lt_of_lt_of_le (Nat.two_pow_pos k) hlow))).mpr ⟨hlow, hhigh⟩

/-- what stands in the bits of a finite number -/
theorem fits_of_unpack {b : Bits} {s : Sign} {m : Nat} {e : Int} {hm : 0 < m}
    (h : UnpackedFloat.unpack Format.binary64 b = .finite s m e hm) : Fits m e := by
  have hbias := bias_eq
  have hfraction : (unpackMantissa b).toNat < 2 ^ 52 := (unpackMantissa b).isLt
  have hexponent : (unpackExponent b).toNat < 2048 := (unpackExponent b).isLt
  simp only [UnpackedFloat.unpack, hbias] at h
  split_ifs at h with hall hfrac hzero hfrac
  · -- subnormal
    simp only [UnpackedFloat.finite.injEq] at h
    obtain ⟨-, rfl, rfl⟩ := h
    refine Or.inl ⟨hfraction, ?_⟩
    rw [hzero]
    rfl
  · -- normal
    simp only [UnpackedFloat.finite.injEq] at h
    obtain ⟨-, rfl, rfl⟩ := h
    have hne : (unpackExponent b).toNat ≠ 0 := fun e => hzero (BitVec.eq_of_toNat_eq e)
    have hlt : (unpackExponent b).toNat ≠ 2047 := fun e => hall (BitVec.eq_of_toNat_eq e)
    rw [Fits, toNat_one_append]
    omega

theorem pack_subnormal (s : Sign) {m : Nat} (hm : 0 < m) (hlt : m < 2 ^ 52) :
    UnpackedFloat.pack Format.binary64 (.finite s m (-1074) hm) =
      packComponents Format.binary64 s 0#_ (BitVec.ofNat _ m) := by
  have hlog : m.log2 + 1 ≠ Format.binary64.mantissaBits := by
    have : m.log2 < 52 := (Nat.log2_lt hm.ne').mpr hlt
    have : Format.binary64.mantissaBits = 53 := rfl
    omega
  have hbiased :
      (-1074 + (Format.binary64.exponentBias : Int) + (Format.binary64.mantissaBitsWithoutImplicit : Nat)).toNat = 1 :=
    rfl
  simp only [UnpackedFloat.pack, hbiased, hlog, if_false]
  rfl

theorem pack_normal (s : Sign) {m : Nat} {e : Int} (hm : 0 < m) (hlow : 2 ^ 52 ≤ m) (hhigh : m < 2 ^ 53)
    (hmin : -1074 ≤ e) (hmax : e ≤ 971) :
    UnpackedFloat.pack Format.binary64 (.finite s m e hm) =
      packComponents Format.binary64 s (BitVec.ofNat _ (e + 1075).toNat) (BitVec.ofNat _ m) := by
  have hlog : m.log2 + 1 = Format.binary64.mantissaBits := by rw [log2_eq hlow hhigh]; rfl
  have hbiased :
      (e + (Format.binary64.exponentBias : Int) + (Format.binary64.mantissaBitsWithoutImplicit : Nat)).toNat =
        (e + 1075).toNat := by
    rw [Int.add_assoc, bias_eq]
  have hrange : ¬ 2 ^ Format.binary64.exponentBits ≤ (e + 1075).toNat + 1 := by
    have : 2 ^ Format.binary64.exponentBits = 2048 := rfl
    omega
  simp only [UnpackedFloat.pack, hbiased, hlog, hrange, if_true, if_false]

theorem unpack_packComponents_subnormal (s : Sign) {m : Nat} (hm : 0 < m) (hlt : m < 2 ^ 52) :
    UnpackedFloat.unpack Format.binary64 (packComponents Format.binary64 s 0#_ (BitVec.ofNat _ m)) =
      .finite s m (-1074) hm := by
  have hbias := bias_eq
  have hnat : (BitVec.ofNat 52 m).toNat = m := by rw [BitVec.toNat_ofNat, Nat.mod_eq_of_lt hlt]
  have hne : BitVec.ofNat 52 m ≠ 0#_ := fun h => hm.ne' (hnat ▸ congrArg BitVec.toNat h)
  have hall : (0#11 : BitVec 11) ≠ -1#_ := by decide
  simp only [UnpackedFloat.unpack, UnpackedFloat.unpackExponent_packComponents,
    UnpackedFloat.unpackMantissa_packComponents, unpackSign_packComponents, ofBitVec_toBitVec, hbias, hall, hne, hnat,
    if_false, if_true, dite_false]
  rfl

theorem unpack_packComponents_normal (s : Sign) {m : Nat} {e : Int} (hm : 0 < m) (hlow : 2 ^ 52 ≤ m)
    (hhigh : m < 2 ^ 53) (hmin : -1074 ≤ e) (hmax : e ≤ 971) :
    UnpackedFloat.unpack Format.binary64
      (packComponents Format.binary64 s (BitVec.ofNat _ (e + 1075).toNat) (BitVec.ofNat _ m)) = .finite s m e hm := by
  have hbias := bias_eq
  have hfield : (BitVec.ofNat 11 (e + 1075).toNat).toNat = (e + 1075).toNat := by
    rw [BitVec.toNat_ofNat, Nat.mod_eq_of_lt (by omega)]
  have hall : BitVec.ofNat 11 (e + 1075).toNat ≠ -1#_ := by
    intro h
    have hlast : (e + 1075).toNat = 2047 := hfield ▸ congrArg BitVec.toNat h
    omega
  have hzero : BitVec.ofNat 11 (e + 1075).toNat ≠ 0#_ := by
    intro h
    have hfirst : (e + 1075).toNat = 0 := hfield ▸ congrArg BitVec.toNat h
    omega
  have hsignificand : (1#1 ++ BitVec.ofNat 52 m).toNat = m := by
    rw [toNat_one_append, BitVec.toNat_ofNat]
    omega
  have hexponent : ((e + 1075).toNat : Int) - 1075 = e := by omega
  simp only [UnpackedFloat.unpack, UnpackedFloat.unpackExponent_packComponents,
    UnpackedFloat.unpackMantissa_packComponents, unpackSign_packComponents, ofBitVec_toBitVec, hbias, hall, hzero,
    hsignificand, hfield, hexponent, if_false]

/-- Unpacking undoes packing, for what fits. -/
theorem unpack_pack_of_fits (s : Sign) {m : Nat} {e : Int} (h : Fits m e) (hm : 0 < m) :
    (pack (.finite s m e hm)).unpack = .finite s m e hm := by
  change UnpackedFloat.unpack Format.binary64 (UnpackedFloat.pack Format.binary64 (.finite s m e hm)) = _
  rcases h with ⟨hlt, rfl⟩ | ⟨⟨hlow, hhigh⟩, hmin, hmax⟩
  · rw [pack_subnormal s hm hlt, unpack_packComponents_subnormal s hm hlt]
  · rw [pack_normal s hm hlow hhigh hmin hmax, unpack_packComponents_normal s hm hlow hhigh hmin hmax]

/-- What is too large overflows. -/
theorem unpack_pack_of_overflow (s : Sign) {m : Nat} {e : Int} (he : 971 < e) (hm : 0 < m) :
    (pack (.finite s m e hm)).unpack = .infinity s := by
  have hrange : 2 ^ Format.binary64.exponentBits ≤
      (e + (Format.binary64.exponentBias : Int) + (Format.binary64.mantissaBitsWithoutImplicit : Nat)).toNat + 1 := by
    have hpow : 2 ^ Format.binary64.exponentBits = 2048 := rfl
    rw [Int.add_assoc, bias_eq, hpow]
    omega
  change UnpackedFloat.unpack Format.binary64 (UnpackedFloat.pack Format.binary64 (.finite s m e hm)) = _
  simp only [UnpackedFloat.pack, hrange, if_true]
  cases s <;> rfl

theorem pack_unpack_of_valid {b : Bits} (hvalid : Format.binary64.Valid b) :
    UnpackedFloat.pack Format.binary64 (UnpackedFloat.unpack Format.binary64 b) = b := by
  have hbias := bias_eq
  have hfraction : (unpackMantissa b).toNat < 2 ^ 52 := (unpackMantissa b).isLt
  have hexponent : (unpackExponent b).toNat < 2048 := (unpackExponent b).isLt
  have hself := packComponents_unpack b
  simp only [UnpackedFloat.unpack, hbias]
  split_ifs with hall hfrac hzero hfrac
  · -- infinite
    rwa [hall, hfrac] at hself
  · -- not a number
    exact (hvalid.eq_packedNaN hall hfrac).symm
  · -- zero
    rwa [hzero, hfrac] at hself
  · -- subnormal
    have he : ((unpackExponent b).toNat : Int) - 1075 + 1 = -1074 := by rw [hzero]; rfl
    simp only [he]
    rw [pack_subnormal _ _ hfraction, BitVec.ofNat_toNat, BitVec.setWidth_eq, ← hzero]
    exact hself
  · -- normal
    have hne : (unpackExponent b).toNat ≠ 0 := fun e => hzero (BitVec.eq_of_toNat_eq e)
    have hlt : (unpackExponent b).toNat ≠ 2047 := fun e => hall (BitVec.eq_of_toNat_eq e)
    have he : (((unpackExponent b).toNat : Int) - 1075 + 1075).toNat = (unpackExponent b).toNat := by omega
    have hm := toNat_one_append (unpackMantissa b)
    have hfrac : BitVec.ofNat 52 (1#1 ++ unpackMantissa b).toNat = unpackMantissa b := by
      refine BitVec.eq_of_toNat_eq ?_
      rw [BitVec.toNat_ofNat, hm]
      omega
    rw [pack_normal _ _ (by omega) (by omega) (by omega) (by omega), he, hfrac, BitVec.ofNat_toNat, BitVec.setWidth_eq]
    exact hself

/-- Packing undoes unpacking. -/
theorem pack_unpack (x : Float.Model) : pack x.unpack = x := by
  have hbits : UnpackedFloat.pack Format.binary64 (UnpackedFloat.unpack Format.binary64 x.toBits.toBitVec) =
      x.toBits.toBitVec := by
    exact pack_unpack_of_valid x.valid
  cases x with
  | mk bits valid => simp [pack, unpack, hbits]

/-! ## Rounding what fits -/

theorem shiftRight_exact (m n : Nat) :
    (⟨m * 2 ^ n, false, false⟩ : ExtendedMantissa) >>> n = ⟨m, false, false⟩ := by
  change n.repeat ExtendedMantissa.shiftRightOne _ = _
  induction n generalizing m with
  | zero => simp [Nat.repeat]
  | succ n ih =>
    have hm : m * 2 ^ (n + 1) = (m * 2) * 2 ^ n := by ring
    rw [Nat.repeat, hm, ih]
    simp [ExtendedMantissa.shiftRightOne]

/-- a significand and an exponent as binary64 would have them if exponents had no upper bound -/
def Canonical (m : Nat) (e : Int) : Prop := m < 2 ^ 53 ∧ -1074 ≤ e ∧ (2 ^ 52 ≤ m ∨ e = -1074)

theorem fits_iff {m : Nat} {e : Int} : Fits m e ↔ Canonical m e ∧ e ≤ 971 := by
  unfold Fits Canonical
  omega

theorem Fits.canonical {m : Nat} {e : Int} (h : Fits m e) : Canonical m e := (fits_iff.mp h).1

theorem targetExponent_eq {m : Nat} {e : Int} (h : Canonical m e) (hm : 0 < m) :
    Format.binary64.targetExponent (totalExponent m e) = e := by
  have hbits : Format.binary64.mantissaBits = 53 := rfl
  have hmin : Format.binary64.minExponent = -1074 := rfl
  have hlog : m.log2 < 53 := (Nat.log2_lt hm.ne').mpr h.1
  rw [Format.targetExponent, totalExponent, hbits, hmin]
  rcases h.2.2 with hlow | rfl
  · have hlow' : 52 ≤ m.log2 := (Nat.le_log2 hm.ne').mpr hlow
    have := h.2.1
    omega
  · omega

theorem totalExponent_shifted {m : Nat} (hm : 0 < m) (e : Int) (n : Nat) :
    totalExponent (m * 2 ^ n) (e - n) = totalExponent m e := by
  have hlow : 2 ^ (m.log2 + n) ≤ m * 2 ^ n := by
    rw [Nat.pow_add]
    exact Nat.mul_le_mul_right _ (Nat.log2_self_le hm.ne')
  have hhigh : m * 2 ^ n < 2 ^ (m.log2 + n + 1) := by
    rw [Nat.add_right_comm, Nat.pow_add]
    exact Nat.mul_lt_mul_of_pos_right Nat.lt_log2_self (Nat.two_pow_pos n)
  rw [totalExponent, totalExponent, log2_eq hlow hhigh]
  omega

theorem shift_shifted {m : Nat} {e : Int} (h : Canonical m e) (hm : 0 < m) (n : Nat) :
    shiftToTargetExponent Format.binary64 (m * 2 ^ n) (e - n) .exact = (⟨m, false, false⟩, e) := by
  have hshift : (e - (e - n)).toNat = n := by omega
  simp only [shiftToTargetExponent, shiftToExponent, totalExponent_shifted hm, targetExponent_eq h hm, hshift,
    ExtendedMantissa.ofMantissaAndAccuracy, shiftRight_exact]
  simp

/-- Rounding leaves alone what fits, however it is written. -/
theorem round_shifted (s : Sign) {m : Nat} {e : Int} (h : Canonical m e) (hm : 0 < m) (n : Nat) :
    roundWithAccuracy Format.binary64 s (m * 2 ^ n) (e - n) .exact = .finite s m e hm := by
  have hagain : shiftToTargetExponent Format.binary64 m e .exact = (⟨m, false, false⟩, e) := by
    simpa using shift_shifted h hm 0
  have hrounded : ExtendedMantissa.roundedMantissa ⟨m, false, false⟩ = m := rfl
  simp only [roundWithAccuracy, shift_shifted h hm n, hrounded, hagain, hm.ne', dif_neg, not_false_eq_true]

/-- A number times one is that number. -/
theorem mul_one (x : Float) : x * 1 = x := by
  have hone : (1 : Float).toModel.unpack = .finite .positive 4503599627370496 (-52) (by decide) := by rfl
  have hmul : UnpackedFloat.mul Format.binary64 x.toModel.unpack (1 : Float).toModel.unpack = x.toModel.unpack := by
    rw [hone]
    cases hx : x.toModel.unpack with
    | notANumber => rfl
    | infinity s => cases s <;> rfl
    | zero s => cases s <;> rfl
    | finite s m e hm =>
      have hsign : s * .positive = s := by cases s <;> rfl
      simp only [UnpackedFloat.mul, hsign]
      exact round_shifted s (fits_of_unpack hx).canonical hm 52
  change Float.ofModel (pack (UnpackedFloat.mul Format.binary64 x.toModel.unpack (1 : Float).toModel.unpack)) = x
  rw [hmul, pack_unpack]

/-! ## Nothing decays in no time -/

theorem unpack_ofBits {n : UInt64} (hvalid : Format.binary64.Valid n.toBitVec) :
    (Float.ofBits n).toModel.unpack = UnpackedFloat.unpack Format.binary64 n.toBitVec := by
  change UnpackedFloat.unpack Format.binary64
    (UnpackedFloat.pack Format.binary64 (UnpackedFloat.unpack Format.binary64 n.toBitVec)) = _
  rw [pack_unpack_of_valid hvalid]

/-- a number that is neither zero nor NaN -/
def Nonzero (u : UnpackedFloat) : Prop := (∃ s, u = .infinity s) ∨ ∃ s m e hm, u = .finite s m e hm

/-- a number with a normal exponent is neither zero nor NaN -/
theorem nonzero_of_exponent {n : Nat} (hlow : pow2 52 ≤ n) (hhigh : n < 2047 * pow2 52) :
    Nonzero (Float.ofBits (UInt64.ofNat n)).toModel.unpack := by
  have hpow : pow2 52 = 4503599627370496 := rfl
  rw [hpow] at hlow hhigh
  have hn : (UInt64.ofNat n).toBitVec.toNat = n := by
    change n % 2 ^ 64 = n
    omega
  have hfield := toNat_unpackExponent (UInt64.ofNat n).toBitVec
  rw [hn, hpow] at hfield
  have hall : @unpackExponent Format.binary64 (UInt64.ofNat n).toBitVec ≠ -1#_ := by
    intro hall
    have hlast : 2047 = n / 4503599627370496 % 2048 := by
      rw [hall] at hfield
      exact hfield
    omega
  have hzero : @unpackExponent Format.binary64 (UInt64.ofNat n).toBitVec ≠ 0#_ := by
    intro hzero
    have hfirst : 0 = n / 4503599627370496 % 2048 := by
      rw [hzero] at hfield
      exact hfield
    omega
  rw [unpack_ofBits ⟨fun h => absurd h hall⟩]
  simp only [UnpackedFloat.unpack, hall, hzero, if_false]
  exact Or.inr ⟨_, _, _, _, rfl⟩

theorem binaryExponent_one (n : Nat) : -1 ≤ binaryExponent n 1 := by
  have hlog : Nat.log2 1 = 0 := rfl
  simp only [binaryExponent, hlog]
  split_ifs <;> omega

theorem nonzero_bits {k : Nat} (hk : 0 < k) (significand : Nat) :
    Nonzero (if k * pow2 52 + significand < 2047 * pow2 52 then Float.ofBits (UInt64.ofNat (k * pow2 52 + significand))
      else Float.ofBits 0x7ff0000000000000).toModel.unpack := by
  split
  · rename_i hfinite
    exact nonzero_of_exponent (Nat.le_trans (Nat.le_mul_of_pos_left _ hk) (Nat.le_add_right _ _)) hfinite
  · exact Or.inl ⟨.positive, by rfl⟩

/-- whole numbers other than zero are neither zero nor NaN when they are rounded -/
theorem nonzero_nearest {n : Nat} (hn : n ≠ 0) : Nonzero (nearest n 1).toModel.unpack := by
  have hexponent := binaryExponent_one n
  have hunit : 0 < (max (binaryExponent n 1 - 52) (-1074) + 1074).toNat := by omega
  simp only [nearest, hn, if_false]
  exact nonzero_bits hunit _

/-- zero divided by any other number is zero -/
theorem exists_zero_div {x y : Float} (hx : ∃ s, x.toModel.unpack = .zero s) (hy : Nonzero y.toModel.unpack) :
    ∃ s, x / y = Float.ofModel (pack (.zero s)) := by
  obtain ⟨s, hx⟩ := hx
  change ∃ s, Float.ofModel (pack (UnpackedFloat.div Format.binary64 x.toModel.unpack y.toModel.unpack)) = _
  rw [hx]
  rcases hy with ⟨t, hy⟩ | ⟨t, m, e, hm, hy⟩
  · exact ⟨s / t, by rw [hy]; rfl⟩
  · exact ⟨s / t, by rw [hy]; rfl⟩

theorem exp2_zero (s : Sign) : exp2 (Float.ofModel (pack (.zero s))) = 1 := by
  cases s <;> decide +kernel

instance : Damping.IdleDecay Float where
  decay_idle := by
    intro p halfLife hlife hp
    have helapsed : ∃ s, (-PenaltyArithmetic.seconds ⟨0⟩ : Float).toModel.unpack = .zero s := ⟨.negative, by rfl⟩
    obtain ⟨s, hquotient⟩ := exists_zero_div helapsed (nonzero_nearest fun e => hlife (UInt32.toNat_inj.mp e))
    have hone : exp2 (-PenaltyArithmetic.seconds ⟨0⟩ / nearest halfLife.toNat 1) = 1 := by
      rw [hquotient]
      exact exp2_zero s
    change PenaltyArithmetic.larger (p * exp2 (-PenaltyArithmetic.seconds ⟨0⟩ / nearest halfLife.toNat 1)) _ = p
    rw [hone, mul_one]
    exact Damping.larger_zero_eq_self hp

end RoutingReplay.Binary64
