/-
Binary64 comparisons as a total order on numbers.

Every binary64 number but NaN has a rank among the infinities, the zeros and the finite numbers: first the kind and the
sign, then the exponent, then the significand. Two numbers compare as their ranks do, and NaN compares with nothing, so
the laws that the damping engine asks for are those of a linear order.
-/
import Mathlib
import RoutingReplay.Proofs.Damping.PenaltyOrder

namespace RoutingReplay.Binary64

open Float.Model

/-- the bits of a number -/
abbrev Bits := BitVec Format.binary64.numBits

/-! ## Ranks -/

/-- kind and sign, exponent and significand -/
abbrev Rank := ℤ ×ₗ ℤ ×ₗ ℤ

/-- the place of a number in the order; NaN has none -/
def rank : UnpackedFloat → Option Rank
  | .notANumber => none
  | .infinity .positive => some (toLex (2, toLex (0, 0)))
  | .infinity .negative => some (toLex (-2, toLex (0, 0)))
  | .zero _ => some (toLex (0, toLex (0, 0)))
  | .finite .positive m e _ => some (toLex (1, toLex (e, m)))
  | .finite .negative m e _ => some (toLex (-1, toLex (-e, -m)))

theorem compare_toLex {α β : Type} [LinearOrder α] [LinearOrder β] (a b : α) (x y : β) :
    compare (toLex (a, x)) (toLex (b, y)) = (compare a b).then (compare x y) := rfl

theorem compare_cast (m n : ℕ) : compare (m : ℤ) n = compare m n := by
  rcases lt_trichotomy m n with h | rfl | h
  · rw [compare_lt_iff_lt.mpr h, compare_lt_iff_lt]
    exact_mod_cast h
  · simp
  · rw [compare_gt_iff_gt.mpr h, compare_gt_iff_gt]
    exact_mod_cast h

theorem compare_neg (a b : ℤ) : compare (-a) (-b) = (compare a b).swap := by
  rcases lt_trichotomy a b with h | rfl | h
  · rw [compare_lt_iff_lt.mpr h, Ordering.swap_lt, compare_gt_iff_gt]
    omega
  · simp
  · rw [compare_gt_iff_gt.mpr h, Ordering.swap_gt, compare_lt_iff_lt]
    omega

/-- Numbers compare as their ranks do. -/
theorem compare_eq_compare_rank (u v : UnpackedFloat) :
    u.compare v = (rank u).bind fun a => (rank v).map fun b => compare a b := by
  cases u with
  | notANumber => rfl
  | infinity s =>
    cases v with
    | infinity t => cases s <;> cases t <;> rfl
    | notANumber => cases s <;> rfl
    | zero t => cases s <;> rfl
    | finite t => cases s <;> cases t <;> rfl
  | zero s =>
    cases v with
    | infinity t => cases t <;> rfl
    | notANumber => rfl
    | zero t => rfl
    | finite t => cases t <;> rfl
  | finite s m e hm =>
    cases v with
    | infinity t => cases s <;> cases t <;> rfl
    | notANumber => cases s <;> rfl
    | zero t => cases s <;> rfl
    | finite t n f hn =>
      cases s <;> cases t
      · simp [UnpackedFloat.compare, rank, compare_toLex, compare_neg, compare_cast, Ordering.swap_then]
      · rfl
      · rfl
      · simp [UnpackedFloat.compare, rank, compare_toLex, compare_cast]

/-! ## Comparisons -/

theorem le_iff {a b : Float} :
    a ≤ b ↔ ∃ x y, rank a.toModel.unpack = some x ∧ rank b.toModel.unpack = some y ∧ x ≤ y := by
  have hle : a ≤ b ↔ a.toModel.unpack.le b.toModel.unpack = true := decide_eq_true_iff
  rw [hle, UnpackedFloat.le, compare_eq_compare_rank]
  cases rank a.toModel.unpack with
  | none => simp
  | some x =>
    cases rank b.toModel.unpack with
    | none => simp
    | some y => simp [Ordering.isLE_iff_ne_gt, compare_le_iff_le]

theorem lt_iff {a b : Float} :
    a < b ↔ ∃ x y, rank a.toModel.unpack = some x ∧ rank b.toModel.unpack = some y ∧ x < y := by
  have hlt : a < b ↔ a.toModel.unpack.lt b.toModel.unpack = true := decide_eq_true_iff
  rw [hlt, UnpackedFloat.lt, compare_eq_compare_rank]
  cases rank a.toModel.unpack with
  | none => simp
  | some x =>
    cases rank b.toModel.unpack with
    | none => simp
    | some y => simp [compare_lt_iff_lt]

/-- the exponent field of a bit pattern -/
theorem toNat_unpackExponent (b : Bits) :
    (@UnpackedFloat.unpackExponent Format.binary64 b).toNat = b.toNat / pow2 52 % 2048 := by
  simp only [UnpackedFloat.unpackExponent, BitVec.toNat_cast, BitVec.extractLsb_toNat, Nat.shiftRight_eq_div_pow]
  rfl

/-- the significand of a normal number with its leading place -/
theorem toNat_one_append (f : BitVec 52) : (1#1 ++ f).toNat = 2 ^ 52 + f.toNat := by
  rw [BitVec.toNat_append, ← Nat.shiftLeft_add_eq_or_of_lt f.isLt]
  rfl

/-- bits whose exponent field is not the last one hold a zero or a finite number -/
theorem unpack_of_exponent {b : Bits} (h : @UnpackedFloat.unpackExponent Format.binary64 b ≠ -1#_) :
    (∃ s, UnpackedFloat.unpack Format.binary64 b = .zero s) ∨
      ∃ s m e hm, UnpackedFloat.unpack Format.binary64 b = .finite s m e hm := by
  simp only [UnpackedFloat.unpack, h, if_false]
  split_ifs with hzero hfraction
  · exact Or.inl ⟨_, rfl⟩
  · exact Or.inr ⟨_, _, _, Nat.pos_of_ne_zero fun e => hfraction (BitVec.eq_of_toNat_eq e), rfl⟩
  · exact Or.inr ⟨_, _, _, by rw [toNat_one_append]; omega, rfl⟩

theorem exists_rank_finite (s : UnpackedFloat.Sign) {m : ℕ} {e : ℤ} (hm : 0 < m) :
    ∃ r, rank (.finite s m e hm) = some r := by
  cases s <;> exact ⟨_, rfl⟩

theorem exists_rank_of_exponent {b : Bits}
    (h : @UnpackedFloat.unpackExponent Format.binary64 b ≠ -1#_) :
    ∃ r, rank (UnpackedFloat.unpack Format.binary64 b) = some r := by
  rcases unpack_of_exponent h with ⟨s, hzero⟩ | ⟨s, m, e, hm, hfinite⟩
  · exact ⟨_, congrArg rank hzero⟩
  · exact hfinite ▸ exists_rank_finite s hm

theorem exponent_of_isFinite {x : Float} (h : (toDyadic? x).isSome = true) :
    @UnpackedFloat.unpackExponent Format.binary64 x.toModel.toBits.toBitVec ≠ -1#_ := by
  intro hexponent
  have hall := toNat_unpackExponent x.toModel.toBits.toBitVec
  rw [hexponent] at hall
  have hfield : x.toBits.toNat / pow2 52 % 2048 = 2047 := hall.symm
  simp [toDyadic?, hfield] at h

/-! ## Sums -/

/-- rounding never results in NaN -/
theorem exists_rank_pack {u : UnpackedFloat} (hu : u ≠ .notANumber) : ∃ r, rank (pack u).unpack = some r := by
  cases u with
  | notANumber => exact absurd rfl hu
  | infinity s => cases s <;> exact ⟨_, rfl⟩
  | zero s => cases s <;> exact ⟨_, rfl⟩
  | finite s m e hm =>
    change ∃ r, rank (UnpackedFloat.unpack Format.binary64
      (UnpackedFloat.pack Format.binary64 (.finite s m e hm))) = some r
    simp only [UnpackedFloat.pack]
    split_ifs with hrange hnormal
    · cases s <;> exact ⟨_, rfl⟩
    · refine exists_rank_of_exponent ?_
      rw [UnpackedFloat.unpackExponent_packComponents]
      intro hall
      have hlast :
          (e + Format.binary64.exponentBias + Format.binary64.mantissaBitsWithoutImplicit).toNat % 2048 = 2047 :=
        congrArg BitVec.toNat hall
      have hlow :
          ¬ 2048 ≤ (e + Format.binary64.exponentBias + Format.binary64.mantissaBitsWithoutImplicit).toNat + 1 :=
        hrange
      omega
    · refine exists_rank_of_exponent ?_
      rw [UnpackedFloat.unpackExponent_packComponents]
      decide

theorem round_ne_notANumber (s : UnpackedFloat.Sign) (m : ℕ) (e : ℤ) :
    UnpackedFloat.round Format.binary64 s m e ≠ .notANumber := by
  simp only [UnpackedFloat.round, UnpackedFloat.roundWithAccuracy]
  split <;> exact UnpackedFloat.noConfusion

/-- a number and a finite number add up to a number -/
theorem add_ne_notANumber {u v : UnpackedFloat} (hu : u ≠ .notANumber)
    (hv : (∃ s, v = .zero s) ∨ ∃ s m e hm, v = .finite s m e hm) :
    UnpackedFloat.add Format.binary64 u v ≠ .notANumber := by
  rcases hv with ⟨t, rfl⟩ | ⟨t, n, f, hn, rfl⟩
  · cases u with
    | notANumber => exact absurd rfl hu
    | infinity s => exact UnpackedFloat.noConfusion
    | zero s =>
      simp only [UnpackedFloat.add]
      split_ifs <;> exact UnpackedFloat.noConfusion
    | finite s m e hm => exact UnpackedFloat.noConfusion
  · cases u with
    | notANumber => exact absurd rfl hu
    | infinity s => exact UnpackedFloat.noConfusion
    | zero s => exact UnpackedFloat.noConfusion
    | finite s m e hm =>
      simp only [UnpackedFloat.add, UnpackedFloat.normalize]
      split
      · exact round_ne_notANumber _ _ _
      · exact UnpackedFloat.noConfusion
      · exact round_ne_notANumber _ _ _

theorem exists_rank_of_isFinite {x : Float} (h : (toDyadic? x).isSome = true) : ∃ r, rank x.toModel.unpack = some r :=
  exists_rank_of_exponent (exponent_of_isFinite h)

instance : Damping.PenaltyOrder Float where
  zero_le_zero := by decide +kernel
  self_of_isFinite := by
    intro a ha
    obtain ⟨x, hx⟩ := exists_rank_of_isFinite ha
    exact le_iff.mpr ⟨x, x, hx, hx, le_rfl⟩
  self_of_le := by
    intro a b hab
    obtain ⟨x, y, hx, hy, -⟩ := le_iff.mp hab
    exact ⟨le_iff.mpr ⟨x, x, hx, hx, le_rfl⟩, le_iff.mpr ⟨y, y, hy, hy, le_rfl⟩⟩
  le_trans := by
    intro a b c hab hbc
    obtain ⟨x, y, hx, hy, hxy⟩ := le_iff.mp hab
    obtain ⟨y', z, hy', hz, hyz⟩ := le_iff.mp hbc
    obtain rfl : y = y' := Option.some.inj (hy.symm.trans hy')
    exact le_iff.mpr ⟨x, z, hx, hz, hxy.trans hyz⟩
  le_total := by
    intro a b ha hb
    obtain ⟨x, -, hx, -, -⟩ := le_iff.mp ha
    obtain ⟨y, -, hy, -, -⟩ := le_iff.mp hb
    rcases le_total x y with hxy | hyx
    · exact Or.inl (le_iff.mpr ⟨x, y, hx, hy, hxy⟩)
    · exact Or.inr (le_iff.mpr ⟨y, x, hy, hx, hyx⟩)
  add_self := by
    intro a b ha hb
    obtain ⟨x, -, hx, -, -⟩ := le_iff.mp ha
    have hne : a.toModel.unpack ≠ .notANumber := fun e => by
      rw [e] at hx
      cases hx
    obtain ⟨r, hr⟩ := exists_rank_pack (add_ne_notANumber hne (unpack_of_exponent (exponent_of_isFinite hb)))
    exact le_iff.mpr ⟨r, r, hr, hr, le_rfl⟩
  lt_iff := by
    intro a b
    constructor
    · intro hlt
      obtain ⟨x, y, hx, hy, hxy⟩ := lt_iff.mp hlt
      refine ⟨le_iff.mpr ⟨x, y, hx, hy, hxy.le⟩, fun hba => ?_⟩
      obtain ⟨y', x', hy', hx', hyx⟩ := le_iff.mp hba
      obtain rfl : x = x' := Option.some.inj (hx.symm.trans hx')
      obtain rfl : y = y' := Option.some.inj (hy.symm.trans hy')
      exact absurd hxy hyx.not_gt
    · rintro ⟨hab, hba⟩
      obtain ⟨x, y, hx, hy, -⟩ := le_iff.mp hab
      refine lt_iff.mpr ⟨x, y, hx, hy, lt_of_not_ge fun hyx => hba ?_⟩
      exact le_iff.mpr ⟨y, x, hy, hx, hyx⟩

end RoutingReplay.Binary64
