/-
Numerals read back.

A written numeral is the shortest one: it is not empty, it has digits of its base only, and it starts with a zero only
if the number is zero. So every reader of numerals takes it, the strict one included, and gives back the number
(`readNat?_writeDecimal`, `readNat?_writeHex`).
-/
import Mathlib.Data.List.Basic
import RoutingReplay.Text.Numeral

namespace RoutingReplay.Text

/-! ## Digits -/

theorem digitValue?_digitChar {base d : Nat} (hd : d < base) (hbase : base ≤ 16) :
    digitValue? base d.digitChar = some d := by
  have values : ∀ base ≤ 16, ∀ d < base, digitValue? base d.digitChar = some d := by decide
  exact values base hbase d hd

/-- Digits are figures and letters. -/
theorem toNat_of_isSome_digitValue? {base : Nat} {c : Char} (h : (digitValue? base c).isSome = true) :
    48 ≤ c.toNat ∧ c.toNat ≤ 57 ∨ 65 ≤ c.toNat ∧ c.toNat ≤ 90 ∨ 97 ≤ c.toNat ∧ c.toNat ≤ 122 := by
  simp only [digitValue?, Char.le_def, UInt32.le_iff_toNat_le] at h
  split at h
  · rename_i hrange
    exact Or.inl hrange
  · split at h
    · rename_i hrange
      exact Or.inr (Or.inr hrange)
    · split at h
      · rename_i hrange
        exact Or.inr (Or.inl hrange)
      · simp at h

theorem readDigits_append (base acc : Nat) (cs ds : List Char) :
    readDigits base acc (cs ++ ds) = (readDigits base acc cs).bind fun acc => readDigits base acc ds := by
  induction cs generalizing acc with
  | nil => rfl
  | cons c rest ih =>
    simp only [List.cons_append, readDigits]
    cases digitValue? base c with
    | none => rfl
    | some v => exact ih (acc * base + v)

/-- A text that is read as digits holds digits only. -/
theorem isSome_digitValue?_of_mem {base acc n : Nat} {cs : List Char} (h : readDigits base acc cs = some n) {c : Char}
    (hc : c ∈ cs) : (digitValue? base c).isSome = true := by
  induction cs generalizing acc with
  | nil => cases hc
  | cons d rest ih =>
    rw [readDigits] at h
    cases hd : digitValue? base d with
    | none => rw [hd] at h; cases h
    | some v =>
      rw [hd] at h
      cases List.mem_cons.mp hc with
      | inl heq => rw [heq, hd]; rfl
      | inr hrest => exact ih h hrest

/-! ## Shortest numerals -/

section

variable {base : Nat} (hbase : 1 < base) (hbase' : base ≤ 16)

include hbase hbase'

theorem readDigits_toDigits (n : Nat) : readDigits base 0 (Nat.toDigits base n) = some n := by
  -- The last digit is the remainder, and the digits before it are those of the quotient.
  induction n using Nat.strongRecOn with
  | _ n ih =>
    rw [Nat.toDigits_eq_if hbase]
    split
    · rename_i hsmall
      simp only [readDigits, digitValue?_digitChar hsmall hbase', Nat.zero_mul, Nat.zero_add]
    · rename_i hlarge
      have hquotient : n / base < n := Nat.div_lt_self (by omega) hbase
      have hlast := digitValue?_digitChar (Nat.mod_lt n (by omega : 0 < base)) hbase'
      simp only [readDigits_append, ih _ hquotient, Option.bind_some, readDigits, hlast, Nat.div_add_mod']

theorem readNat?_toDigits (n : Nat) : readNat? base (Nat.toDigits base n) = some n := by
  have hread := readDigits_toDigits hbase hbase' n
  unfold readNat?
  split
  · rename_i hnil
    exact absurd hnil Nat.toDigits_ne_nil
  · exact hread

end

theorem readNat?_writeDecimal (n : Nat) : readNat? 10 (writeDecimal n) = some n :=
  readNat?_toDigits (by decide) (by decide) n

theorem readNat?_writeHex (n : Nat) : readNat? 16 (writeHex n) = some n :=
  readNat?_toDigits (by decide) (by decide) n

theorem writeDecimal_ne_nil (n : Nat) : writeDecimal n ≠ [] := Nat.toDigits_ne_nil

theorem writeHex_ne_nil (n : Nat) : writeHex n ≠ [] := Nat.toDigits_ne_nil

theorem isDigit_of_mem_writeDecimal {n : Nat} {c : Char} (h : c ∈ writeDecimal n) : c.isDigit = true :=
  Nat.isDigit_of_mem_toDigits (by decide) (by decide) h

theorem isSome_digitValue?_of_mem_writeDecimal {n : Nat} {c : Char} (h : c ∈ writeDecimal n) :
    (digitValue? 10 c).isSome = true :=
  isSome_digitValue?_of_mem (readDigits_toDigits (by decide) (by decide) n) h

theorem isSome_digitValue?_of_mem_writeHex {n : Nat} {c : Char} (h : c ∈ writeHex n) :
    (digitValue? 16 c).isSome = true :=
  isSome_digitValue?_of_mem (readDigits_toDigits (by decide) (by decide) n) h

theorem notMem_writeDecimal {c : Char} (hc : c.isDigit = false) (n : Nat) : c ∉ writeDecimal n := by
  intro hmem
  rw [isDigit_of_mem_writeDecimal hmem] at hc
  cases hc

theorem notMem_writeHex {c : Char} (hc : digitValue? 16 c = none) (n : Nat) : c ∉ writeHex n := by
  intro hmem
  have := isSome_digitValue?_of_mem_writeHex hmem
  rw [hc] at this
  cases this

/-- Only zero is written with a zero in front. -/
theorem head?_writeDecimal_ne {n : Nat} (h : n ≠ 0) : (writeDecimal n).head? ≠ some '0' := by
  induction n using Nat.strongRecOn with
  | _ n ih =>
    rw [writeDecimal, Nat.toDigits_eq_if (by decide)]
    split
    · rename_i hsmall
      have : ∀ d < 10, d ≠ 0 → some d.digitChar ≠ some '0' := by decide
      exact this n hsmall h
    · rename_i hlarge
      rw [List.head?_append_of_ne_nil _ Nat.toDigits_ne_nil]
      exact ih (n / 10) (by omega) (by omega)

theorem needless_zero_writeDecimal (n : Nat) :
    (writeDecimal n).length = 1 ∨ (writeDecimal n).head? ≠ some '0' := by
  by_cases h : n = 0
  · subst h
    exact Or.inl rfl
  · exact Or.inr (head?_writeDecimal_ne h)

theorem length_writeHex_le {n : Nat} (h : n < 0x10000) : (writeHex n).length ≤ 4 :=
  (Nat.length_toDigits_le_iff (by decide) (by decide)).mpr h

/-! ## The readers with a bound -/

theorem readOctet?_writeDecimal {n : Nat} (h : n < 256) : readOctet? (writeDecimal n) = some n := by
  simp only [readOctet?, readNat?_writeDecimal, if_pos (And.intro h (needless_zero_writeDecimal n))]

/-- A numeral that is read without a sign is read by the bounded reader alike. -/
theorem readBelow?_of_readNat? {base bound n : Nat} {cs : List Char} (hsign : cs.head? ≠ some '+')
    (hread : readNat? base cs = some n) (h : n < bound) : readBelow? base bound cs = some n := by
  unfold readBelow?
  split
  rotate_left
  · simp only [hread, if_pos h]
  · exact absurd rfl hsign

theorem readBelow?_writeDecimal {bound n : Nat} (h : n < bound) : readBelow? 10 bound (writeDecimal n) = some n := by
  refine readBelow?_of_readNat? (fun hsign => ?_) (readNat?_writeDecimal n) h
  exact notMem_writeDecimal (by decide) n (List.mem_of_mem_head? hsign)

theorem readBelow?_writeHex {bound n : Nat} (h : n < bound) : readBelow? 16 bound (writeHex n) = some n := by
  refine readBelow?_of_readNat? (fun hsign => ?_) (readNat?_writeHex n) h
  exact notMem_writeHex (by decide) n (List.mem_of_mem_head? hsign)

end RoutingReplay.Text
