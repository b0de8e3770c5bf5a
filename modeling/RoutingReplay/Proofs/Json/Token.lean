/-
Texts and whole numbers as tokens of JSON text.

A quoted text is read back whatever characters it holds (`readToken?_writeText`). A whole number that fits into 64 bits
is read back if what follows it does not go on with a number (`readToken?_writeInt`); the numeral has no end of its own.
-/
import RoutingReplay.Json.Reader
import RoutingReplay.Json.Writer
import RoutingReplay.Proofs.Text.Numeral

namespace RoutingReplay.Json

open Text

/-! ## Texts -/

/-- the next code point of a quoted text, and what was read behind it -/
def addUnit (u : Nat) (read : List Nat × List Char) : List Nat × List Char := (u :: read.1, read.2)

theorem readUnits?_escape {e c : Char} (h : shortEscape? e = some c) (rest : List Char) :
    readUnits? ('\\' :: e :: rest) = (readUnits? rest).map (addUnit c.toNat) := by
  rw [readUnits?]
  · rw [h]
    cases readUnits? rest <;> rfl
  · rintro a b c' d rest' rfl
    cases h

/-- The control characters have numerals of two digits at most. -/
theorem control_numeral {n : Nat} (h : n < 32) :
    ∃ a b, List.replicate (2 - (writeHex n).length) '0' ++ writeHex n = [a, b] ∧
      readNat? 16 ['0', '0', a, b] = some n := by
  have hall : ∀ n < 32, (List.replicate (2 - (writeHex n).length) '0' ++ writeHex n).length = 2 ∧
      readNat? 16 ('0' :: '0' :: (List.replicate (2 - (writeHex n).length) '0' ++ writeHex n)) = some n := by decide
  obtain ⟨hlength, hread⟩ := hall n h
  obtain ⟨a, b, hdigits⟩ := List.length_eq_two.mp hlength
  rw [hdigits] at hread
  exact ⟨a, b, hdigits, hread⟩

theorem readUnits?_writeChar (c : Char) (rest : List Char) :
    readUnits? (writeChar c ++ rest) = (readUnits? rest).map (addUnit c.toNat) := by
  unfold writeChar
  split
  case h_8 hquote hbackslash _ _ _ _ _ =>
    split
    · rename_i hcontrol
      obtain ⟨a, b, hdigits, hread⟩ := control_numeral hcontrol
      rw [hdigits]
      simp only [List.cons_append, List.nil_append, readUnits?, hread]
      cases readUnits? rest <;> rfl
    · rename_i hplain
      have hkept : ¬ (c.toNat < 32 ∨ c = '\\') := fun h => h.elim hplain fun heq => hbackslash heq
      rw [List.singleton_append, readUnits?]
      · rw [if_neg hkept]
        rfl
      · exact fun heq => hquote heq
      · intro a b c' d rest' heq
        exact absurd heq hbackslash
      · intro e rest' heq
        exact absurd heq hbackslash
  all_goals exact readUnits?_escape rfl rest

theorem readUnits?_flatMap_writeChar (cs rest : List Char) :
    readUnits? (cs.flatMap writeChar ++ '"' :: rest) = some (cs.map Char.toNat, rest) := by
  induction cs with
  | nil => rfl
  | cons c cs ih =>
    rw [List.flatMap_cons, List.append_assoc, readUnits?_writeChar, ih]
    rfl

/-- Characters are no surrogates. -/
theorem joinUnits?_map_toNat (cs : List Char) : joinUnits? (cs.map Char.toNat) = some cs := by
  have hsurrogate (c : Char) : ¬ (0xd800 ≤ c.toNat ∧ c.toNat < 0xe000) := by
    have hvalid : c.toNat < 0xd800 ∨ 0xdfff < c.toNat ∧ c.toNat < 0x110000 := c.valid
    omega
  induction cs with
  | nil => rfl
  | cons c rest ih =>
    cases rest with
    | nil => rw [List.map_cons, List.map_nil, joinUnits?, if_neg (hsurrogate c), Char.ofNat_toNat]
    | cons next others =>
      have hpair : ¬ (0xd800 ≤ c.toNat ∧ c.toNat < 0xdc00 ∧ 0xdc00 ≤ next.toNat ∧ next.toNat < 0xe000) := by
        have := hsurrogate c
        omega
      rw [List.map_cons] at ih
      rw [List.map_cons, List.map_cons, joinUnits?, if_neg hpair, if_neg (hsurrogate c), ih, Option.map_some,
        Char.ofNat_toNat]

/-- Every text is read back from its quoted form. -/
theorem readToken?_writeText (s : String) (rest : List Char) :
    readToken? (writeText s ++ rest) = some (.text (some s), rest) := by
  rw [writeText, List.cons_append, List.cons_append, List.append_assoc, List.singleton_append, readToken?,
    readUnits?_flatMap_writeChar]
  simp only [Option.map_some, joinUnits?_map_toNat, String.ofList_toList]

/-! ## Whole numbers -/

/-- a text that does not go on with a number in front of it -/
def EndsNumber (cs : List Char) : Prop :=
  ∀ c ∈ cs.head?, c.isDigit = false ∧ c ≠ '.' ∧ c ≠ 'e' ∧ c ≠ 'E'

theorem takeWhile_dropWhile_digits {ds rest : List Char} (hds : ∀ c ∈ ds, c.isDigit = true) (hrest : EndsNumber rest) :
    (ds ++ rest).takeWhile Char.isDigit = ds ∧ (ds ++ rest).dropWhile Char.isDigit = rest := by
  have hnone : rest.takeWhile Char.isDigit = [] ∧ rest.dropWhile Char.isDigit = rest := by
    cases rest with
    | nil => exact ⟨rfl, rfl⟩
    | cons c rest => simp [(hrest c rfl).1]
  rw [List.takeWhile_append_of_pos hds, List.dropWhile_append_of_pos hds, hnone.1, hnone.2, List.append_nil]
  exact ⟨rfl, rfl⟩

theorem not_needless_zero_writeDecimal (k : Nat) :
    ¬ ((writeDecimal k).head? = some '0' ∧ (writeDecimal k).length ≠ 1) := fun ⟨hzero, hlong⟩ =>
  (needless_zero_writeDecimal k).elim hlong fun hne => hne hzero

/-- A numeral is read up to where it ends, with or without a sign in front. -/
theorem readNumber?_writeDecimal (negative : Bool) (k : Nat) {rest : List Char} (hrest : EndsNumber rest) :
    readNumber? ((if negative then ['-'] else []) ++ writeDecimal k ++ rest) =
      some (numberValue negative k true 0, rest) := by
  have hdigits : ∀ c ∈ writeDecimal k, c.isDigit = true := fun c hc => isDigit_of_mem_writeDecimal hc
  obtain ⟨htake, hdrop⟩ := takeWhile_dropWhile_digits hdigits hrest
  unfold readNumber?
  split
  rename_i sign text heq
  have hsign : sign = negative ∧ text = writeDecimal k ++ rest := by
    cases negative with
    | true =>
      cases heq
      exact ⟨rfl, rfl⟩
    | false =>
      split at heq
      · rename_i tail hminus
        have hmem : '-' ∈ writeDecimal k := by
          refine List.mem_of_mem_head? (?_ : (writeDecimal k).head? = some '-')
          rw [← List.head?_append_of_ne_nil _ (writeDecimal_ne_nil k)]
          exact congrArg List.head? hminus
        exact absurd hmem (notMem_writeDecimal (by decide) k)
      · cases heq
        exact ⟨rfl, rfl⟩
  obtain ⟨rfl, rfl⟩ := hsign
  simp only [htake, hdrop, if_neg (not_needless_zero_writeDecimal k)]
  cases rest with
  | nil => simp [readNat?_writeDecimal, readDigits]
  | cons c tail =>
    obtain ⟨-, hdot, hsmall, hcapital⟩ := hrest c rfl
    simp [readNat?_writeDecimal, readDigits, hdot, hsmall, hcapital]

/-- A number that fits into 64 bits is the value of its numeral. -/
theorem numberValue_natAbs {n : Int} (hlow : -0x8000000000000000 ≤ n) (hhigh : n < 0x10000000000000000) :
    numberValue (decide (n < 0)) n.natAbs true 0 = .int n := by
  by_cases hneg : n < 0
  · have habs : -(n.natAbs : Int) = n := by omega
    have hpos : 0 < n.natAbs := by omega
    have hfits : n.natAbs ≤ 0x8000000000000000 := by omega
    simp only [numberValue, hneg, hpos, hfits, habs, decide_true, Bool.not_true, Bool.and_true, Bool.and_false,
      Bool.false_and, Bool.false_eq_true, if_false, if_true]
  · have habs : (n.natAbs : Int) = n := by omega
    have hfits : n.natAbs < 0x10000000000000000 := by omega
    simp only [numberValue, hneg, hfits, habs, decide_true, decide_false, Bool.not_false, Bool.and_true, if_true]

/-- What starts with a sign or a digit is read as a number. -/
theorem readToken?_of_head {c : Char} (hc : c = '-' ∨ c.isDigit = true) (rest : List Char) :
    readToken? (c :: rest) = (readNumber? (c :: rest)).map fun read => (.plain read.1, read.2) := by
  unfold readToken?
  split
  case h_11 => rfl
  all_goals
    rename_i heq
    obtain ⟨rfl, -⟩ := List.cons.inj heq
    exact absurd hc (by decide)

theorem exists_writeInt_cons (n : Int) : ∃ c rest, writeInt n = c :: rest ∧ (c = '-' ∨ c.isDigit = true) := by
  rw [writeInt]
  split
  · exact ⟨'-', _, rfl, Or.inl rfl⟩
  · obtain ⟨c, rest, htext⟩ := List.exists_cons_of_ne_nil (writeDecimal_ne_nil n.natAbs)
    have hc : c ∈ writeDecimal n.natAbs := htext ▸ List.mem_cons_self
    exact ⟨c, rest, htext, Or.inr (isDigit_of_mem_writeDecimal hc)⟩

/-- A whole number that fits into 64 bits is read back. -/
theorem readToken?_writeInt {n : Int} (hlow : -0x8000000000000000 ≤ n) (hhigh : n < 0x10000000000000000)
    {rest : List Char} (hrest : EndsNumber rest) :
    readToken? (writeInt n ++ rest) = some (.plain (.int n), rest) := by
  have hread : readNumber? (writeInt n ++ rest) = some (.int n, rest) := by
    have hwritten := readNumber?_writeDecimal (decide (n < 0)) n.natAbs hrest
    rw [numberValue_natAbs hlow hhigh] at hwritten
    simpa only [writeInt, decide_eq_true_eq] using hwritten
  obtain ⟨c, tail, htext, hc⟩ := exists_writeInt_cons n
  rw [htext, List.cons_append] at hread ⊢
  rw [readToken?_of_head hc, hread]
  rfl

end RoutingReplay.Json
