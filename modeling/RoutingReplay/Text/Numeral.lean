/-
Whole numbers as text: decimal and hexadecimal numerals over lists of characters.

`writeDecimal` and `writeHex` give the shortest numeral; the readers take any number of leading zeros and leave it to
their callers to ask for more (`readOctet?` is the one strict form, for dotted addresses).
-/
namespace RoutingReplay.Text

/-- the value of a digit of either case, if it is below the base -/
def digitValue? (base : Nat) (c : Char) : Option Nat :=
  let v := if '0' ≤ c ∧ c ≤ '9' then c.toNat - 48
    else if 'a' ≤ c ∧ c ≤ 'z' then c.toNat - 87
    else if 'A' ≤ c ∧ c ≤ 'Z' then c.toNat - 55
    else base
  if v < base then some v else none

/-- the value of a run of digits, most significant first, on top of what was read before -/
def readDigits (base : Nat) : Nat → List Char → Option Nat
  | acc, [] => some acc
  | acc, c :: rest =>
    match digitValue? base c with
    | some v => readDigits base (acc * base + v) rest
    | none => none

/-- a numeral: one digit or more and nothing else -/
def readNat? (base : Nat) : List Char → Option Nat
  | [] => none
  | cs => readDigits base 0 cs

/-- a numeral below `bound`, with an optional plus sign in front -/
def readBelow? (base bound : Nat) (cs : List Char) : Option Nat :=
  let digits := match cs with
    | '+' :: rest => rest
    | _ => cs
  match readNat? base digits with
  | some n => if n < bound then some n else none
  | none => none

/-- a decimal numeral from 0 to 255 that has no needless zero in front -/
def readOctet? (cs : List Char) : Option Nat :=
  match readNat? 10 cs with
  | some n => if n < 256 ∧ (cs.length = 1 ∨ cs.head? ≠ some '0') then some n else none
  | none => none

/-- the shortest decimal numeral -/
def writeDecimal (n : Nat) : List Char := Nat.toDigits 10 n

/-- the shortest hexadecimal numeral, in lower case -/
def writeHex (n : Nat) : List Char := Nat.toDigits 16 n

/-- a decimal numeral filled up with zeros to a width -/
def writePadded (width n : Nat) : List Char :=
  let ds := writeDecimal n
  List.replicate (width - ds.length) '0' ++ ds

end RoutingReplay.Text
