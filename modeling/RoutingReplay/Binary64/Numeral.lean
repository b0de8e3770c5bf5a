/-
Decimal numerals as numbers.

A `Decimal` is a numeral as it was written: a sign, digits and a power of ten. `Decimal.toFloat` rounds its exact value
once. `Decimal.scaled?` is the rule for numbers in JSON text: only as many leading digits count as fit into 64 bits,
and their value is then multiplied or divided by a power of ten, with a rounding at each step; a number beyond the
range is refused.
-/
import RoutingReplay.Binary64.Round
import RoutingReplay.Text.Numeral

namespace RoutingReplay.Binary64

/-- the numeral `digits * 10 ^ exponent`, with a sign -/
structure Decimal where
  negative : Bool
  digits : Nat
  exponent : Int
  deriving DecidableEq

namespace Decimal

/-- the number nearest to the value of a numeral; far outside the range of binary64 the power of ten is not formed -/
def toFloat (d : Decimal) : Float :=
  let places := (Text.writeDecimal d.digits).length
  if d.digits = 0 ∨ d.exponent + places < -400 then nearestSigned d.negative 0 1
  else if 400 < d.exponent + places then (if d.negative then -infinity else infinity)
  else if 0 ≤ d.exponent then nearestSigned d.negative (d.digits * pow10 d.exponent.toNat) 1
  else nearestSigned d.negative d.digits (pow10 (-d.exponent).toNat)

/-- the longest run of leading digits whose value fits into 64 bits, with the power of ten that it lost -/
def leadingDigits (digits : Nat) : Nat × Nat :=
  let places := (Text.writeDecimal digits).length
  let lost :=
    if digits < pow2 64 then 0
    else if digits / pow10 (places - 20) < pow2 64 then places - 20
    else places - 19
  (digits / pow10 lost, lost)

/-- a power of ten that binary64 can hold, up to the largest -/
def powerOfTen (n : Nat) : Float := nearest (pow10 n) 1

/-- a magnitude divided by a power of ten, at most 308 places at a time -/
def scaleDown (x : Float) (power : Nat) : Float :=
  let chunks := (power - 1) / 308
  (List.replicate chunks (powerOfTen 308)).foldl (· / ·) x / powerOfTen (power - 308 * chunks)

def scaled? (d : Decimal) : Option Float :=
  let (digits, lost) := leadingDigits d.digits
  let power := d.exponent + lost
  let magnitude :=
    if digits = 0 then some 0
    else if 308 < power then none
    else if 0 ≤ power then
      let x := nearest digits 1 * powerOfTen power.toNat
      if x < infinity then some x else none
    else if power < -1000 then some 0
    else some (scaleDown (nearest digits 1) (-power).toNat)
  magnitude.map fun x => if d.negative then -x else x

end Decimal

/-! ## Numerals in free text -/

/-- digits with an optional point and an optional exponent; there has to be a digit on one side of the point -/
def readUnsigned? (negative : Bool) (cs : List Char) : Option Decimal :=
  let whole := cs.takeWhile Char.isDigit
  let rest := cs.dropWhile Char.isDigit
  let (fraction, rest) := match rest with
    | '.' :: rest => (rest.takeWhile Char.isDigit, rest.dropWhile Char.isDigit)
    | _ => ([], rest)
  match Text.readNat? 10 (whole ++ fraction) with
  | none => none
  | some digits =>
    match rest with
    | [] => some ⟨negative, digits, -(fraction.length : Int)⟩
    | c :: rest =>
      if c = 'e' ∨ c = 'E' then
        let (down, exponent) := match rest with
          | '-' :: ds => (true, ds)
          | '+' :: ds => (false, ds)
          | ds => (false, ds)
        (Text.readNat? 10 exponent).map fun e =>
          ⟨negative, digits, (if down then -(e : Int) else (e : Int)) - fraction.length⟩
      else none

/-- a number in free text: a numeral with an optional sign, or one of the words for infinity and for no number, whose
case does not matter -/
def readFloat? (cs : List Char) : Option Float :=
  let (negative, rest) := match cs with
    | '-' :: rest => (true, rest)
    | '+' :: rest => (false, rest)
    | rest => (false, rest)
  let word := String.ofList (rest.map Char.toLower)
  if word = "inf" ∨ word = "infinity" then some (if negative then -infinity else infinity)
  else if word = "nan" then some nan
  else (readUnsigned? negative rest).map Decimal.toFloat

end RoutingReplay.Binary64
