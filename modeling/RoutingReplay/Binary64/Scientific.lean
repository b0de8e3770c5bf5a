/-
The text of a number in reports: scientific notation with twelve significant digits.

The exact value is rounded once, ties to the even digit. The exponent has no plus sign and no padding, and zero is
written without a sign.
-/
import RoutingReplay.Binary64.Round
import RoutingReplay.Text.Numeral

namespace RoutingReplay.Binary64

/-- the digits behind the point -/
def decimals : Nat := 11

/-- the largest `e` with `10 ^ e ≤ num / den`, for positive `num` and `den` -/
def decimalExponent (num den : Nat) : Int :=
  let e := ((Text.writeDecimal num).length : Int) - (Text.writeDecimal den).length
  let reached := if 0 ≤ e then den * pow10 e.toNat ≤ num else den ≤ num * pow10 (-e).toNat
  if reached then e else e - 1

/-- a fraction times a power of ten, rounded to the nearest whole number -/
def scaleByTen (num den : Nat) (power : Int) : Nat :=
  if 0 ≤ power then roundQuotient (num * pow10 power.toNat) den else roundQuotient num (den * pow10 (-power).toNat)

/-- the first digit, the point, the other digits and the exponent of a positive fraction -/
def writeFraction (num den : Nat) : List Char :=
  let e := decimalExponent num den
  let n := scaleByTen num den (decimals - e)
  let (n, e) := if n < pow10 (decimals + 1) then (n, e) else (n / 10, e + 1)
  let exponent := (if e < 0 then ['-'] else []) ++ Text.writeDecimal e.natAbs
  match Text.writeDecimal n with
  | [] => []
  | first :: rest => first :: '.' :: rest ++ 'e' :: exponent

/-- the text of a number -/
def write (x : Float) : List Char :=
  match toDyadic? x with
  | none => if x < 0 then "-inf".toList else if 0 < x then "inf".toList else "NaN".toList
  | some d =>
    if d.significand = 0 then "0.00000000000e0".toList
    else (if d.negative then ['-'] else []) ++ writeFraction d.fraction.1 d.fraction.2

end RoutingReplay.Binary64
