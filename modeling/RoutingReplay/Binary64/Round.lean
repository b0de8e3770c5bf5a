/-
Binary64 numbers as exact fractions, and fractions rounded to binary64.

A finite number is a whole multiple of a power of two (`Dyadic`). `nearest` goes the other way: the number closest to
a fraction, with ties to the even significand, down to the subnormal numbers and up to infinity. Everything that
produces a number from digits or from a series ends in this one rounding.
-/
namespace RoutingReplay.Binary64

/-- the value of a binary place -/
def pow2 (n : Nat) : Nat := Nat.pow 2 n

/-- the value of a decimal place -/
def pow10 (n : Nat) : Nat := Nat.pow 10 n

/-- a quotient rounded to the nearest whole number, ties to even -/
def roundQuotient (num den : Nat) : Nat :=
  let q := num / den
  let r := num % den
  if 2 * r < den then q else if den < 2 * r then q + 1 else q + q % 2

/-- the magnitude `significand * 2 ^ exponent`, with a sign -/
structure Dyadic where
  negative : Bool
  significand : Nat
  exponent : Int

/-- the exact value of a finite number -/
def toDyadic? (x : Float) : Option Dyadic :=
  let bits := x.toBits.toNat
  let negative := decide (pow2 63 ≤ bits)
  let field : Nat := bits / pow2 52 % 2048
  let fraction : Nat := bits % pow2 52
  if field = 2047 then none
  else if field = 0 then some ⟨negative, fraction, -1074⟩
  else some ⟨negative, pow2 52 + fraction, (field : Int) - 1075⟩

/-- numerator and denominator of a magnitude -/
def Dyadic.fraction (d : Dyadic) : Nat × Nat :=
  if 0 ≤ d.exponent then (d.significand * pow2 d.exponent.toNat, 1) else (d.significand, pow2 (-d.exponent).toNat)

/-- the largest `e` with `2 ^ e ≤ num / den`, for positive `num` and `den` -/
def binaryExponent (num den : Nat) : Int :=
  let e := (num.log2 : Int) - den.log2
  let reached := if 0 ≤ e then den * pow2 e.toNat ≤ num else den ≤ num * pow2 (-e).toNat
  if reached then e else e - 1

/-- the number nearest to a fraction with a positive denominator -/
def nearest (num den : Nat) : Float :=
  if num = 0 then 0
  else
    let unit := max (binaryExponent num den - 52) (-1074)
    let significand :=
      if 0 ≤ unit then roundQuotient num (den * pow2 unit.toNat) else roundQuotient (num * pow2 (-unit).toNat) den
    let bits := (unit + 1074).toNat * pow2 52 + significand
    if bits < 2047 * pow2 52 then Float.ofBits (UInt64.ofNat bits) else Float.ofBits 0x7ff0000000000000

/-- the number nearest to a fraction with a sign -/
def nearestSigned (negative : Bool) (num den : Nat) : Float :=
  if negative then -nearest num den else nearest num den

/-- positive infinity -/
def infinity : Float := Float.ofBits 0x7ff0000000000000

/-- the number that stands for no number -/
def nan : Float := Float.ofBits 0x7ff8000000000000

end RoutingReplay.Binary64
