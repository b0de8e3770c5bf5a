/-
Powers of two and binary logarithms of binary64 numbers, to the last bit.

Both are computed in whole numbers with far more places than a significand has, and rounded once at the end. The
argument of `exp2` splits into a whole part, which only moves the exponent, and a fraction, whose power is a series in
`fraction * ln 2`; so powers with a whole exponent are exact. `log2` reads its whole part off the exponent and finds the
places behind the point one by one, by squaring; so logarithms of powers of two are exact.
-/
import RoutingReplay.Binary64.Round

namespace RoutingReplay.Binary64

/-- the binary places of the series for powers -/
def seriesPlaces : Nat := 256

/-- the natural logarithm of two with that many places, as the sum of `1 / (n * 2 ^ n)` with guard places -/
def lnTwo : Nat :=
  (List.range 300).foldl (fun sum n => sum + pow2 (seriesPlaces + 32 - (n + 1)) / (n + 1)) 0 / pow2 32

/-- the exponential of `t`, both with `seriesPlaces` places, for `t` below one: the first terms of its power series -/
def expSeries (t : Nat) : Nat :=
  ((List.range 80).foldl
    (fun (sum, term) n => (sum + term, term * t / pow2 seriesPlaces / (n + 1))) (0, pow2 seriesPlaces)).1

/-- `x * 2 ^ 1074`, which is whole for every finite `x` -/
def Dyadic.subnormalUnits (d : Dyadic) : Int :=
  let magnitude := d.significand * pow2 (d.exponent + 1074).toNat
  if d.negative then -(magnitude : Int) else magnitude

/-- two to the power `x` -/
def exp2 (x : Float) : Float :=
  match toDyadic? x with
  | none => if x < 0 then 0 else x
  | some d =>
    let whole := d.subnormalUnits / pow2 1074
    let fraction := (d.subnormalUnits % pow2 1074).toNat
    if 1024 ≤ whole then infinity
    else if whole < -1080 then 0
    else
      let power := expSeries (fraction * lnTwo / pow2 1074)
      if 0 ≤ whole then nearest (power * pow2 whole.toNat) (pow2 seriesPlaces)
      else nearest power (pow2 (seriesPlaces + (-whole).toNat))

/-- the binary places of the squares for logarithms -/
def squarePlaces : Nat := 320

/-- the binary places of a logarithm before its last rounding -/
def logPlaces : Nat := 128

/-- the first `n` places behind the point of the logarithm of `y`, which has `squarePlaces` places and lies between
one and two: squaring doubles the logarithm, and the next place is set if the square reaches two -/
def logFraction : Nat → Nat → Nat → Nat
  | 0, _, acc => acc
  | n + 1, y, acc =>
    let square := y * y / pow2 squarePlaces
    if pow2 (squarePlaces + 1) ≤ square then logFraction n (square / 2) (2 * acc + 1)
    else logFraction n square (2 * acc)

/-- the binary logarithm of `x` -/
def log2 (x : Float) : Float :=
  match toDyadic? x with
  | none => if x < 0 then nan else x
  | some d =>
    if d.significand = 0 then -infinity
    else if d.negative then nan
    else
      let top := d.significand.log2
      let y := d.significand * pow2 squarePlaces / pow2 top
      let places : Int := (d.exponent + top) * pow2 logPlaces + logFraction logPlaces y 0
      nearestSigned (places < 0) places.natAbs (pow2 logPlaces)

end RoutingReplay.Binary64
