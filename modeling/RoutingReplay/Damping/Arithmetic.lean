/-
The arithmetic of penalties.

The damping engine asks for little: sums, products, quotients, comparisons, powers of two and binary logarithms. It is
written once for every type that offers these (`PenaltyArithmetic`); the program runs it on binary64 numbers. Nothing is
assumed of the operations here, so the comparisons need not form an order: a binary64 number may be none at all (NaN),
which is neither at most nor at least anything, not even itself.
-/
import RoutingReplay.Binary64.Power
import RoutingReplay.Clock

namespace RoutingReplay

/-- what penalties are computed with -/
class PenaltyArithmetic (R : Type) extends Add R, Mul R, Div R, Neg R, LE R, LT R where
  decide_le : ∀ a b : R, Decidable (a ≤ b)
  decide_lt : ∀ a b : R, Decidable (a < b)
  /-- a whole number -/
  ofNat : Nat → R
  /-- two to a power -/
  exp2 : R → R
  /-- the binary logarithm -/
  log2 : R → R
  /-- neither infinite nor NaN -/
  isFinite : R → Bool
  /-- a number of seconds in whole nanoseconds, if it is one that a duration can hold -/
  nanoseconds? : R → Option Nat

namespace PenaltyArithmetic

variable {R : Type} [PenaltyArithmetic R]

instance decidableLE (a b : R) : Decidable (a ≤ b) := decide_le a b

instance decidableLT (a b : R) : Decidable (a < b) := decide_lt a b

/-- the larger of two numbers; NaN gives way to the other -/
def larger (a b : R) : R := if a ≤ b then b else if a ≤ a then a else b

/-- the smaller of two numbers; NaN gives way to the other -/
def smaller (a b : R) : R := if a ≤ b then a else if b ≤ b then b else a

/-- a duration as a number of seconds: the whole seconds, then the fraction -/
def seconds (d : Duration) : R := ofNat d.seconds + ofNat d.subsecond / ofNat 1000000000

end PenaltyArithmetic

namespace Binary64

/-- the nearest whole number of nanoseconds, ties to even, for less than 2 ^ 64 seconds -/
def nanoseconds? (x : Float) : Option Nat :=
  match toDyadic? x with
  | none => none
  | some d =>
    let num := d.fraction.1
    let den := d.fraction.2
    if d.negative && num ≠ 0 || den * pow2 64 ≤ num then none else some (roundQuotient (num * 1000000000) den)

instance : PenaltyArithmetic Float where
  decide_le a b := inferInstanceAs (Decidable (a ≤ b))
  decide_lt a b := inferInstanceAs (Decidable (a < b))
  ofNat n := nearest n 1
  exp2 := exp2
  log2 := log2
  isFinite x := (toDyadic? x).isSome
  nanoseconds? := nanoseconds?

end Binary64

end RoutingReplay
