/-
The parameters of route flap damping and the conditions on them.
-/
import RoutingReplay.Damping.Arithmetic

namespace RoutingReplay.Damping

open PenaltyArithmetic

structure Config (R : Type) where
  withdrawalPenalty : R
  attributeChangePenalty : R
  suppressThreshold : R
  reuseThreshold : R
  /-- the time in which a penalty halves, in seconds -/
  halfLife : UInt32
  /-- the longest time for which a route may stay suppressed, in seconds -/
  maxSuppressTime : UInt32

/-- the parameters that are penalties or thresholds -/
inductive Parameter where
  | withdrawalPenalty
  | attributeChangePenalty
  | suppressThreshold
  | reuseThreshold
  deriving DecidableEq

def Parameter.name : Parameter → String
  | .withdrawalPenalty => "withdrawal_penalty"
  | .attributeChangePenalty => "attribute_change_penalty"
  | .suppressThreshold => "suppress_threshold"
  | .reuseThreshold => "reuse_threshold"

/-- why parameters are refused -/
inductive Error (R : Type) where
  | invalidParameter (parameter : Parameter) (value : R)
  | invalidHalfLife (halfLife : UInt32)
  | invalidThresholds (reuse suppress : R)
  | invalidMaxSuppressTime (maxSuppressTime halfLife : UInt32)
  | invalidCeiling (ceiling suppress : R)

def Error.message {R : Type} : Error R → String
  | .invalidParameter parameter _ => "invalid damping parameter: " ++ parameter.name
  | .invalidHalfLife _ => "damping half-life must be greater than zero"
  | .invalidThresholds .. => "reuse threshold must be lower than the suppress threshold"
  | .invalidMaxSuppressTime .. => "maximum suppress time can't be shorter than the half-life"
  | .invalidCeiling .. => "penalty ceiling is lower than the suppress threshold"

namespace Config

variable {R : Type} [PenaltyArithmetic R]

def default : Config R where
  withdrawalPenalty := ofNat 1000
  attributeChangePenalty := ofNat 500
  suppressThreshold := ofNat 3000
  reuseThreshold := ofNat 750
  halfLife := 900
  maxSuppressTime := 3600

/-- the highest penalty that a route can reach: one that decays to the reuse threshold in the longest time for which
a route may stay suppressed -/
def ceiling (c : Config R) : R :=
  c.reuseThreshold * exp2 (ofNat c.maxSuppressTime.toNat / ofNat c.halfLife.toNat)

/-- the penalties and thresholds with their names -/
def parameters (c : Config R) : List (Parameter × R) :=
  [(.withdrawalPenalty, c.withdrawalPenalty), (.attributeChangePenalty, c.attributeChangePenalty),
   (.suppressThreshold, c.suppressThreshold), (.reuseThreshold, c.reuseThreshold)]

/-- the first condition that the parameters fail. They have to be finite and not negative, the reuse threshold not even
zero, since no penalty would ever drop below it; the reuse threshold has to be below the suppress threshold, and a
penalty has to be able to reach the latter. -/
def check (c : Config R) : Except (Error R) Unit :=
  match c.parameters.find? fun p => !isFinite p.2 || decide (p.2 < ofNat 0) with
  | some (parameter, value) => .error (.invalidParameter parameter value)
  | none =>
    if c.reuseThreshold ≤ ofNat 0 then .error (.invalidParameter .reuseThreshold c.reuseThreshold)
    else if c.halfLife = 0 then .error (.invalidHalfLife c.halfLife)
    else if c.suppressThreshold ≤ c.reuseThreshold then
      .error (.invalidThresholds c.reuseThreshold c.suppressThreshold)
    else if c.maxSuppressTime < c.halfLife then .error (.invalidMaxSuppressTime c.maxSuppressTime c.halfLife)
    else if c.ceiling < c.suppressThreshold then .error (.invalidCeiling c.ceiling c.suppressThreshold)
    else .ok ()

end Config

end RoutingReplay.Damping
