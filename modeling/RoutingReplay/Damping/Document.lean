/-
Damping parameters as values.
-/
import RoutingReplay.Damping.Config
import RoutingReplay.Value.Reading
import RoutingReplay.Binary64.Numeral

namespace RoutingReplay.Damping

open Value

def Config.shape : Shape :=
  ⟨["withdrawal_penalty", "attribute_change_penalty", "suppress_threshold", "reuse_threshold", "half_life",
    "max_suppress_time"], true⟩

/-- the parameters in a record, each with its default; `number` reads penalties and thresholds -/
def Config.ofSlots? (number : Value → Option Float) : List (Option Value) → Option (Config Float)
  | [withdrawalPenalty, attributeChangePenalty, suppressThreshold, reuseThreshold, halfLife, maxSuppressTime] => do
    let base : Config Float := .default
    return {
      withdrawalPenalty := ← defaulted base.withdrawalPenalty number withdrawalPenalty
      attributeChangePenalty := ← defaulted base.attributeChangePenalty number attributeChangePenalty
      suppressThreshold := ← defaulted base.suppressThreshold number suppressThreshold
      reuseThreshold := ← defaulted base.reuseThreshold number reuseThreshold
      halfLife := ← defaulted base.halfLife asUInt32? halfLife
      maxSuppressTime := ← defaulted base.maxSuppressTime asUInt32? maxSuppressTime }
  | _ => none

def Config.ofValue? (format : Format) (v : Value) : Option (Config Float) :=
  (v.slots? format Config.shape).bind (Config.ofSlots? asFloat?)

end RoutingReplay.Damping
