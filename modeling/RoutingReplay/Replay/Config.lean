/-
The configuration of a replay: how to log, the routing process, and the damping parameters.
-/
import RoutingReplay.Ospf.Document
import RoutingReplay.Damping.Document

namespace RoutingReplay.Replay

open Value

inductive LogStyle where
  | compact
  | full
  | json
  | pretty
  deriving DecidableEq

/-- how the journal is shown on the terminal -/
structure Logging where
  enabled : Bool
  style : LogStyle
  colors : Bool
  showThreadId : Bool
  showSource : Bool
  deriving DecidableEq

def Logging.default : Logging := ⟨true, .full, false, false, false⟩

structure Config where
  logging : Logging
  ospf : Ospf.RouterConfig
  damping : Damping.Config Float

def Config.default : Config := ⟨.default, .default, .default⟩

/-- a style by its name. The name may carry an empty record as well as null, in either format. -/
def LogStyle.ofValue? (v : Value) : Option LogStyle :=
  v.asOneOf? ⟨false, fun p => match p with | .null | .record [] => true | _ => false⟩
    [("compact", .compact), ("full", .full), ("json", .json), ("pretty", .pretty)]

/-- the logging section, which has to be a record with named fields -/
def Logging.ofValue? : Value → Option Logging
  | .record fields => do
    let base := Logging.default
    match ← fieldSlots? ⟨["enabled", "style", "colors", "show_thread_id", "show_source"], true⟩ fields with
    | [enabled, style, colors, showThreadId, showSource] =>
      return {
        enabled := ← defaulted base.enabled asBool? enabled
        style := ← defaulted base.style LogStyle.ofValue? style
        colors := ← defaulted base.colors asBool? colors
        showThreadId := ← defaulted base.showThreadId asBool? showThreadId
        showSource := ← defaulted base.showSource asBool? showSource }
    | _ => none
  | _ => none

def Config.ofValue? (format : Format) (v : Value) : Option Config := do
  match ← v.slots? format ⟨["logging", "ospf", "damping"], true⟩ with
  | [logging, ospf, damping] =>
    return {
      logging := ← defaulted .default Logging.ofValue? logging
      ospf := ← defaulted .default (Ospf.RouterConfig.ofValue? format) ospf
      damping := ← defaulted .default (Damping.Config.ofValue? format) damping }
  | _ => none

end RoutingReplay.Replay
