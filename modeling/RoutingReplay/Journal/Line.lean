/-
Journals as text: one line for each entry, with its level, the scopes around it, a message and named fields.
-/
import RoutingReplay.Journal
import RoutingReplay.Ospf.Router
import RoutingReplay.Damping.Damper
import RoutingReplay.Binary64.Scientific

namespace RoutingReplay

/-- how much an entry calls for attention -/
inductive Level where
  | debug
  | warn
  deriving DecidableEq

def Level.label : Level → String
  | .debug => "DEBUG"
  | .warn => "WARN"

/-- an entry of any engine, ready to be written -/
structure Line where
  level : Level
  scopes : List Scope
  message : String
  fields : List (String × List Char)

/-- a scope by its name and, if it has one, its field -/
def Scope.write : Scope → List Char
  | .database id => "lsdb\x7barea_id=".toList ++ id.write ++ ['\x7d']
  | .area id => "area\x7barea_id=".toList ++ id.write ++ ['\x7d']
  | .redistribution net => "redistribute\x7bprefix=".toList ++ net.write ++ ['\x7d']
  | .damping => "damping".toList
  | .route net => "route\x7bprefix=".toList ++ net.write ++ ['\x7d']

def Line.write (line : Line) : List Char :=
  line.level.label.toList ++ line.scopes.flatMap (fun scope => ' ' :: scope.write) ++ ':' :: ' ' ::
    line.message.toList ++ line.fields.flatMap fun (name, text) => ' ' :: name.toList ++ '=' :: text

/-- the line of a debugging event -/
def Entry.line {ε : Type} (message : ε → String) (fields : ε → List (String × List Char)) (entry : Entry ε) : Line :=
  ⟨.debug, entry.scopes, message entry.event, fields entry.event⟩

/-! ## Link state events -/

namespace Ospf

/-- an optional number as it is shown inside of a header -/
def writeOption : Option Nat → List Char
  | none => "None".toList
  | some n => "Some(".toList ++ Text.writeDecimal n ++ [')']

/-- the fields of a header in one text -/
def Header.describe (h : Header) : List Char :=
  let options := if h.options.bits = 0 then "0x0".toList else h.options.write
  let fields : List (String × List Char) := [
    ("age", Text.writeDecimal h.age.toNat),
    ("options", "Options(".toList ++ options ++ [')']),
    ("lsa_type", "LsaType(".toList ++ Text.writeDecimal h.lsaType.code.toNat ++ [')']),
    ("lsa_id", h.lsaId.write),
    ("adv_rtr", h.advRouter.write),
    ("seq_no", writeOption (h.seqNo.map UInt32.toNat)),
    ("cksum", writeOption (h.checksum.map UInt16.toNat)),
    ("length", writeOption (h.length.map UInt16.toNat))]
  "LsaHdr \x7b ".toList ++
    Text.join ", ".toList (fields.map fun (name, text) => name.toList ++ ": ".toList ++ text) ++ " \x7d".toList

def AreaType.constructorName : AreaType → String
  | .normal => "Normal"
  | .stub => "Stub"
  | .nssa => "Nssa"

def Notice.fields : Notice → List (String × List Char)
  | .instanceCreated routerId => [("router_id", routerId.write)]
  | .areaCreated type => [("area_type", type.constructorName.toList)]
  | .discarding hdr reason => [("lsa_hdr", hdr.describe), ("reason", reason.message.toList)]
  | .installing hdr | .originating hdr | .refreshing hdr => [("lsa_hdr", hdr.describe)]
  | .flushing hdr reason => [("lsa_hdr", hdr.describe), ("reason", reason.message.toList)]
  | .clearing count => [("count", Text.writeDecimal count)]

def Notice.line : Entry Notice → Line := Entry.line Notice.message Notice.fields

def Error.fields : Error → List (String × List Char)
  | .missingRouterId => []
  | .duplicateArea id | .areaNotFound id => [("area_id", id.write)]

def Error.line (e : Error) : Line := ⟨.warn, [], e.message, e.fields⟩

end Ospf

/-! ## Damping events -/

namespace Damping

open Binary64 (write)

def Notice.fields : Notice Float → List (String × List Char)
  | .enabled ceiling => [("ceiling", write ceiling)]
  | .withdrawn penalty | .suppressed penalty | .reusable penalty => [("penalty", write penalty)]
  | .announced penalty attributeChanged =>
    [("penalty", write penalty), ("attribute_changed", (if attributeChanged then "true" else "false").toList)]
  | .historyCleared => []
  | .historiesReleased count => [("count", Text.writeDecimal count)]

def Notice.line : Entry (Notice Float) → Line := Entry.line Notice.message Notice.fields

def Error.fields : Error Float → List (String × List Char)
  | .invalidParameter parameter value => [("name", parameter.name.toList), ("value", write value)]
  | .invalidHalfLife halfLife => [("half_life", Text.writeDecimal halfLife.toNat)]
  | .invalidThresholds reuse suppress => [("reuse", write reuse), ("suppress", write suppress)]
  | .invalidMaxSuppressTime maxSuppressTime halfLife =>
    [("max_suppress_time", Text.writeDecimal maxSuppressTime.toNat), ("half_life", Text.writeDecimal halfLife.toNat)]
  | .invalidCeiling ceiling suppress => [("ceiling", write ceiling), ("suppress", write suppress)]

def Error.line (e : Error Float) : Line := ⟨.warn, [], e.message, e.fields⟩

end Damping

end RoutingReplay
