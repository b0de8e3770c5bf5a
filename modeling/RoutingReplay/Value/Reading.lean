/-
Reading typed data from values.

A reader of a type is a function `Value → Option α`; a value that does not fit is `none`, whatever is wrong with it.
Scalars and lists are read as they stand. A record is read in two steps: `slots?` sorts its fields into one slot for
each name, then each slot is read as required or with a default. A record may also be given as the list of its fields
in order. A variant is a text, or a record whose one field is named for it and holds its payload.

The two formats agree on all of this but for two conventions (`Format`).
-/
import RoutingReplay.Value
import RoutingReplay.Binary64.Round

namespace RoutingReplay

/-- where the formats of structured text differ in how typed data is read -/
structure Format where
  /-- whether a list of fields may go on behind the last field -/
  surplus : Bool
  /-- what may stand for the payload of a variant that has none -/
  isUnit : Value → Bool

namespace Format

def json : Format where
  surplus := false
  isUnit
    | .null => true
    | _ => false

def toml : Format where
  surplus := true
  isUnit
    | .list [] | .record [] => true
    | _ => false

end Format

namespace Value

variable {α : Type}

/-! ## Scalars and lists -/

def asText? : Value → Option String
  | .text s => some s
  | _ => none

/-- a text in a notation of its own -/
def asNotation? (read : List Char → Option α) (v : Value) : Option α := v.asText?.bind fun s => read s.toList

def asBool? : Value → Option Bool
  | .bool b => some b
  | _ => none

/-- a whole number from 0 to below `bound` -/
def asNat? (bound : Nat) : Value → Option Nat
  | .int n => if 0 ≤ n ∧ n < bound then some n.toNat else none
  | _ => none

def asUInt8? (v : Value) : Option UInt8 := (v.asNat? 0x100).map UInt8.ofNat

def asUInt16? (v : Value) : Option UInt16 := (v.asNat? 0x10000).map UInt16.ofNat

def asUInt32? (v : Value) : Option UInt32 := (v.asNat? 0x100000000).map UInt32.ofNat

def asUInt64? (v : Value) : Option UInt64 := (v.asNat? 0x10000000000000000).map UInt64.ofNat

/-- any number -/
def asFloat? : Value → Option Float
  | .int n => some (Binary64.nearestSigned (n < 0) n.natAbs 1)
  | .float x => some x
  | _ => none

/-- null, or a value -/
def asOption? (read : Value → Option α) : Value → Option (Option α)
  | .null => some none
  | v => (read v).map some

def asList? (read : Value → Option α) : Value → Option (List α)
  | .list items => items.mapM read
  | _ => none

/-! ## Records -/

/-- the fields of a record: their names in order, and whether other names are an error -/
structure Shape where
  names : List String
  isClosed : Bool

/-- the value of each field of a shape, if it is there. No field may be given twice. -/
def fieldSlots? (shape : Shape) (fields : List (String × Value)) : Option (List (Option Value)) :=
  if shape.isClosed && fields.any (fun f => !shape.names.contains f.1) then none
  else shape.names.mapM fun name =>
    match fields.filter fun f => f.1 = name with
    | [] => some none
    | [f] => some (some f.2)
    | _ => none

/-- the slots of a record, given by names or as a list in order -/
def slots? (format : Format) (shape : Shape) : Value → Option (List (Option Value))
  | .record fields => fieldSlots? shape fields
  | .list items =>
    if shape.names.length < items.length ∧ !format.surplus then none
    else some ((items.take shape.names.length).map some ++
      List.replicate (shape.names.length - items.length) none)
  | _ => none

/-- a field that has to be there -/
def required (read : Value → Option α) (slot : Option Value) : Option α := slot.bind read

/-- a field that may be missing -/
def defaulted (default : α) (read : Value → Option α) : Option Value → Option α
  | none => some default
  | some v => read v

/-! ## Variants -/

/-- the name of a variant and its payload, if it has one -/
def variant? : Value → Option (String × Option Value)
  | .text name => some (name, none)
  | .record [(name, v)] => some (name, some v)
  | _ => none

/-- one of several variants without payload -/
def asOneOf? (format : Format) (variants : List (String × α)) (v : Value) : Option α := do
  let (name, payload) ← v.variant?
  if payload.any fun p => !format.isUnit p then none
  else (variants.find? fun x => x.1 = name).map Prod.snd

end Value

end RoutingReplay
