/-
JSON text as values.

The reader is a machine that takes one token at a time. Its state holds the lists and records that are still open,
innermost first, so nesting may be of any depth.
-/
import RoutingReplay.Json.Token

namespace RoutingReplay.Json

/-- fields in reverse; a name that is no text is `none` -/
abbrev Fields := List (Option String × Value)

/-- a list or a record that is still open, with what stands in it so far in reverse -/
inductive Frame where
  | list (items : List Value)
  /-- a record whose next value belongs to the last name -/
  | record (fields : Fields) (name : Option String)

/-- what has to come next -/
inductive State where
  /-- a value, or the end of the list if it has just been opened -/
  | value (opened : Bool) (stack : List Frame)
  /-- a name, or the end of the record if it has just been opened -/
  | name (opened : Bool) (fields : Fields) (stack : List Frame)
  /-- the colon behind a name -/
  | colon (fields : Fields) (name : Option String) (stack : List Frame)
  /-- a comma or an end, or nothing more if nothing is open -/
  | complete (v : Value) (stack : List Frame)

/-- the record with these fields; a name that is no text makes it unusable -/
def recordOf (fields : Fields) : Value :=
  match fields.reverse.mapM fun (name, v) => name.map fun s => (s, v) with
  | some fields => .record fields
  | none => .broken

/-- a text token as a value -/
def textOf : Option String → Value
  | some s => .text s
  | none => .broken

/-- one token -/
def step? : State → Token → Option State
  | .value _ stack, .plain v => some (.complete v stack)
  | .value _ stack, .text s => some (.complete (textOf s) stack)
  | .value _ stack, .beginList => some (.value true (.list [] :: stack))
  | .value _ stack, .beginRecord => some (.name true [] stack)
  | .value true (.list _ :: stack), .endList => some (.complete (.list []) stack)
  | .name _ fields stack, .text s => some (.colon fields s stack)
  | .name true _ stack, .endRecord => some (.complete (.record []) stack)
  | .colon fields name stack, .colon => some (.value false (.record fields name :: stack))
  | .complete v (.list items :: stack), .comma => some (.value false (.list (v :: items) :: stack))
  | .complete v (.list items :: stack), .endList => some (.complete (.list (v :: items).reverse) stack)
  | .complete v (.record fields name :: stack), .comma => some (.name false ((name, v) :: fields) stack)
  | .complete v (.record fields name :: stack), .endRecord => some (.complete (recordOf ((name, v) :: fields)) stack)
  | _, _ => none

/-- a run of tokens -/
def run? : State → List Token → Option State
  | state, [] => some state
  | state, token :: rest =>
    match step? state token with
    | some state => run? state rest
    | none => none

/-- the value that a text stands for: one value, with blanks around its tokens and nothing else -/
def read? (cs : List Char) : Option Value :=
  match (tokens? cs).bind (run? (.value false [])) with
  | some (.complete v []) => some v
  | _ => none

end RoutingReplay.Json
