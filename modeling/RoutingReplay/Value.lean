/-
Values of structured text: the trees that JSON and TOML texts are read into, and that answers are written from.

A record keeps its fields in the order of the text, repeated names included, because a repetition is an error in some
places and no matter in others; whoever reads a record decides. `broken` stands for a value that is well written but
cannot be used, such as a number beyond all range: it is no error where the value is skipped.
-/
namespace RoutingReplay

inductive Value where
  | null
  | bool (b : Bool)
  | int (n : Int)
  | float (x : Float)
  | text (s : String)
  | list (items : List Value)
  | record (fields : List (String × Value))
  | broken

namespace Value

/-- a whole number -/
def nat (n : Nat) : Value := .int n

/-- a text given by its characters -/
def chars (cs : List Char) : Value := .text (String.ofList cs)

/-- nothing, or a value -/
def option {α : Type} (write : α → Value) : Option α → Value
  | none => .null
  | some a => write a

/-- a variant that carries a value -/
def variant (name : String) (payload : Value) : Value := .record [(name, payload)]

/-- the last of the fields with a name -/
def field? (name : String) : Value → Option Value
  | .record fields => (fields.reverse.find? fun f => f.1 = name).map Prod.snd
  | _ => none

end Value

end RoutingReplay
