/-
Values as JSON text, in one line or indented.
-/
import RoutingReplay.Value
import RoutingReplay.Binary64.Scientific
import RoutingReplay.Text.Split

namespace RoutingReplay.Json

/-- a character inside of quotes: quotes, backslashes and control characters are escaped -/
def writeChar (c : Char) : List Char :=
  match c with
  | '"' => ['\\', '"']
  | '\\' => ['\\', '\\']
  | '\x08' => ['\\', 'b']
  | '\x0c' => ['\\', 'f']
  | '\n' => ['\\', 'n']
  | '\r' => ['\\', 'r']
  | '\t' => ['\\', 't']
  | c =>
    if c.toNat < 32 then
      '\\' :: 'u' :: '0' :: '0' :: (List.replicate (2 - (Text.writeHex c.toNat).length) '0' ++ Text.writeHex c.toNat)
    else [c]

def writeText (s : String) : List Char := '"' :: s.toList.flatMap writeChar ++ ['"']

def writeInt (n : Int) : List Char := (if n < 0 then ['-'] else []) ++ Text.writeDecimal n.natAbs

/-- numbers that are not finite have no JSON form and are written as null -/
def writeFloat (x : Float) : List Char :=
  if (Binary64.toDyadic? x).isSome then Binary64.write x else "null".toList

mutual

/-- the text of a value without any blanks -/
def write : Value → List Char
  | .null => "null".toList
  | .bool b => (if b then "true" else "false").toList
  | .int n => writeInt n
  | .float x => writeFloat x
  | .text s => writeText s
  | .list [] => ['[', ']']
  | .list (item :: rest) => '[' :: write item ++ writeItems rest
  | .record [] => ['\x7b', '\x7d']
  | .record ((name, v) :: rest) => '\x7b' :: writeText name ++ ':' :: write v ++ writeFields rest
  | .broken => "null".toList

/-- the items behind the first, and the end of the list -/
def writeItems : List Value → List Char
  | [] => [']']
  | item :: rest => ',' :: write item ++ writeItems rest

/-- the fields behind the first, and the end of the record -/
def writeFields : List (String × Value) → List Char
  | [] => ['\x7d']
  | (name, v) :: rest => ',' :: writeText name ++ ':' :: write v ++ writeFields rest

end

/-- a new line at a depth of nesting, which counts for two blanks -/
def newLine (depth : Nat) : List Char := '\n' :: List.replicate (2 * depth) ' '

mutual

/-- the text of a value with one item or field a line; empty lists and records stay closed -/
def writeIndented (depth : Nat) : Value → List Char
  | .list (item :: rest) =>
    '[' :: newLine (depth + 1) ++ writeIndented (depth + 1) item ++ writeIndentedItems depth rest
  | .record ((name, v) :: rest) =>
    '\x7b' :: newLine (depth + 1) ++ writeText name ++ ':' :: ' ' :: writeIndented (depth + 1) v ++
      writeIndentedFields depth rest
  | v => write v

def writeIndentedItems (depth : Nat) : List Value → List Char
  | [] => newLine depth ++ [']']
  | item :: rest =>
    ',' :: newLine (depth + 1) ++ writeIndented (depth + 1) item ++ writeIndentedItems depth rest

def writeIndentedFields (depth : Nat) : List (String × Value) → List Char
  | [] => newLine depth ++ ['\x7d']
  | (name, v) :: rest =>
    ',' :: newLine (depth + 1) ++ writeText name ++ ':' :: ' ' :: writeIndented (depth + 1) v ++
      writeIndentedFields depth rest

end

end RoutingReplay.Json
