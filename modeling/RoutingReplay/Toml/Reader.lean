/-
TOML 1.1 documents as values.

How deep the values of a document and the paths of its keys go is limited, so that no document is too deep to handle.
-/
import RoutingReplay.Toml.Scalar
import RoutingReplay.Toml.Table

namespace RoutingReplay.Toml

/-! ## Keys -/

def isBareChar (c : Char) : Bool := c.isAlphanum || c = '_' || c = '-'

/-- one part of a key: bare, or a string in one line -/
def readKeyPart? (cs : List Char) : Option (String × List Char) :=
  match cs.takeWhile isBareChar with
  | [] => readLineString? cs
  | bare => some (String.ofList bare, cs.dropWhile isBareChar)

/-- how many arrays and inline tables may lie in one another, and how many parts a key may have -/
def nestingLimit : Nat := 80

/-- a key with at most so many parts, with dots between them; the last part comes apart from those ahead of it -/
def readKeyWithin? : Nat → List Char → Option ((List String × String) × List Char)
  | 0, _ => none
  | parts + 1, cs => do
    let (part, cs) ← readKeyPart? (cs.dropWhile isSpace)
    match cs.dropWhile isSpace with
    | '.' :: cs =>
      let ((path, key), cs) ← readKeyWithin? parts cs
      return ((part :: path, key), cs)
    | cs => return (([], part), cs)

def readKey? (cs : List Char) : Option ((List String × String) × List Char) := readKeyWithin? nestingLimit cs

/-- a key and the equals sign behind it; `skip` says what may stand around the sign -/
def readAssigned? (skip : List Char → List Char) (cs : List Char) :
    Option ((List String × String) × List Char) := do
  let (key, cs) ← readKey? cs
  match skip cs with
  | '=' :: cs => return (key, skip cs)
  | _ => none

/-! ## Values -/

mutual

/-- a value at the start of the text, with at most `depth` arrays and inline tables in one another. Brackets and values
each take a character, so the length of the text bounds the steps of all three readers. -/
def readValueWithin? : Nat → Nat → List Char → Option (Value × List Char)
  | 0, _, _ => none
  | fuel + 1, depth, cs =>
    match depth, cs with
    | _, '"' :: _ | _, '\'' :: _ => (readString? cs).map fun (s, rest) => (.text s, rest)
    | 0, '[' :: _ | 0, '\x7b' :: _ => none
    | depth + 1, '[' :: rest =>
      (readItemsWithin? fuel depth (skipLines false rest)).map fun (items, rest) => (.list items, rest)
    | depth + 1, '\x7b' :: rest =>
      (readFieldsWithin? fuel depth .root (skipLines false rest)).map fun (t, rest) => (t.toValue, rest)
    | _, _ => readScalar? cs

/-- the items of an array to its closing bracket; a comma may stand behind the last -/
def readItemsWithin? : Nat → Nat → List Char → Option (List Value × List Char)
  | 0, _, _ => none
  | _ + 1, _, ']' :: rest => some ([], rest)
  | fuel + 1, depth, cs => do
    let (item, cs) ← readValueWithin? fuel depth cs
    match skipLines false cs with
    | ',' :: cs =>
      let (items, cs) ← readItemsWithin? fuel depth (skipLines false cs)
      return (item :: items, cs)
    | ']' :: cs => return ([item], cs)
    | _ => none

/-- the fields of an inline table to its closing bracket, over any number of lines; a comma may stand behind the last -/
def readFieldsWithin? : Nat → Nat → Table → List Char → Option (Table × List Char)
  | 0, _, _, _ => none
  | _ + 1, _, t, '\x7d' :: rest => some (t, rest)
  | fuel + 1, depth, t, cs => do
    let ((path, key), cs) ← readAssigned? (skipLines false) cs
    let (v, cs) ← readValueWithin? fuel depth cs
    let t ← t.assign? path key v
    match skipLines false cs with
    | ',' :: cs => readFieldsWithin? fuel depth t (skipLines false cs)
    | '\x7d' :: cs => return (t, cs)
    | _ => none

end

def readValue? (cs : List Char) : Option (Value × List Char) := readValueWithin? (2 * cs.length + 1) nestingLimit cs

/-! ## Documents -/

/-- a document as far as it has been read: its tables, and the path of the header that assignments go below -/
structure State where
  root : Table
  header : List String

/-- the text behind closing brackets -/
def afterBrackets? (double : Bool) (cs : List Char) : Option (List Char) :=
  match double, cs.dropWhile isSpace with
  | false, ']' :: rest => some rest
  | true, ']' :: ']' :: rest => some rest
  | _, _ => none

/-- one line with a header or an assignment; the value of an assignment may take more lines -/
def readEntry? (state : State) (cs : List Char) : Option (State × List Char) := do
  match cs with
  | '[' :: '[' :: cs =>
    let ((path, key), cs) ← readKey? cs
    let cs ← afterBrackets? true cs
    let root ← state.root.append? path key
    return (⟨root, path ++ [key]⟩, cs)
  | '[' :: cs =>
    let ((path, key), cs) ← readKey? cs
    let cs ← afterBrackets? false cs
    let root ← state.root.declare? path key
    return (⟨root, path ++ [key]⟩, cs)
  | cs =>
    let ((path, key), cs) ← readAssigned? (List.dropWhile isSpace) cs
    let (v, cs) ← readValue? cs
    let root ← Table.changeAt? false (Table.assign? path key v) state.header state.root
    return (⟨root, state.header⟩, cs)

/-- the lines of a document. Each takes a character at least, so the length of the text bounds their number. -/
def readLinesWithin? : Nat → State → List Char → Option State
  | 0, _, _ => none
  | fuel + 1, state, cs =>
    match skipLines false cs with
    | [] => some state
    | cs => do
      let (state, cs) ← readEntry? state cs
      readLinesWithin? fuel state (← endOfLine? cs)

/-- the record that a document stands for; a byte order mark in front of it is skipped -/
def read? (cs : List Char) : Option Value :=
  let cs := match cs with
    | '\ufeff' :: rest => rest
    | cs => cs
  (readLinesWithin? (cs.length + 1) ⟨.root, []⟩ cs).map fun state => state.root.toValue

end RoutingReplay.Toml
