/-
The scalars of TOML 1.1 text: strings of all four kinds, booleans, integers, floats, dates and times.

Every reader takes what it can from the start of the text and returns what follows. A scalar may be accepted and still
be of no use here: an integer beyond 64 bits, a float beyond the range of binary64, a date or a time, an integer whose
groups are set apart rightly but hold no decimal digits. Such a scalar is `Value.broken`, so it is an error only where
something is to be made of it.
-/
import RoutingReplay.Value
import RoutingReplay.Binary64.Numeral
import RoutingReplay.Text.Split
import RoutingReplay.Toml.Moment

namespace RoutingReplay.Toml

def isSpace (c : Char) : Bool := c = ' ' || c = '\t'

/-- the characters that may stand in comments and in strings -/
def isPrintable (c : Char) : Bool := c = '\t' || (32 ≤ c.toNat && c.toNat ≠ 127)

/-- the text behind a line end, if it starts with one -/
def afterNewline? : List Char → Option (List Char)
  | '\n' :: rest => some rest
  | '\r' :: '\n' :: rest => some rest
  | _ => none

/-- the text behind blanks and comments that may stretch over lines -/
def skipLines (inComment : Bool) : List Char → List Char
  | '\n' :: rest => skipLines false rest
  | '\r' :: '\n' :: rest => skipLines false rest
  | c :: rest =>
    if inComment then (if isPrintable c then skipLines true rest else c :: rest)
    else if isSpace c then skipLines false rest
    else if c = '#' then skipLines true rest
    else c :: rest
  | [] => []

/-- the text of the next line, after blanks and a comment at the end of this one -/
def endOfLine? (cs : List Char) : Option (List Char) :=
  let cs := cs.dropWhile isSpace
  let cs := match cs with
    | '#' :: rest => rest.dropWhile isPrintable
    | cs => cs
  if cs = [] then some [] else afterNewline? cs

/-! ## Strings -/

def shortEscape? : Char → Option Char
  | 'b' => some '\x08'
  | 'e' => some '\x1b'
  | 't' => some '\t'
  | 'n' => some '\n'
  | 'f' => some '\x0c'
  | 'r' => some '\r'
  | '"' => some '"'
  | '\\' => some '\\'
  | _ => none

/-- the character with the code point that hexadecimal digits give -/
def escapedChar? (digits : List Char) : Option Char :=
  (Text.readNat? 16 digits).bind fun n => if n.isValidChar then some (Char.ofNat n) else none

/-- a string with escapes behind its opening quote, to its closing quote -/
def readBasic? : List Char → Option (List Char × List Char)
  | '"' :: rest => some ([], rest)
  | '\\' :: 'x' :: a :: b :: rest =>
    match escapedChar? [a, b], readBasic? rest with
    | some x, some (cs, rest) => some (x :: cs, rest)
    | _, _ => none
  | '\\' :: 'u' :: a :: b :: c :: d :: rest =>
    match escapedChar? [a, b, c, d], readBasic? rest with
    | some x, some (cs, rest) => some (x :: cs, rest)
    | _, _ => none
  | '\\' :: 'U' :: a :: b :: c :: d :: e :: f :: g :: h :: rest =>
    match escapedChar? [a, b, c, d, e, f, g, h], readBasic? rest with
    | some x, some (cs, rest) => some (x :: cs, rest)
    | _, _ => none
  | '\\' :: e :: rest =>
    match shortEscape? e, readBasic? rest with
    | some x, some (cs, rest) => some (x :: cs, rest)
    | _, _ => none
  | c :: rest =>
    if isPrintable c && c ≠ '\\' then (readBasic? rest).map fun (cs, rest) => (c :: cs, rest) else none
  | [] => none

/-- a string without escapes behind its opening quote, to its closing quote -/
def readLiteral? : List Char → Option (List Char × List Char)
  | '\'' :: rest => some ([], rest)
  | c :: rest => if isPrintable c then (readLiteral? rest).map fun (cs, rest) => (c :: cs, rest) else none
  | [] => none

/-- what three closing quotes leave behind: up to two more quotes belong to the string -/
def closeQuotes (quote : Char) : List Char → List Char × List Char
  | a :: b :: rest =>
    if a = quote then (if b = quote then ([a, b], rest) else ([a], b :: rest)) else ([], a :: b :: rest)
  | [a] => if a = quote then ([a], []) else ([], [a])
  | [] => ([], [])

/-- a string with escapes that may stretch over lines. A backslash at the end of a line swallows all blanks and line
ends up to the next character, which is what `swallowing` stands for. -/
def readBasicLines? (swallowing : Bool) : List Char → Option (List Char × List Char)
  | '"' :: '"' :: '"' :: rest => some (closeQuotes '"' rest)
  | '\n' :: rest =>
    (readBasicLines? swallowing rest).map fun (cs, rest) => (if swallowing then cs else '\n' :: cs, rest)
  | '\r' :: '\n' :: rest =>
    (readBasicLines? swallowing rest).map fun (cs, rest) => (if swallowing then cs else '\n' :: cs, rest)
  | '\\' :: 'x' :: a :: b :: rest =>
    match escapedChar? [a, b], readBasicLines? false rest with
    | some x, some (cs, rest) => some (x :: cs, rest)
    | _, _ => none
  | '\\' :: 'u' :: a :: b :: c :: d :: rest =>
    match escapedChar? [a, b, c, d], readBasicLines? false rest with
    | some x, some (cs, rest) => some (x :: cs, rest)
    | _, _ => none
  | '\\' :: 'U' :: a :: b :: c :: d :: e :: f :: g :: h :: rest =>
    match escapedChar? [a, b, c, d, e, f, g, h], readBasicLines? false rest with
    | some x, some (cs, rest) => some (x :: cs, rest)
    | _, _ => none
  | '\\' :: e :: rest =>
    if (afterNewline? ((e :: rest).dropWhile isSpace)).isSome then
      -- a carriage return can stand here only with its line feed behind it
      readBasicLines? true rest
    else
      match shortEscape? e, readBasicLines? false rest with
      | some x, some (cs, rest) => some (x :: cs, rest)
      | _, _ => none
  | c :: rest =>
    if swallowing && isSpace c then readBasicLines? true rest
    else if isPrintable c && c ≠ '\\' then (readBasicLines? false rest).map fun (cs, rest) => (c :: cs, rest)
    else none
  | [] => none

/-- a string without escapes that may stretch over lines -/
def readLiteralLines? : List Char → Option (List Char × List Char)
  | '\'' :: '\'' :: '\'' :: rest => some (closeQuotes '\'' rest)
  | '\n' :: rest => (readLiteralLines? rest).map fun (cs, rest) => ('\n' :: cs, rest)
  | '\r' :: '\n' :: rest => (readLiteralLines? rest).map fun (cs, rest) => ('\n' :: cs, rest)
  | c :: rest => if isPrintable c then (readLiteralLines? rest).map fun (cs, rest) => (c :: cs, rest) else none
  | [] => none

/-- the text behind a line end that directly follows three opening quotes -/
def skipFirstNewline (cs : List Char) : List Char := (afterNewline? cs).getD cs

/-- a string in one line -/
def readLineString? : List Char → Option (String × List Char)
  | '"' :: rest => (readBasic? rest).map fun (cs, rest) => (String.ofList cs, rest)
  | '\'' :: rest => (readLiteral? rest).map fun (cs, rest) => (String.ofList cs, rest)
  | _ => none

/-- a string of any kind -/
def readString? : List Char → Option (String × List Char)
  | '"' :: '"' :: '"' :: rest =>
    (readBasicLines? false (skipFirstNewline rest)).map fun (cs, rest) => (String.ofList cs, rest)
  | '\'' :: '\'' :: '\'' :: rest =>
    (readLiteralLines? (skipFirstNewline rest)).map fun (cs, rest) => (String.ofList cs, rest)
  | cs => readLineString? cs

/-! ## Numbers -/

/-- digits between which single underscores may stand -/
def ungroup? (cs : List Char) : Option (List Char) :=
  let groups := Text.split '_' cs
  if groups.any (· = []) then none else some groups.flatten

/-- digits of a base, possibly grouped, as a number -/
def readGrouped? (base : Nat) (cs : List Char) : Option Nat := (ungroup? cs).bind (Text.readNat? base)

/-- the digits of a whole part, which have no needless zero in front -/
def wholeDigits? (cs : List Char) : Option (List Char) :=
  (ungroup? cs).bind fun ds => if ds.head? = some '0' ∧ ds.length ≠ 1 ∨ !ds.all Char.isDigit then none else some ds

/-- whether a text is set apart by underscores as an integer is, whatever its groups hold: the first group is decimal
and starts with no zero, on either side of an underscore stands a hexadecimal digit, and there is no space -/
def isGrouped (cs : List Char) : Bool :=
  let isHexDigit (c : Char) : Bool := (Text.digitValue? 16 c).isSome
  match Text.split '_' cs with
  | [] | [_] => false
  | first :: groups =>
    first.all Char.isDigit && first.head?.any (· ≠ '0') && groups.all (fun g => g.head?.any isHexDigit) &&
      groups.dropLast.all (fun g => g.getLast?.any isHexDigit) && !cs.contains ' '

/-- an integer, of use if it has 64 bits at most, with a sign or without -/
def integerOf (n : Int) : Value :=
  if -0x8000000000000000 ≤ n ∧ n < 0x10000000000000000 then .int n else .broken

/-- an integer in a base other than ten, behind the mark of the base. The mark alone is well written, but it means
nothing. -/
def readMarked? (base : Nat) : List Char → Option Value
  | [] => some .broken
  | ds => (readGrouped? base ds).map fun n => integerOf n

/-- a float with at least one of fraction and exponent, of use if it is in the range of binary64 -/
def readDecimal? (negative : Bool) (cs : List Char) : Option Value := do
  let isPart (c : Char) : Bool := c.isDigit || c = '_'
  let whole ← wholeDigits? (cs.takeWhile isPart)
  let (fraction, cs) ← match cs.dropWhile isPart with
    | '.' :: rest => (ungroup? (rest.takeWhile isPart)).map fun ds => (ds, rest.dropWhile isPart)
    | rest => some ([], rest)
  let exponent : Int ← match cs with
    | [] => if fraction = [] then none else some 0
    | c :: rest =>
      if c = 'e' ∨ c = 'E' then
        match rest with
        | '-' :: ds => (readGrouped? 10 ds).map fun e => -(e : Int)
        | '+' :: ds => (readGrouped? 10 ds).map Int.ofNat
        | ds => (readGrouped? 10 ds).map Int.ofNat
      else none
  let digits ← Text.readNat? 10 (whole ++ fraction)
  let x := (Binary64.Decimal.mk negative digits (exponent - fraction.length)).toFloat
  return if (Binary64.toDyadic? x).isSome then .float x else .broken

/-- a number without its sign. What has a point or an exponent is a float; all digits of an integer matter only where it
is used. -/
def readMagnitude? (negative : Bool) (cs : List Char) : Option Value :=
  match cs with
  | ['i', 'n', 'f'] => some (.float (if negative then -Binary64.infinity else Binary64.infinity))
  | ['n', 'a', 'n'] => some (.float Binary64.nan)
  | _ =>
    match wholeDigits? cs with
    | some ds => (Text.readNat? 10 ds).map fun n => integerOf (if negative then -(n : Int) else n)
    | none =>
      if cs.any ['.', 'e', 'E'].contains then readDecimal? negative cs
      else if isGrouped cs then some .broken
      else none

/-- a boolean, a number or a moment that makes up the whole text; only decimal numbers may have a sign -/
def scalarOf? : List Char → Option Value
  | ['t', 'r', 'u', 'e'] => some (.bool true)
  | ['f', 'a', 'l', 's', 'e'] => some (.bool false)
  | '0' :: 'x' :: ds => readMarked? 16 ds
  | '0' :: 'o' :: ds => readMarked? 8 ds
  | '0' :: 'b' :: ds => readMarked? 2 ds
  | '-' :: cs => readMagnitude? true cs
  | '+' :: cs => readMagnitude? false cs
  | cs => if isMoment cs then some .broken else readMagnitude? false cs

/-- the characters of scalars that are no strings: all but those that end one -/
def isScalarChar (c : Char) : Bool :=
  !(['=', ',', '[', ']', '\x7b', '\x7d', ' ', '\t', '#', '\r', '\n'].contains c)

/-- whether a word of a scalar starts here, behind a blank; neither a point nor a quote starts one -/
def startsWord : List Char → Bool
  | c :: _ => isScalarChar c && !(['.', '"', '\''].contains c)
  | [] => false

/-- the words of a scalar that is no string with the blanks between them, and what follows. A date and the time behind
it are two words. -/
def takeWords (cs : List Char) : List Char × List Char :=
  match _h : cs.dropWhile isScalarChar with
  | c :: rest =>
    if isSpace c && startsWord (rest.dropWhile isSpace) then
      let (words, following) := takeWords (rest.dropWhile isSpace)
      (cs.takeWhile isScalarChar ++ c :: rest.takeWhile isSpace ++ words, following)
    else (cs.takeWhile isScalarChar, c :: rest)
  | [] => (cs, [])
termination_by cs.length
decreasing_by
  have h1 := (List.dropWhile_suffix isScalarChar (l := cs)).length_le
  have h2 := (List.dropWhile_suffix isSpace (l := rest)).length_le
  rw [_h, List.length_cons] at h1
  omega

/-- a scalar that is no string, at the start of the text -/
def readScalar? (cs : List Char) : Option (Value × List Char) :=
  let (words, rest) := takeWords cs
  (scalarOf? words).map fun v => (v, rest)

end RoutingReplay.Toml
