/-
The tokens of JSON text.

Blanks between tokens are the four of the standard. A text token is `none` if one of its escapes names half of a
surrogate pair without the other half: the token is well formed, but there is no such text. A number with a fraction or
an exponent, and one too large for 64 bits, is not a whole number any more; beyond the range of binary64 it is a
`Value.broken`.
-/
import RoutingReplay.Value
import RoutingReplay.Binary64.Numeral

namespace RoutingReplay.Json

inductive Token where
  | beginList
  | endList
  | beginRecord
  | endRecord
  | comma
  | colon
  | text (s : Option String)
  /-- a literal name or a number -/
  | plain (v : Value)

def isSpace (c : Char) : Bool := c = ' ' || c = '\t' || c = '\n' || c = '\r'

/-! ## Texts -/

/-- the characters that a backslash and one letter stand for -/
def shortEscape? : Char → Option Char
  | '"' => some '"'
  | '\\' => some '\\'
  | '/' => some '/'
  | 'b' => some '\x08'
  | 'f' => some '\x0c'
  | 'n' => some '\n'
  | 'r' => some '\r'
  | 't' => some '\t'
  | _ => none

/-- the code points up to the closing quote, and what follows the quote; escapes may yield surrogates -/
def readUnits? : List Char → Option (List Nat × List Char)
  | '"' :: rest => some ([], rest)
  | '\\' :: 'u' :: a :: b :: c :: d :: rest =>
    match Text.readNat? 16 [a, b, c, d], readUnits? rest with
    | some u, some (us, rest) => some (u :: us, rest)
    | _, _ => none
  | '\\' :: e :: rest =>
    match shortEscape? e, readUnits? rest with
    | some c, some (us, rest) => some (c.toNat :: us, rest)
    | _, _ => none
  | c :: rest =>
    if c.toNat < 32 ∨ c = '\\' then none
    else (readUnits? rest).map fun (us, rest) => (c.toNat :: us, rest)
  | [] => none

/-- the characters of a list of code points in which surrogates have to come in pairs, the high one first -/
def joinUnits? : List Nat → Option (List Char)
  | high :: low :: rest =>
    if 0xd800 ≤ high ∧ high < 0xdc00 ∧ 0xdc00 ≤ low ∧ low < 0xe000 then
      (joinUnits? rest).map fun cs => Char.ofNat (0x10000 + (high - 0xd800) * 1024 + (low - 0xdc00)) :: cs
    else if 0xd800 ≤ high ∧ high < 0xe000 then none
    else (joinUnits? (low :: rest)).map fun cs => Char.ofNat high :: cs
  | [last] => if 0xd800 ≤ last ∧ last < 0xe000 then none else some [Char.ofNat last]
  | [] => some []

/-! ## Numbers -/

/-- the value of a numeral: whole if it is written so and fits into 64 bits. Minus zero is no whole number. -/
def numberValue (negative : Bool) (digits : Nat) (isWhole : Bool) (exponent : Int) : Value :=
  if isWhole && !negative && decide (digits < 0x10000000000000000) then .int digits
  else if isWhole && negative && decide (0 < digits) && decide (digits ≤ 0x8000000000000000) then .int (-(digits : Int))
  else
    match (Binary64.Decimal.mk negative digits exponent).scaled? with
    | some x => .float x
    | none => .broken

/-- a number at the start of the text, with what follows it; no needless zero may stand in front, and digits have to
follow the point and the exponent mark -/
def readNumber? (cs : List Char) : Option (Value × List Char) := do
  let (negative, cs) := match cs with
    | '-' :: rest => (true, rest)
    | cs => (false, cs)
  let whole := cs.takeWhile Char.isDigit
  let cs := cs.dropWhile Char.isDigit
  if whole.head? = some '0' ∧ whole.length ≠ 1 then none
  let (fraction, cs) ← match cs with
    | '.' :: rest =>
      let ds := rest.takeWhile Char.isDigit
      if ds = [] then none else some (ds, rest.dropWhile Char.isDigit)
    | cs => some ([], cs)
  let wholeDigits ← Text.readNat? 10 whole
  let digits ← Text.readDigits 10 wholeDigits fraction
  let places : Int := fraction.length
  match cs with
  | c :: rest =>
    if c = 'e' ∨ c = 'E' then
      let (down, rest) := match rest with
        | '-' :: rest => (true, rest)
        | '+' :: rest => (false, rest)
        | rest => (false, rest)
      let e : Int ← (Text.readNat? 10 (rest.takeWhile Char.isDigit)).map Int.ofNat
      some (numberValue negative digits false ((if down then -e else e) - places), rest.dropWhile Char.isDigit)
    else some (numberValue negative digits (fraction = []) (-places), c :: rest)
  | [] => some (numberValue negative digits (fraction = []) (-places), [])

/-! ## Tokens -/

/-- the first token of a text that does not start with a blank, with what follows it -/
def readToken? : List Char → Option (Token × List Char)
  | '[' :: rest => some (.beginList, rest)
  | ']' :: rest => some (.endList, rest)
  | '\x7b' :: rest => some (.beginRecord, rest)
  | '\x7d' :: rest => some (.endRecord, rest)
  | ',' :: rest => some (.comma, rest)
  | ':' :: rest => some (.colon, rest)
  | '"' :: rest => (readUnits? rest).map fun (us, rest) => (.text ((joinUnits? us).map String.ofList), rest)
  | 'n' :: 'u' :: 'l' :: 'l' :: rest => some (.plain .null, rest)
  | 't' :: 'r' :: 'u' :: 'e' :: rest => some (.plain (.bool true), rest)
  | 'f' :: 'a' :: 'l' :: 's' :: 'e' :: rest => some (.plain (.bool false), rest)
  | cs => (readNumber? cs).map fun (v, rest) => (.plain v, rest)

/-- the tokens of a text. Each step takes a character at least, so the length of the text bounds their number. -/
def tokensWithin? : Nat → List Char → Option (List Token)
  | _, [] => some []
  | 0, _ :: _ => none
  | fuel + 1, c :: rest =>
    if isSpace c then tokensWithin? fuel rest
    else
      match readToken? (c :: rest) with
      | some (token, rest) => (tokensWithin? fuel rest).map (token :: ·)
      | none => none

def tokens? (cs : List Char) : Option (List Token) := tokensWithin? cs.length cs

end RoutingReplay.Json
