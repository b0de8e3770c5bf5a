/-
Dates and times as TOML writes them: whether a text is one.

Nothing here is configured with a date or a time, so none is kept. What counts is that one that is well written is a
value like any other and that one that does not exist, such as February 30, is an error. A moment is a date, a time of
day, or both, and then perhaps an offset from universal time.
-/
import RoutingReplay.Text.Numeral

namespace RoutingReplay.Toml

def isLeapYear (year : Nat) : Bool := year % 4 = 0 && (year % 100 ≠ 0 || year % 400 = 0)

/-- the length of a month in days; 0 if there is no such month -/
def daysInMonth (year month : Nat) : Nat :=
  if month = 0 ∨ 12 < month then 0
  else if month = 2 then (if isLeapYear year then 29 else 28)
  else if [4, 6, 9, 11].contains month then 30
  else 31

/-- a numeral of exactly two digits -/
def readPair? : List Char → Option (Nat × List Char)
  | a :: b :: rest => (Text.readNat? 10 [a, b]).map fun n => (n, rest)
  | _ => none

/-- the text behind a character -/
def skipChar? (c : Char) : List Char → Option (List Char)
  | d :: rest => if d = c then some rest else none
  | [] => none

/-- the text behind a date: a year of four digits, a month and a day of two, and a day that the month has -/
def skipDate? (cs : List Char) : Option (List Char) := do
  let (century, cs) ← readPair? cs
  let (year, cs) ← readPair? cs
  let (month, cs) ← readPair? (← skipChar? '-' cs)
  let (day, cs) ← readPair? (← skipChar? '-' cs)
  if 1 ≤ day ∧ day ≤ daysInMonth (100 * century + year) month then some cs else none

/-- the text behind hours and minutes -/
def skipMinutes? (cs : List Char) : Option (List Char) := do
  let (hour, cs) ← readPair? cs
  let (minute, cs) ← readPair? (← skipChar? ':' cs)
  if hour ≤ 23 ∧ minute ≤ 59 then some cs else none

/-- the text behind a fraction of a second, if there is one; its digits are any in number, but at least one -/
def skipFraction? : List Char → Option (List Char)
  | '.' :: rest => if rest.takeWhile Char.isDigit = [] then none else some (rest.dropWhile Char.isDigit)
  | cs => some cs

/-- the text behind a time of day. Seconds may be missing, and the last one of a day may be a leap second. -/
def skipTime? (cs : List Char) : Option (List Char) := do
  match ← skipMinutes? cs with
  | ':' :: cs =>
    let (second, cs) ← readPair? cs
    if second ≤ 60 then skipFraction? cs else none
  | cs => some cs

/-- the text behind an offset from universal time, if there is one -/
def skipOffset? : List Char → Option (List Char)
  | c :: rest =>
    if c = 'Z' || c = 'z' then some rest
    else if c = '+' || c = '-' then skipMinutes? rest
    else some (c :: rest)
  | [] => some []

/-- whether a text is a date, a time of day, or a date with a time of day. Only the last may have an offset. -/
def isMoment (cs : List Char) : Bool :=
  match skipDate? cs with
  | none => skipTime? cs = some []
  | some [] => true
  | some (c :: cs) => (c = 'T' || c = 't' || c = ' ') && (skipTime? cs).bind skipOffset? = some []

end RoutingReplay.Toml
