/-
Sets of flags as text: the names of the flags, then whatever bits have no name in hexadecimal, joined by bars.

A reader takes the items in any order and in either form, so a bit may be given by name or by number; the text that is
written is the same for every way to give a set. Bits without a name are kept.
-/
import RoutingReplay.Text.Blank
import RoutingReplay.Text.Numeral
import RoutingReplay.Text.Split

namespace RoutingReplay.Text

/-- the named bits of a kind of flag set, in the order in which they are written -/
abbrev FlagNames := List (List Char × UInt8)

namespace FlagSet

/-- the bits of one item -/
def readItem? (names : FlagNames) : List Char → Option UInt8
  | '0' :: 'x' :: digits => (readBelow? 16 256 digits).map UInt8.ofNat
  | item => (names.find? (fun n => n.1 = item)).map Prod.snd

/-- the union of a list of items -/
def readItems? (names : FlagNames) : List (List Char) → Option UInt8
  | [] => some 0
  | item :: rest =>
    match readItem? names (trim item), readItems? names rest with
    | some bits, some more => some (bits ||| more)
    | _, _ => none

/-- the bits that a text stands for; a blank text is the empty set -/
def read? (names : FlagNames) (cs : List Char) : Option UInt8 :=
  if trim cs = [] then some 0 else readItems? names (split '|' cs)

/-- the items of a set: its named flags, then the other bits as one number -/
def items (names : FlagNames) (bits : UInt8) : List (List Char) :=
  let named := names.filter (fun n => bits &&& n.2 = n.2)
  let rest := named.foldl (fun b n => b &&& ~~~ n.2) bits
  named.map Prod.fst ++ if rest = 0 then [] else ['0' :: 'x' :: writeHex rest.toNat]

def write (names : FlagNames) (bits : UInt8) : List Char := join " | ".toList (items names bits)

end FlagSet

end RoutingReplay.Text
