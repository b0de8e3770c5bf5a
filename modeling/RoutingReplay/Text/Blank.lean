/-
Blank characters: the Unicode property White_Space, which is what "blank line" and "surrounding blanks" mean in the
record files and in the texts of flag sets. U+3000 and U+00A0 are blank, U+200B is not.
-/
namespace RoutingReplay.Text

/-- the code points of the property White_Space, as closed intervals -/
def blankRanges : List (Nat × Nat) :=
  [(0x09, 0x0d), (0x20, 0x20), (0x85, 0x85), (0xa0, 0xa0), (0x1680, 0x1680), (0x2000, 0x200a),
   (0x2028, 0x2029), (0x202f, 0x202f), (0x205f, 0x205f), (0x3000, 0x3000)]

def isBlank (c : Char) : Bool :=
  blankRanges.any (fun r => r.1 ≤ c.toNat && c.toNat ≤ r.2)

/-- the text without the blanks at its two ends -/
def trim (cs : List Char) : List Char :=
  ((cs.dropWhile isBlank).reverse.dropWhile isBlank).reverse

end RoutingReplay.Text
