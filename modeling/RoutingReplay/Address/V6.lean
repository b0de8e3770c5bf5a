/-
IPv6 addresses: eight groups of 16 bits, written in hexadecimal.

The written form has lower case and no needless zeros, and the first of the longest runs of two or more zero groups
shrinks to a double colon; only the addresses that stand for an IPv4 address keep its dotted form. The reader takes
every form: the double colon may stand for any one run of zero groups, even a single one, and the last two groups may
be dotted.
-/
import RoutingReplay.Address.V4

namespace RoutingReplay

/-- an IPv6 address -/
structure Address6 where
  groups : List UInt16
  length_groups : groups.length = 8
  deriving DecidableEq

namespace Address6

/-- lexicographic order of groups, which for addresses is their order as numbers -/
def groupsLess : List UInt16 → List UInt16 → Bool
  | a :: as, b :: bs => decide (a < b) || (decide (a = b) && groupsLess as bs)
  | _, _ => false

theorem groupsLess_irrefl (l : List UInt16) : groupsLess l l = false := by
  induction l with
  | nil => rfl
  | cons a as ih => simp [groupsLess, ih]

theorem groupsLess_trans {a b c : List UInt16} (h : groupsLess a b = true) (h' : groupsLess b c = true) :
    groupsLess a c = true := by
  induction a generalizing b c with
  | nil => simp [groupsLess] at h
  | cons x xs ih =>
    cases b with
    | nil => simp [groupsLess] at h
    | cons y ys =>
      cases c with
      | nil => simp [groupsLess] at h'
      | cons z zs =>
        simp only [groupsLess, Bool.or_eq_true, Bool.and_eq_true, decide_eq_true_eq] at h h' ⊢
        rcases h with h | ⟨rfl, h⟩
        · rcases h' with h' | ⟨rfl, _⟩
          · exact Or.inl (UInt16.lt_trans h h')
          · exact Or.inl h
        · rcases h' with h' | ⟨rfl, h'⟩
          · exact Or.inl h'
          · exact Or.inr ⟨rfl, ih h h'⟩

theorem groupsLess_connected {a b : List UInt16} (hl : a.length = b.length) (h : groupsLess a b = false)
    (h' : groupsLess b a = false) : a = b := by
  induction a generalizing b with
  | nil => cases b with
    | nil => rfl
    | cons _ _ => simp at hl
  | cons x xs ih =>
    cases b with
    | nil => simp at hl
    | cons y ys =>
      simp only [groupsLess, Bool.or_eq_false_iff, decide_eq_false_iff_not, Bool.and_eq_false_imp,
        decide_eq_true_eq] at h h'
      have e : x = y := UInt16.le_antisymm (UInt16.not_lt.mp h'.1) (UInt16.not_lt.mp h.1)
      rw [e, ih (by simpa using hl) (h.2 e) (h'.2 e.symm)]

/-- addresses are ordered as numbers -/
instance : KeyOrder Address6 where
  lt a b := groupsLess a.groups b.groups = true
  decide_lt a b := inferInstanceAs (Decidable (groupsLess a.groups b.groups = true))
  irrefl a := by simp [groupsLess_irrefl]
  trans h h' := groupsLess_trans h h'
  connected {a b} h h' := by
    have := groupsLess_connected (a.length_groups.trans b.length_groups.symm) (by simpa using h) (by simpa using h')
    cases a; cases b; simp_all

/-! ## Writing -/

/-- the number of zeros at the front -/
def zeroRun (groups : List UInt16) : Nat := (groups.takeWhile (fun g => g = 0)).length

/-- where the first of the longest runs of zeros starts, and how long it is -/
def longestZeroRun (groups : List UInt16) : Nat × Nat :=
  (List.range groups.length).foldl
    (fun best i => let n := zeroRun (groups.drop i); if best.2 < n then (i, n) else best) (0, 0)

def writeGroups (groups : List UInt16) : List Char :=
  Text.join [':'] (groups.map (fun g => Text.writeHex g.toNat))

/-- the IPv4 address that two groups spell -/
def dotted (high low : UInt16) : Address4 := ⟨UInt32.ofNat (high.toNat * 65536 + low.toNat)⟩

def write (a : Address6) : List Char :=
  match a.groups with
  | [0, 0, 0, 0, 0, 0xffff, high, low] => "::ffff:".toList ++ (dotted high low).write
  | groups =>
    let run := longestZeroRun groups
    if run.2 < 2 then writeGroups groups
    else writeGroups (groups.take run.1) ++ [':', ':'] ++ writeGroups (groups.drop (run.1 + run.2))

/-! ## Reading -/

/-- one group: one to four hexadecimal digits -/
def readGroup? (cs : List Char) : Option UInt16 :=
  if cs.length ≤ 4 then (Text.readNat? 16 cs).map UInt16.ofNat else none

/-- groups between colons, of which the last may be a dotted address -/
def readPieces? : List (List Char) → Option (List UInt16)
  | [] => some []
  | [piece] =>
    match Address4.read? piece with
    | some a => some [UInt16.ofNat (a.bits.toNat / 65536), UInt16.ofNat (a.bits.toNat % 65536)]
    | none => (readGroup? piece).map fun g => [g]
  | piece :: pieces =>
    match readGroup? piece, readPieces? pieces with
    | some g, some gs => some (g :: gs)
    | _, _ => none

/-- a possibly empty list of groups -/
def readGroups? (cs : List Char) : Option (List UInt16) :=
  if cs = [] then some [] else readPieces? (Text.split ':' cs)

/-- the text on either side of the first double colon -/
def cutDoubleColon? : List Char → Option (List Char × List Char)
  | ':' :: ':' :: rest => some ([], rest)
  | c :: rest => (cutDoubleColon? rest).map fun (front, back) => (c :: front, back)
  | [] => none

/-- the address with these groups, if they are eight -/
def ofGroups? (groups : List UInt16) : Option Address6 :=
  if h : groups.length = 8 then some ⟨groups, h⟩ else none

def read? (cs : List Char) : Option Address6 :=
  match cutDoubleColon? cs with
  | none => (readGroups? cs).bind ofGroups?
  | some (front, back) =>
    if (Text.split ':' front).any (fun piece => (Address4.read? piece).isSome) then none
    else
      match readGroups? front, readGroups? back with
      | some head, some tail =>
        if head.length + tail.length < 8 then
          ofGroups? (head ++ List.replicate (8 - head.length - tail.length) 0 ++ tail)
        else none
      | _, _ => none

end Address6

end RoutingReplay
