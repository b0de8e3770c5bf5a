/-
Networks: an address with the number of its leading bits that count. Host bits are kept, so two networks that differ
in them are different.
-/
import RoutingReplay.Address.V6

namespace RoutingReplay

/-- an IPv4 network -/
structure Network4 where
  address : Address4
  length : Fin 33
  deriving DecidableEq

/-- an IPv6 network -/
structure Network6 where
  address : Address6
  length : Fin 129
  deriving DecidableEq

/-- a network of either family -/
inductive Network where
  | v4 (net : Network4)
  | v6 (net : Network6)
  deriving DecidableEq

/-- the text before the slash and, if there is one, the text behind it; there may be one slash only -/
def cutSlash? (cs : List Char) : Option (List Char × Option (List Char)) :=
  match Text.split '/' cs with
  | [address] => some (address, none)
  | [address, length] => some (address, some length)
  | _ => none

/-- a length that does not exceed the number of bits -/
def readLength? (bits : Nat) (cs : List Char) : Option (Fin (bits + 1)) :=
  match Text.readBelow? 10 256 cs with
  | some n => if h : n < bits + 1 then some ⟨n, h⟩ else none
  | none => none

namespace Network4

/-- the netmask -/
def mask (n : Network4) : Address4 := Address4.mask n.length

/-- the address with its host bits cleared -/
def base (n : Network4) : Address4 := n.address.and n.mask

def write (n : Network4) : List Char := n.address.write ++ '/' :: Text.writeDecimal n.length

/-- a length is a number or a mask; a network without one is a single host -/
def read? (cs : List Char) : Option Network4 := do
  let (text, tail) ← cutSlash? cs
  let address ← Address4.read? text
  match tail with
  | none => some ⟨address, 32⟩
  | some tail =>
    match Address4.read? tail with
    | some mask => do
      let len ← mask.maskLength?
      if h : len < 33 then some ⟨address, ⟨len, h⟩⟩ else none
    | none => (readLength? 32 tail).map (Network4.mk address)

/-- address first, then length -/
instance : KeyOrder Network4 :=
  KeyOrder.along (fun n => (n.address, n.length.val)) fun {a b} h => by
    cases a; cases b; simp_all [Fin.ext_iff]

end Network4

namespace Network6

def write (n : Network6) : List Char := n.address.write ++ '/' :: Text.writeDecimal n.length

def read? (cs : List Char) : Option Network6 := do
  let (text, tail) ← cutSlash? cs
  let address ← Address6.read? text
  match tail with
  | none => some ⟨address, 128⟩
  | some tail => (readLength? 128 tail).map (Network6.mk address)

/-- address first, then length -/
instance : KeyOrder Network6 :=
  KeyOrder.along (fun n => (n.address, n.length.val)) fun {a b} h => by
    cases a; cases b; simp_all [Fin.ext_iff]

end Network6

namespace Network

def write : Network → List Char
  | .v4 n => n.write
  | .v6 n => n.write

/-- a text that is no IPv4 network is read as an IPv6 network -/
def read? (cs : List Char) : Option Network :=
  match Network4.read? cs with
  | some n => some (.v4 n)
  | none => (Network6.read? cs).map .v6

/-- IPv4 before IPv6 -/
def Less : Network → Network → Prop
  | .v4 a, .v4 b => a < b
  | .v4 _, .v6 _ => True
  | .v6 _, .v4 _ => False
  | .v6 a, .v6 b => a < b

instance : KeyOrder Network where
  lt := Less
  decide_lt
    | .v4 a, .v4 b => inferInstanceAs (Decidable (a < b))
    | .v4 _, .v6 _ => isTrue trivial
    | .v6 _, .v4 _ => isFalse id
    | .v6 a, .v6 b => inferInstanceAs (Decidable (a < b))
  irrefl a := by
    cases a <;> exact KeyOrder.irrefl _
  trans {a b c} h h' := by
    cases a <;> cases b <;> cases c <;>
      first | exact trivial | exact KeyOrder.trans h h' | exact h.elim | exact h'.elim
  connected {a b} h h' := by
    cases a <;> cases b <;>
      first | exact congrArg _ (KeyOrder.connected h h') | exact (h trivial).elim | exact (h' trivial).elim

end Network

end RoutingReplay
