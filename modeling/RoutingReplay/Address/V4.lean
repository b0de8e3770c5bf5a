/-
IPv4 addresses: 32 bits, written as four decimal octets.
-/
import RoutingReplay.KeyOrder
import RoutingReplay.Text.Numeral
import RoutingReplay.Text.Split

namespace RoutingReplay

/-- an IPv4 address, also the form of router, area and link state identifiers -/
structure Address4 where
  bits : UInt32
  deriving DecidableEq, Inhabited

namespace Address4

/-- addresses are ordered as numbers -/
instance : KeyOrder Address4 :=
  KeyOrder.along (fun a => a.bits.toNat) fun {a b} h => by
    cases a; cases b; simp_all [UInt32.toNat_inj]

/-- 0.0.0.0, which names the backbone area -/
def unspecified : Address4 := ⟨0⟩

def ofOctets (a b c d : Nat) : Address4 :=
  ⟨UInt32.ofNat (((a * 256 + b) * 256 + c) * 256 + d)⟩

/-- the four octets, most significant first -/
def octets (a : Address4) : List Nat :=
  let n := a.bits.toNat
  [n / 16777216, n / 65536 % 256, n / 256 % 256, n % 256]

def write (a : Address4) : List Char := Text.join ['.'] (a.octets.map Text.writeDecimal)

/-- exactly four octets between dots, and nothing around them -/
def read? (cs : List Char) : Option Address4 :=
  match (Text.split '.' cs).map Text.readOctet? with
  | [some a, some b, some c, some d] => some (ofOctets a b c d)
  | _ => none

/-- the mask with `len` leading ones -/
def mask (len : Nat) : Address4 := ⟨UInt32.ofNat (0x100000000 - 1 <<< (32 - len))⟩

/-- the bits that both addresses have -/
def and (a b : Address4) : Address4 := ⟨a.bits &&& b.bits⟩

/-- the number of leading ones of a mask, if no one follows a zero -/
def maskLength? (a : Address4) : Option Nat :=
  (List.range 33).find? (fun len => mask len = a)

end Address4

end RoutingReplay
