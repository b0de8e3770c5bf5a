/-
Headers of link state advertisements (LSAs), their keys, and which of two headers is the more recent one.

The key of an LSA is its type, the router that advertises it and its link state ID; a database holds one LSA for each
key. Two headers with one key are two instances of one LSA. `Header.recency` compares instances by sequence number, a
signed number that may be missing, and then by checksum; nothing else in a header counts.
-/
import RoutingReplay.SortedMap
import RoutingReplay.Address.V4
import RoutingReplay.Text.FlagSet

namespace RoutingReplay.Ospf

/-! ## Architectural constants -/

/-- the age, in seconds, at which a router originates its own LSA anew -/
def refreshAge : Nat := 1800

/-- the age, in seconds, at which an LSA leaves the database -/
def maxAge : Nat := 3600

/-- the metric of an unreachable destination -/
def infiniteMetric : UInt32 := 0x00ffffff

/-- the sequence number of the first instance of an LSA -/
def initialSeqNo : UInt32 := 0x80000001

/-- the number below all sequence numbers, which no instance may carry -/
def reservedSeqNo : UInt32 := 0x80000000

/-! ## The parts of a header -/

/-- the optional capabilities that an LSA depends on -/
structure Options where
  bits : UInt8
  deriving DecidableEq

namespace Options

def names : Text.FlagNames := [(['E'], 0x02), (['M', 'C'], 0x04), (['N', 'P'], 0x08), (['D', 'C'], 0x20)]

/-- the E-bit: AS-external LSAs are understood -/
def external : Options := ⟨0x02⟩

/-- the P-bit: the LSA is to be carried on into the backbone at the border of its NSSA -/
def propagate : Options := ⟨0x08⟩

def write (o : Options) : List Char := Text.FlagSet.write names o.bits

def read? (cs : List Char) : Option Options := (Text.FlagSet.read? names cs).map Options.mk

end Options

/-- the type of an LSA as a number, known or not -/
structure LsaType where
  code : UInt8
  deriving DecidableEq

/-- the known types -/
inductive LsaKind where
  | router
  | network
  | summaryNetwork
  | summaryRouter
  | asExternal
  | nssaExternal
  deriving DecidableEq

/-- the number of a known type -/
def LsaKind.type : LsaKind → LsaType
  | .router => ⟨1⟩
  | .network => ⟨2⟩
  | .summaryNetwork => ⟨3⟩
  | .summaryRouter => ⟨4⟩
  | .asExternal => ⟨5⟩
  | .nssaExternal => ⟨7⟩

namespace LsaType

/-- the known type with this number -/
def kind? (t : LsaType) : Option LsaKind :=
  match t.code with
  | 1 => some .router
  | 2 => some .network
  | 3 => some .summaryNetwork
  | 4 => some .summaryRouter
  | 5 => some .asExternal
  | 7 => some .nssaExternal
  | _ => none

theorem kind?_type (k : LsaKind) : k.type.kind? = some k := by cases k <;> rfl

/-- summaries describe networks (type 3) or border routers (type 4) -/
def isSummary (t : LsaType) : Bool :=
  match t.kind? with
  | some .summaryNetwork | some .summaryRouter => true
  | _ => false

end LsaType

/-- what tells one LSA from another -/
structure LsaKey where
  lsaType : LsaType
  advRouter : Address4
  lsaId : Address4
  deriving DecidableEq

/-- by type, then by advertising router, then by link state ID -/
instance : KeyOrder LsaKey :=
  KeyOrder.along (fun k => (k.lsaType.code.toNat, k.advRouter, k.lsaId)) fun {a b} h => by
    obtain ⟨⟨_⟩, _, _⟩ := a
    obtain ⟨⟨_⟩, _, _⟩ := b
    simp_all [UInt8.toNat_inj]

/-- the header of an LSA; the last three numbers are missing where the source of the LSA does not carry them -/
structure Header where
  age : UInt16
  options : Options
  lsaType : LsaType
  lsaId : Address4
  advRouter : Address4
  seqNo : Option UInt32
  checksum : Option UInt16
  length : Option UInt16
  deriving DecidableEq

namespace Header

def key (h : Header) : LsaKey := ⟨h.lsaType, h.advRouter, h.lsaId⟩

/-- an LSA of this age is on its way out -/
def isMaxAge (h : Header) : Bool := maxAge ≤ h.age.toNat

/-- the header after `elapsed` more seconds. Seconds are counted in 16 bits, where what does not fit counts as the largest
number that does, and no LSA grows older than `maxAge`. -/
def aged (h : Header) (elapsed : Nat) : Header :=
  let sum := UInt16.ofNatClamp (h.age.toNat + (UInt16.ofNatClamp elapsed).toNat)
  { h with age := min sum (.ofNat maxAge) }

/-! ## Recency -/

/-- sequence numbers are signed -/
def signedSeqNo (s : UInt32) : Int := s.toInt32.toInt

/-- `.gt` if the first header is the more recent one. A header without a sequence number is older than any that has
one, and two of them are equal whatever their checksums; a missing checksum counts as zero. -/
def recency (a b : Header) : Ordering :=
  match a.seqNo, b.seqNo with
  | none, none => .eq
  | none, some _ => .lt
  | some _, none => .gt
  | some s, some t =>
    (compare (signedSeqNo s) (signedSeqNo t)).then
      (compare ((a.checksum.getD 0).toNat) ((b.checksum.getD 0).toNat))

/-- the first header is strictly more recent -/
def isNewer (a b : Header) : Bool := recency a b == .gt

end Header

end RoutingReplay.Ospf
