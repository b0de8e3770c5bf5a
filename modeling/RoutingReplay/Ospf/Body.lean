/-
Bodies of link state advertisements. The body determines the type that its header has to have.
-/
import RoutingReplay.Ospf.Header
import RoutingReplay.Address.Network

namespace RoutingReplay.Ospf

/-! ## Router-LSAs -/

/-- the roles of a router in its routing domain -/
structure RouterFlags where
  bits : UInt8
  deriving DecidableEq

namespace RouterFlags

def names : Text.FlagNames := [(['B'], 0x01), (['E'], 0x02), (['V'], 0x04), (['N', 'T'], 0x10)]

/-- an area border router sets the B-bit, an AS boundary router the E-bit -/
def ofRoles (border boundary : Bool) : RouterFlags :=
  ⟨(if border then 0x01 else 0) ||| (if boundary then 0x02 else 0)⟩

def write (f : RouterFlags) : List Char := Text.FlagSet.write names f.bits

def read? (cs : List Char) : Option RouterFlags := (Text.FlagSet.read? names cs).map RouterFlags.mk

end RouterFlags

/-- what a router link leads to -/
inductive LinkType where
  | pointToPoint
  | transitNetwork
  | stubNetwork
  | virtualLink
  deriving DecidableEq

/-- the link type with this number -/
def LinkType.ofCode? : UInt8 → Option LinkType
  | 1 => some .pointToPoint
  | 2 => some .transitNetwork
  | 3 => some .stubNetwork
  | 4 => some .virtualLink
  | _ => none

structure RouterLink where
  linkType : LinkType
  linkId : Address4
  linkData : Address4
  metric : UInt16
  deriving DecidableEq

structure RouterBody where
  flags : RouterFlags
  links : List RouterLink
  deriving DecidableEq

/-! ## Network- and summary-LSAs -/

/-- a set of addresses -/
abbrev AddressSet := SortedMap Address4 Unit

namespace AddressSet

def ofList (addresses : List Address4) : AddressSet :=
  addresses.foldl (fun set a => set.insert a ()) SortedMap.empty

def toList (set : AddressSet) : List Address4 := set.keys

end AddressSet

structure NetworkBody where
  mask : Address4
  attached : AddressSet
  deriving DecidableEq

structure SummaryBody where
  mask : Address4
  metric : UInt32
  deriving DecidableEq

/-! ## External LSAs -/

/-- metrics of type 1 compare with link state metrics; a metric of type 2 exceeds every path inside the domain -/
inductive MetricType where
  | type1
  | type2
  deriving DecidableEq

/-- the flag byte of an external LSA -/
structure ExternalFlags where
  bits : UInt8
  deriving DecidableEq

namespace ExternalFlags

def names : Text.FlagNames := [(['E'], 0x80)]

/-- the E-bit marks metrics of type 2 -/
def ofMetricType : MetricType → ExternalFlags
  | .type1 => ⟨0⟩
  | .type2 => ⟨0x80⟩

def write (f : ExternalFlags) : List Char := Text.FlagSet.write names f.bits

def read? (cs : List Char) : Option ExternalFlags := (Text.FlagSet.read? names cs).map ExternalFlags.mk

end ExternalFlags

/-- AS-external and NSSA-external LSAs share this body -/
structure ExternalBody where
  mask : Address4
  flags : ExternalFlags
  metric : UInt32
  forwarding : Option Address4
  tag : UInt32
  deriving DecidableEq

def ExternalBody.metricType (b : ExternalBody) : MetricType :=
  if b.flags.bits &&& 0x80 = 0x80 then .type2 else .type1

/-- a route from outside the domain that is to be advertised in it -/
structure ExternalRoute where
  net : Network4
  metric : UInt32
  metricType : MetricType
  forwarding : Option Address4
  tag : UInt32
  deriving DecidableEq

/-- the body that advertises a route; its metric stays within what an LSA can carry -/
def ExternalRoute.body (r : ExternalRoute) : ExternalBody where
  mask := r.net.mask
  flags := .ofMetricType r.metricType
  metric := min r.metric infiniteMetric
  forwarding := r.forwarding
  tag := r.tag

/-! ## Bodies -/

inductive Body where
  | router (b : RouterBody)
  | network (b : NetworkBody)
  | summaryNetwork (b : SummaryBody)
  | summaryRouter (b : SummaryBody)
  | asExternal (b : ExternalBody)
  | nssaExternal (b : ExternalBody)
  deriving DecidableEq

namespace Body

def kind : Body → LsaKind
  | .router _ => .router
  | .network _ => .network
  | .summaryNetwork _ => .summaryNetwork
  | .summaryRouter _ => .summaryRouter
  | .asExternal _ => .asExternal
  | .nssaExternal _ => .nssaExternal

/-- the type of the LSAs with this body -/
def lsaType (b : Body) : LsaType := b.kind.type

def summary? : Body → Option SummaryBody
  | .summaryNetwork b | .summaryRouter b => some b
  | _ => none

def external? : Body → Option ExternalBody
  | .asExternal b | .nssaExternal b => some b
  | _ => none

def router? : Body → Option RouterBody
  | .router b => some b
  | _ => none

def network? : Body → Option NetworkBody
  | .network b => some b
  | _ => none

end Body

end RoutingReplay.Ospf
