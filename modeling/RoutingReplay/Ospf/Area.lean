/-
Areas: a link state database and the rule which types of LSA may enter it.
-/
import RoutingReplay.Ospf.Database

namespace RoutingReplay.Ospf

/-- whether an area of this type takes LSAs of that type. Stub areas and NSSAs take no AS-external LSAs and no
summaries of border routers, only NSSAs take NSSA-external LSAs, and no area takes a type that is not known. -/
def AreaType.admits (area : AreaType) (lsaType : LsaType) : Bool :=
  match lsaType.kind? with
  | none => false
  | some .summaryRouter | some .asExternal => area = .normal
  | some .nssaExternal => area = .nssa
  | some .router | some .network | some .summaryNetwork => true

structure Area where
  id : Address4
  type : AreaType
  db : Database
  deriving DecidableEq

namespace Area

/-- what an operation on an area results in -/
abbrev Step (α : Type) := Outcome Area Notice α

/-- a new area with an empty database -/
def create (id : Address4) (type : AreaType) (now : Instant) : Outcome Unit Notice Area :=
  .within (.area id) <| .after (.areaCreated type) <| .silent () ⟨id, type, .empty id now⟩

def isBackbone (area : Area) : Bool := area.id = .unspecified

/-- an operation on the database of an area -/
def onDatabase {α : Type} (area : Area) (act : Database → Database.Step α) : Step α :=
  let out := act area.db
  ⟨{ area with db := out.state }, out.journal, out.answer⟩

/-- takes an LSA from a neighbour, if its type may enter the area -/
def receive (area : Area) (now : Instant) (hdr : Header) (body : Body) : Step Bool :=
  if area.type.admits hdr.lsaType then area.onDatabase fun db => db.receive now hdr body
  else .within (.area area.id) <| .after (.discarding hdr (.invalidAreaType area.type)) <| .silent area false

/-- advertises an external route in the way that suits the area; stub areas do not carry external routes -/
def advertise (area : Area) (now : Instant) (routerId : Address4) (route : ExternalRoute) : Step Bool :=
  match area.type with
  | .normal => area.onDatabase fun db => db.installExternalLsa now routerId route
  | .nssa => area.onDatabase fun db => db.installNssaLsa now routerId route
  | .stub => .silent area false

end Area

end RoutingReplay.Ospf
