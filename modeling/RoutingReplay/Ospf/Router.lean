/-
The local OSPF routing process: one area beside the other under one router ID.

An operation either addresses one area or runs through all of them by ascending ID; in both cases each area sees only
its own database. What the areas share is the router ID and the roles of the router: it is a border router if it has
more than one area and the backbone is among them, and it is an AS boundary router from its first redistribution on.
-/
import RoutingReplay.Ospf.Area

namespace RoutingReplay.Ospf

structure AreaConfig where
  id : Address4
  type : AreaType
  deriving DecidableEq

structure RouterConfig where
  routerId : Option Address4
  areas : List AreaConfig
  deriving DecidableEq

/-- no router ID, and the backbone as the only area -/
def RouterConfig.default : RouterConfig := ⟨none, [⟨.unspecified, .normal⟩]⟩

inductive Error where
  | missingRouterId
  | duplicateArea (id : Address4)
  | areaNotFound (id : Address4)
  deriving DecidableEq

def Error.message : Error → String
  | .missingRouterId => "missing router-id"
  | .duplicateArea _ => "duplicate area configuration"
  | .areaNotFound _ => "area ID not found"

structure Router where
  routerId : Address4
  areas : SortedMap Address4 Area
  /-- whether external routes have been redistributed -/
  isBoundary : Bool
  deriving DecidableEq

namespace Router

/-- what an operation on a process results in -/
abbrev Step (α : Type) := Outcome Router Notice α

/-! ## Creation -/

/-- the configured areas, added one by one to those that are there -/
def createAreas (now : Instant) : List AreaConfig → SortedMap Address4 Area →
    Outcome Unit Notice (Except Error (SortedMap Address4 Area))
  | [], areas => .silent () (.ok areas)
  | config :: rest, areas =>
    if areas.contains config.id then .silent () (.error (.duplicateArea config.id))
    else
      let created := Area.create config.id config.type now
      let out := createAreas now rest (areas.insert config.id created.answer)
      { out with journal := created.journal ++ out.journal }

/-- a process as configured; it needs a router ID, and no area may be configured twice -/
def create (config : RouterConfig) (now : Instant) : Outcome Unit Notice (Except Error Router) :=
  match config.routerId with
  | none => .silent () (.error .missingRouterId)
  | some routerId =>
    .after (.instanceCreated routerId) <|
      (createAreas now config.areas .empty).map fun result => result.map fun areas => ⟨routerId, areas, false⟩

/-! ## Roles -/

/-- whether the router connects the backbone with other areas -/
def isBorder (p : Router) : Bool := 1 < p.areas.size && p.areas.values.any Area.isBackbone

/-- the flags that tell of the router's roles -/
def routerFlags (p : Router) : RouterFlags := .ofRoles p.isBorder p.isBoundary

/-! ## Operations -/

def area? (p : Router) (id : Address4) : Except Error Area :=
  match p.areas.find? id with
  | some area => .ok area
  | none => .error (.areaNotFound id)

/-- an operation on one area -/
def onArea {α : Type} (p : Router) (id : Address4) (act : Area → Area.Step α) : Step (Except Error α) :=
  match p.area? id with
  | .error e => .silent p (.error e)
  | .ok area =>
    let out := act area
    ⟨{ p with areas := p.areas.insert id out.state }, out.journal, .ok out.answer⟩

/-- the same operation on every area; the answers stand in the order of the areas -/
def onAreas {α : Type} (p : Router) (act : Area → Area.Step α) : Step (List α) :=
  let out := Outcome.overValues (fun _ => act) p.areas
  ⟨{ p with areas := out.state }, out.journal, out.answer⟩

/-- processes an LSA that a neighbour sent in an area -/
def receive (p : Router) (now : Instant) (id : Address4) (hdr : Header) (body : Body) : Step (Except Error Bool) :=
  p.onArea id fun area => area.receive now hdr body

/-- originates the Router-LSA of an area -/
def originateRouterLsa (p : Router) (now : Instant) (id : Address4) (links : List RouterLink) :
    Step (Except Error Bool) :=
  p.onArea id fun area => area.onDatabase fun db => db.installRouterLsa now p.routerId p.routerFlags links

/-- advertises an external route in all areas that carry such routes; the answer is the number of LSAs. Router-LSAs
that are originated from now on show the router as an AS boundary router. -/
def redistribute (p : Router) (now : Instant) (route : ExternalRoute) : Step Nat :=
  let out := { p with isBoundary := true }.onAreas fun area => area.advertise now p.routerId route
  (out.map fun installed => installed.count true).within (.redistribution route.net)

/-- ages the databases of all areas; the answer is the number of LSAs that expired -/
def age (p : Router) (now : Instant) (elapsed : Nat) : Step Nat :=
  (p.onAreas fun area => area.onDatabase fun db => db.age now elapsed).map fun counts => counts.foldr (· + ·) 0

/-- refreshes the databases of all areas; the answer is the number of LSAs originated anew -/
def refresh (p : Router) (now : Instant) : Step Nat :=
  (p.onAreas fun area => area.onDatabase fun db => db.refresh now).map fun counts => counts.foldr (· + ·) 0

end Router

end RoutingReplay.Ospf
