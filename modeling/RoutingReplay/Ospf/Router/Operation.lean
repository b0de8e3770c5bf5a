/-
The operations of the routing process as data, for runs of them.
-/
import RoutingReplay.Run
import RoutingReplay.Ospf.Router

namespace RoutingReplay.Ospf.Router

/-- what the routing process can be told -/
inductive Op where
  | receive (area : Address4) (hdr : Header) (body : Body)
  | originateRouterLsa (area : Address4) (links : List RouterLink)
  | redistribute (route : ExternalRoute)
  | age (elapsed : Nat)
  | refresh
  deriving DecidableEq

/-- what an operation answers -/
inductive Answer where
  /-- whether an LSA was taken, or which area is not there -/
  | flag (result : Except Error Bool)
  /-- how many LSAs were concerned -/
  | count (n : Nat)

/-- the operation that an `Op` names -/
def perform (op : Op) (now : Instant) (p : Router) : Step Answer :=
  match op with
  | .receive area hdr body => (p.receive now area hdr body).map .flag
  | .originateRouterLsa area links => (p.originateRouterLsa now area links).map .flag
  | .redistribute route => (p.redistribute now route).map .count
  | .age elapsed => (p.age now elapsed).map .count
  | .refresh => (p.refresh now).map .count

/-- a run of the routing process -/
def run : Timed Router → List (Turn Op) → Except Fault (Outcome (Timed Router) Notice (List Answer)) :=
  Timed.run perform

end RoutingReplay.Ospf.Router
