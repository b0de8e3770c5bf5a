/-
The operations of the damping engine as data, for runs of them. Queries are among them, since they bring routes up to
the current time.
-/
import RoutingReplay.Run
import RoutingReplay.Damping.Damper

namespace RoutingReplay.Damping.Damper

/-- what the damping engine can be told or asked -/
inductive Op where
  | withdraw (net : Network)
  | announce (net : Network) (attributeChanged : Bool)
  | clear (net : Network)
  | penalty (net : Network)
  | isSuppressed (net : Network)
  | reuseTime (net : Network)
  | routeStats (net : Network)
  | purge
  | totals
  | suppressedRoutes
  deriving DecidableEq

/-- what an operation answers -/
inductive Answer (R : Type) where
  | done
  | flag (b : Bool)
  | count (n : Nat)
  | penalty (p : R)
  | reuseTime (t : Except Fault (Option Duration))
  | routeStats (s : Option (RouteStats R))
  | totals (t : Totals)
  | routes (nets : List Network)

variable {R : Type} [PenaltyArithmetic R]

/-- the operation that an `Op` names -/
def perform (op : Op) (now : Instant) (d : Damper R) : Step R (Answer R) :=
  match op with
  | .withdraw net => (d.withdraw now net).map .flag
  | .announce net attributeChanged => (d.announce now net attributeChanged).map .flag
  | .clear net => (d.clear net).map fun _ => .done
  | .penalty net => (d.penalty now net).map .penalty
  | .isSuppressed net => (d.isSuppressed now net).map .flag
  | .reuseTime net => (d.reuseTime now net).map .reuseTime
  | .routeStats net => (d.routeStats now net).map .routeStats
  | .purge => (d.purge now).map .count
  | .totals => (d.totals now).map .totals
  | .suppressedRoutes => (d.suppressedRoutes now).map .routes

/-- a run of the damping engine -/
def run : Timed (Damper R) → List (Turn Op) → Except Fault (Outcome (Timed (Damper R)) (Notice R) (List (Answer R))) :=
  Timed.run perform

end RoutingReplay.Damping.Damper
