/-
The route flap damping engine.

Each route that flaps collects a penalty, which decays exponentially. A route whose penalty reaches the suppress
threshold is suppressed, and it stays so until its penalty has dropped below the reuse threshold, which is the lower of
the two. Penalties decay lazily: an access to a route first brings its penalty up to the current time (`decayed`) and
ends by comparing it with the thresholds (`settle`), so what is stored about a route is true of its last access.

A `Damper` is a plain value, and the current instant is an argument of every operation. Queries are operations too:
their answer is about the refreshed route, and the refreshed route is what they leave behind.
-/
import RoutingReplay.Damping.Config
import RoutingReplay.Journal

namespace RoutingReplay.Damping

open PenaltyArithmetic

variable {R : Type}

/-- what the engine reports; the route is in the scope of an entry -/
inductive Notice (R : Type) where
  | enabled (ceiling : R)
  | withdrawn (penalty : R)
  | announced (penalty : R) (attributeChanged : Bool)
  | suppressed (penalty : R)
  | reusable (penalty : R)
  | historyCleared
  | historiesReleased (count : Nat)

def Notice.message : Notice R → String
  | .enabled _ => "route flap damping enabled"
  | .withdrawn _ => "route withdrawn"
  | .announced .. => "route announced"
  | .suppressed _ => "route suppressed"
  | .reusable _ => "route reusable"
  | .historyCleared => "flap history cleared"
  | .historiesReleased _ => "stale flap histories released"

/-- the flap history of a route -/
@[ext] structure History (R : Type) where
  penalty : R
  lastUpdate : Instant
  flaps : UInt32
  withdrawals : UInt32
  suppressed : Bool
  /-- when the route was suppressed, if it is -/
  suppressedSince : Option Instant

structure Damper (R : Type) where
  config : Config R
  routes : SortedMap Network (History R)

/-- the history of a route as it is reported -/
structure RouteStats (R : Type) where
  flaps : UInt32
  withdrawals : UInt32
  penalty : R
  suppressed : Bool
  /-- for how long the route has been suppressed, if it is -/
  suppressedFor : Option Duration

/-- totals over all routes with a history -/
structure Totals where
  flaps : Nat
  tracked : Nat
  suppressed : Nat
  deriving DecidableEq

variable [PenaltyArithmetic R]

/-- a penalty after some time: it halves with every half-life, and it is never negative -/
def decay (penalty : R) (elapsed : Duration) (halfLife : UInt32) : R :=
  larger (penalty * exp2 (-seconds elapsed / ofNat halfLife.toNat)) (ofNat 0)

namespace History

/-- what an operation on a history results in -/
abbrev Step (R α : Type) := Outcome (History R) (Notice R) α

/-- a history without flaps -/
def fresh (now : Instant) : History R := ⟨ofNat 0, now, 0, 0, false, none⟩

/-- the history with its penalty at the current time -/
def decayed (h : History R) (config : Config R) (now : Instant) : History R :=
  { h with penalty := decay h.penalty (now.since h.lastUpdate) config.halfLife, lastUpdate := now }

/-- a higher penalty, up to the ceiling -/
def penalize (h : History R) (config : Config R) (penalty : R) : History R :=
  { h with penalty := smaller (h.penalty + penalty) config.ceiling }

/-- compares the penalty with the thresholds. A route is suppressed once its penalty reaches the suppress threshold,
and reusable again once it is strictly below the reuse threshold. -/
def settle (h : History R) (config : Config R) (now : Instant) : Step R Unit :=
  if h.suppressed then
    if h.penalty < config.reuseThreshold then
      .after (.reusable h.penalty) (.silent { h with suppressed := false, suppressedSince := none } ())
    else .silent h ()
  else if config.suppressThreshold ≤ h.penalty then
    .after (.suppressed h.penalty) (.silent { h with suppressed := true, suppressedSince := some now } ())
  else .silent h ()

/-- brings a history up to the current time -/
def refresh (h : History R) (config : Config R) (now : Instant) : Step R Unit :=
  (h.decayed config now).settle config now

/-- the seconds until a suppressed route is reusable: the time in which its penalty decays to the reuse threshold -/
def reuseSeconds (h : History R) (config : Config R) : R :=
  larger (ofNat config.halfLife.toNat * log2 (h.penalty / config.reuseThreshold)) (ofNat 0)

end History

namespace Damper

/-- what an operation on a damper results in -/
abbrev Step (R α : Type) := Outcome (Damper R) (Notice R) α

/-- a damper without routes, if its parameters are in order -/
def create (config : Config R) : Outcome Unit (Notice R) (Except (Error R) (Damper R)) :=
  match config.check with
  | .error e => .silent () (.error e)
  | .ok () => .within .damping <| .after (.enabled config.ceiling) <| .silent () (.ok ⟨config, .empty⟩)

/-- an operation on the history of a route, which is stored in place of the old one -/
def onRoute {α : Type} (d : Damper R) (net : Network) (h : History R) (act : History R → History.Step R α) : Step R α :=
  let out := (act h).within (.route net)
  .within .damping ⟨{ d with routes := d.routes.insert net out.state }, out.journal, out.answer⟩

/-- the history of a route, or a fresh one -/
def historyOf (d : Damper R) (net : Network) (now : Instant) : History R :=
  (d.routes.find? net).getD (.fresh now)

/-! ## Flaps -/

/-- records that a route was withdrawn; the answer tells whether its penalty reaches the suppress threshold -/
def withdraw (d : Damper R) (now : Instant) (net : Network) : Step R Bool :=
  d.onRoute net (d.historyOf net now) fun h =>
    let h := (h.decayed d.config now).penalize d.config d.config.withdrawalPenalty
    let h := { h with flaps := h.flaps + 1, withdrawals := h.withdrawals + 1 }
    .after (.withdrawn h.penalty) <|
      (h.settle d.config now).map fun _ => decide (d.config.suppressThreshold ≤ h.penalty)

/-- records that a route was announced again, with other attributes or the same; the answer tells whether the route is
held back, which it is while its penalty has not dropped below the reuse threshold -/
def announce (d : Damper R) (now : Instant) (net : Network) (attributeChanged : Bool) : Step R Bool :=
  d.onRoute net (d.historyOf net now) fun h =>
    let h := h.decayed d.config now
    let h :=
      if attributeChanged then
        { h.penalize d.config d.config.attributeChangePenalty with flaps := h.flaps + 1 }
      else h
    .after (.announced h.penalty attributeChanged) <|
      (h.settle d.config now).map fun _ => decide (d.config.reuseThreshold ≤ h.penalty)

/-- forgets the history of a route -/
def clear (d : Damper R) (net : Network) : Step R Unit :=
  if d.routes.contains net then
    .within .damping <| .within (.route net) <| .after .historyCleared <|
      .silent { d with routes := d.routes.erase net } ()
  else .silent d ()

/-! ## Queries about one route -/

/-- brings a route up to the current time and asks something about it -/
def query {α : Type} (d : Damper R) (now : Instant) (net : Network) (ask : History R → α) : Step R (Option α) :=
  match d.routes.find? net with
  | none => .silent d none
  | some h => d.onRoute net h fun h =>
    let out := h.refresh d.config now
    out.map fun _ => some (ask out.state)

/-- the penalty of a route, zero if it has no history -/
def penalty (d : Damper R) (now : Instant) (net : Network) : Step R R :=
  (d.query now net History.penalty).map fun p => p.getD (ofNat 0)

def isSuppressed (d : Damper R) (now : Instant) (net : Network) : Step R Bool :=
  (d.query now net History.suppressed).map fun s => s.getD false

/-- the seconds until a route is reusable, if it is suppressed -/
def reuseSeconds (d : Damper R) (now : Instant) (net : Network) : Step R (Option R) :=
  (d.query now net fun h => if h.suppressed then some (h.reuseSeconds d.config) else none).map Option.join

/-- the time until a route is reusable, if it is suppressed; it is a fault if no duration can hold that time -/
def reuseTime (d : Damper R) (now : Instant) (net : Network) : Step R (Except Fault (Option Duration)) :=
  (d.reuseSeconds now net).map fun
    | none => .ok none
    | some s =>
      match nanoseconds? s with
      | some n => .ok (some ⟨n⟩)
      | none => .error .timeOutOfRange

def routeStats (d : Damper R) (now : Instant) (net : Network) : Step R (Option (RouteStats R)) :=
  d.query now net fun h => ⟨h.flaps, h.withdrawals, h.penalty, h.suppressed, h.suppressedSince.map now.since⟩

/-! ## Operations on all routes -/

/-- brings all routes up to the current time -/
def refreshAll (d : Damper R) (now : Instant) : Step R Unit :=
  let out := Outcome.overValues (fun net h => (h.refresh d.config now).within (.route net)) d.routes
  .within .damping ⟨{ d with routes := out.state }, out.journal, ()⟩

/-- whether a history is worth keeping: the route is suppressed or its penalty at least half the reuse threshold -/
def isLive (d : Damper R) (h : History R) : Bool :=
  h.suppressed || decide (d.config.reuseThreshold / ofNat 2 ≤ h.penalty)

/-- forgets the histories that are not worth keeping; the answer is their number -/
def purge (d : Damper R) (now : Instant) : Step R Nat :=
  let out := d.refreshAll now
  let kept := out.state.routes.filter fun _ h => d.isLive h
  let count := out.state.routes.size - kept.size
  let released : Step R Nat := .silent { out.state with routes := kept } count
  let released := if count = 0 then released else .within .damping (.after (.historiesReleased count) released)
  { released with journal := out.journal ++ released.journal }

/-- the routes that are suppressed, ascending -/
def suppressedRoutes (d : Damper R) (now : Instant) : Step R (List Network) :=
  let out := d.refreshAll now
  out.map fun _ => (out.state.routes.filter fun _ h => h.suppressed).keys

def totals (d : Damper R) (now : Instant) : Step R Totals :=
  let out := d.refreshAll now
  out.map fun _ => {
    flaps := out.state.routes.values.foldr (fun h sum => h.flaps.toNat + sum) 0
    tracked := out.state.routes.size
    suppressed := out.state.routes.values.countP History.suppressed }

end Damper

end RoutingReplay.Damping
