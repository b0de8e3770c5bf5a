/-
Summaries: the state of a session as it is shown at the end of a replay.
-/
import RoutingReplay.Replay.Session

namespace RoutingReplay.Replay

structure AreaSummary where
  id : Address4
  type : Ospf.AreaType
  originated : UInt32
  received : UInt32
  headers : List Ospf.Header

structure Summary where
  routerId : Address4
  areas : List AreaSummary
  damping : Damping.Totals
  suppressedRoutes : List Network

def AreaSummary.ofArea (area : Ospf.Area) : AreaSummary :=
  ⟨area.id, area.type, area.db.originated, area.db.received, area.db.headers⟩

/-- the summary of a session; its routes are brought up to the current time first -/
def Session.summary (s : Session) : Session.Step Summary :=
  let totals := s.onDamping fun d => d.totals s.now
  let routes := totals.state.onDamping fun d => d.suppressedRoutes s.now
  ⟨routes.state, totals.journal ++ routes.journal,
    ⟨s.ospf.routerId, s.ospf.areas.values.map AreaSummary.ofArea, totals.answer, routes.answer⟩⟩

def Damping.Totals.toValue (t : Damping.Totals) : Value :=
  .record [
    ("total_flaps", .nat t.flaps),
    ("tracked_routes", .nat t.tracked),
    ("suppressed_routes", .nat t.suppressed)]

def AreaSummary.toValue (a : AreaSummary) : Value :=
  .record [
    ("area_id", a.id.toValue),
    ("area_type", a.type.toValue),
    ("orig_lsa_count", .nat a.originated.toNat),
    ("rcvd_lsa_count", .nat a.received.toNat),
    ("lsa_headers", .list (a.headers.map Ospf.Header.toValue))]

def Summary.toValue (s : Summary) : Value :=
  .record [
    ("router_id", s.routerId.toValue),
    ("areas", .list (s.areas.map AreaSummary.toValue)),
    ("damping", Damping.Totals.toValue s.damping),
    ("suppressed_routes", .list (s.suppressedRoutes.map Network.toValue))]

end RoutingReplay.Replay
