/-
The events that a record file holds, one in a line, and their JSON form.

`Event.parse?` reads the line that `Event.write` gives, among others: fields with a default may be missing, unknown
fields are skipped, and a record may be given as the list of its fields.
-/
import RoutingReplay.Ospf.Document
import RoutingReplay.Json.Reader
import RoutingReplay.Json.Writer

namespace RoutingReplay.Replay

open Value Ospf

inductive Event where
  /-- an LSA from a neighbour -/
  | lsaReceived (area : Address4) (hdr : Header) (body : Body)
  /-- the local Router-LSA is originated -/
  | routerLsaOriginated (area : Address4) (links : List RouterLink)
  /-- an external route is redistributed -/
  | redistribute (route : ExternalRoute)
  /-- the databases age by some seconds, the clock standing still -/
  | age (elapsed : UInt64)
  /-- the local LSAs are refreshed -/
  | refresh
  /-- time goes on, for LSAs and for penalties -/
  | clockAdvance (seconds : UInt64)
  | routeWithdrawn (net : Network)
  | routeAnnounced (net : Network) (attributeChanged : Bool)
  /-- the flap history of a route is forgotten -/
  | clearHistory (net : Network)
  deriving DecidableEq

namespace Event

def toValue : Event → Value
  | .lsaReceived area hdr body =>
    .variant "lsa-rcvd" (.record [("area_id", area.toValue), ("hdr", hdr.toValue), ("body", body.toValue)])
  | .routerLsaOriginated area links =>
    .variant "router-lsa-orig" (.record [("area_id", area.toValue), ("links", .list (links.map RouterLink.toValue))])
  | .redistribute route => .variant "redistribute" route.toValue
  | .age elapsed => .variant "age" (.record [("elapsed", .nat elapsed.toNat)])
  | .refresh => .text "refresh"
  | .clockAdvance seconds => .variant "clock-advance" (.record [("secs", .nat seconds.toNat)])
  | .routeWithdrawn net => .variant "route-withdrawn" (.record [("prefix", net.toValue)])
  | .routeAnnounced net attributeChanged =>
    .variant "route-announced" (.record [("prefix", net.toValue), ("attribute_changed", .bool attributeChanged)])
  | .clearHistory net => .variant "clear-history" (.record [("prefix", net.toValue)])

/-- the one field of a record -/
def single? (name : String) (v : Value) : Option (Option Value) := do
  match ← v.slots? .json ⟨[name], false⟩ with
  | [slot] => some slot
  | _ => none

def ofValue? (v : Value) : Option Event := do
  match ← v.variant? with
  | ("lsa-rcvd", some v) =>
    match ← v.slots? .json ⟨["area_id", "hdr", "body"], false⟩ with
    | [area, hdr, body] =>
      return .lsaReceived (← required Address4.ofValue? area) (← required Header.ofValue? hdr)
        (← required Body.ofValue? body)
    | _ => none
  | ("router-lsa-orig", some v) =>
    match ← v.slots? .json ⟨["area_id", "links"], false⟩ with
    | [area, links] =>
      return .routerLsaOriginated (← required Address4.ofValue? area)
        (← defaulted [] (asList? RouterLink.ofValue?) links)
    | _ => none
  | ("redistribute", some v) => return .redistribute (← ExternalRoute.ofValue? v)
  | ("age", some v) => return .age (← required asUInt64? (← single? "elapsed" v))
  | ("refresh", payload) => if payload.any fun p => !Format.json.isUnit p then none else some .refresh
  | ("clock-advance", some v) => return .clockAdvance (← required asUInt64? (← single? "secs" v))
  | ("route-withdrawn", some v) => return .routeWithdrawn (← required Network.ofValue? (← single? "prefix" v))
  | ("route-announced", some v) =>
    match ← v.slots? .json ⟨["prefix", "attribute_changed"], false⟩ with
    | [net, attributeChanged] =>
      return .routeAnnounced (← required Network.ofValue? net) (← defaulted false asBool? attributeChanged)
    | _ => none
  | ("clear-history", some v) => return .clearHistory (← required Network.ofValue? (← single? "prefix" v))
  | _ => none

/-- the line of an event -/
def write (e : Event) : List Char := Json.write e.toValue

/-- the event that a line holds -/
def parse? (line : List Char) : Option Event := (Json.read? line).bind ofValue?

end Event

end RoutingReplay.Replay
