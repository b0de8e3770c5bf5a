/-
Link state data as values: how headers, bodies, routes and configurations stand in records and answers.

Each type has a reader and, where answers show it, a writer. A writer gives every field; a reader does without those
that have a default.
-/
import RoutingReplay.Ospf.Router
import RoutingReplay.Value.Reading

namespace RoutingReplay

open Value

def Address4.toValue (a : Address4) : Value := .chars a.write

def Address4.ofValue? (v : Value) : Option Address4 := v.asNotation? Address4.read?

def Network4.toValue (n : Network4) : Value := .chars n.write

def Network4.ofValue? (v : Value) : Option Network4 := v.asNotation? Network4.read?

def Network.toValue (n : Network) : Value := .chars n.write

def Network.ofValue? (v : Value) : Option Network := v.asNotation? Network.read?

namespace Ospf

/-! ## Headers -/

def Options.toValue (o : Options) : Value := .chars o.write

def Options.ofValue? (v : Value) : Option Options := v.asNotation? Options.read?

def LsaType.toValue (t : LsaType) : Value := .nat t.code.toNat

def LsaType.ofValue? (v : Value) : Option LsaType := v.asUInt8?.map LsaType.mk

def LsaKind.name : LsaKind → String
  | .router => "Router"
  | .network => "Network"
  | .summaryNetwork => "SummaryNetwork"
  | .summaryRouter => "SummaryRouter"
  | .asExternal => "AsExternal"
  | .nssaExternal => "NssaExternal"

def LsaKind.all : List LsaKind :=
  [.router, .network, .summaryNetwork, .summaryRouter, .asExternal, .nssaExternal]

def LsaKind.toValue (k : LsaKind) : Value := .text k.name

def LsaKind.ofValue? (v : Value) : Option LsaKind :=
  v.asOneOf? .json (LsaKind.all.map fun k => (k.name, k))

def LsaKey.toValue (k : LsaKey) : Value :=
  .record [("lsa_type", k.lsaType.toValue), ("adv_rtr", k.advRouter.toValue), ("lsa_id", k.lsaId.toValue)]

def LsaKey.ofValue? (v : Value) : Option LsaKey := do
  match ← v.slots? .json ⟨["lsa_type", "adv_rtr", "lsa_id"], false⟩ with
  | [lsaType, advRouter, lsaId] =>
    return {
      lsaType := ← required LsaType.ofValue? lsaType
      advRouter := ← required Address4.ofValue? advRouter
      lsaId := ← required Address4.ofValue? lsaId }
  | _ => none

def Header.shape : Shape :=
  ⟨["age", "options", "lsa_type", "lsa_id", "adv_rtr", "seq_no", "cksum", "length"], false⟩

def Header.toValue (h : Header) : Value :=
  .record [
    ("age", .nat h.age.toNat),
    ("options", h.options.toValue),
    ("lsa_type", h.lsaType.toValue),
    ("lsa_id", h.lsaId.toValue),
    ("adv_rtr", h.advRouter.toValue),
    ("seq_no", .option (fun s => .nat s.toNat) h.seqNo),
    ("cksum", .option (fun s => .nat s.toNat) h.checksum),
    ("length", .option (fun s => .nat s.toNat) h.length)]

def Header.ofValue? (v : Value) : Option Header := do
  match ← v.slots? .json Header.shape with
  | [age, options, lsaType, lsaId, advRouter, seqNo, checksum, length] =>
    return {
      age := ← defaulted 0 asUInt16? age
      options := ← defaulted ⟨0⟩ Options.ofValue? options
      lsaType := ← required LsaType.ofValue? lsaType
      lsaId := ← required Address4.ofValue? lsaId
      advRouter := ← required Address4.ofValue? advRouter
      seqNo := ← defaulted none (asOption? asUInt32?) seqNo
      checksum := ← defaulted none (asOption? asUInt16?) checksum
      length := ← defaulted none (asOption? asUInt16?) length }
  | _ => none

/-! ## Bodies -/

def RouterFlags.toValue (f : RouterFlags) : Value := .chars f.write

def RouterFlags.ofValue? (v : Value) : Option RouterFlags := v.asNotation? RouterFlags.read?

def LinkType.name : LinkType → String
  | .pointToPoint => "PointToPoint"
  | .transitNetwork => "TransitNetwork"
  | .stubNetwork => "StubNetwork"
  | .virtualLink => "VirtualLink"

def LinkType.toValue (t : LinkType) : Value := .text t.name

def LinkType.ofValue? (v : Value) : Option LinkType :=
  v.asOneOf? .json ([.pointToPoint, .transitNetwork, .stubNetwork, .virtualLink].map fun (t : LinkType) => (t.name, t))

def RouterLink.toValue (l : RouterLink) : Value :=
  .record [
    ("link_type", l.linkType.toValue),
    ("link_id", l.linkId.toValue),
    ("link_data", l.linkData.toValue),
    ("metric", .nat l.metric.toNat)]

def RouterLink.ofValue? (v : Value) : Option RouterLink := do
  match ← v.slots? .json ⟨["link_type", "link_id", "link_data", "metric"], false⟩ with
  | [linkType, linkId, linkData, metric] =>
    return {
      linkType := ← required LinkType.ofValue? linkType
      linkId := ← required Address4.ofValue? linkId
      linkData := ← required Address4.ofValue? linkData
      metric := ← required asUInt16? metric }
  | _ => none

def RouterBody.toValue (b : RouterBody) : Value :=
  .record [("flags", b.flags.toValue), ("links", .list (b.links.map RouterLink.toValue))]

def RouterBody.ofValue? (v : Value) : Option RouterBody := do
  match ← v.slots? .json ⟨["flags", "links"], false⟩ with
  | [flags, links] =>
    return {
      flags := ← defaulted ⟨0⟩ RouterFlags.ofValue? flags
      links := ← defaulted [] (asList? RouterLink.ofValue?) links }
  | _ => none

def NetworkBody.toValue (b : NetworkBody) : Value :=
  .record [("mask", b.mask.toValue), ("attached_rtrs", .list (b.attached.toList.map Address4.toValue))]

def NetworkBody.ofValue? (v : Value) : Option NetworkBody := do
  match ← v.slots? .json ⟨["mask", "attached_rtrs"], false⟩ with
  | [mask, attached] =>
    return {
      mask := ← required Address4.ofValue? mask
      attached := AddressSet.ofList (← required (asList? Address4.ofValue?) attached) }
  | _ => none

def SummaryBody.toValue (b : SummaryBody) : Value :=
  .record [("mask", b.mask.toValue), ("metric", .nat b.metric.toNat)]

def SummaryBody.ofValue? (v : Value) : Option SummaryBody := do
  match ← v.slots? .json ⟨["mask", "metric"], false⟩ with
  | [mask, metric] =>
    return {
      mask := ← required Address4.ofValue? mask
      metric := ← required asUInt32? metric }
  | _ => none

def ExternalFlags.toValue (f : ExternalFlags) : Value := .chars f.write

def ExternalFlags.ofValue? (v : Value) : Option ExternalFlags := v.asNotation? ExternalFlags.read?

def ExternalBody.toValue (b : ExternalBody) : Value :=
  .record [
    ("mask", b.mask.toValue),
    ("flags", b.flags.toValue),
    ("metric", .nat b.metric.toNat),
    ("fwd_addr", .option Address4.toValue b.forwarding),
    ("tag", .nat b.tag.toNat)]

def ExternalBody.ofValue? (v : Value) : Option ExternalBody := do
  match ← v.slots? .json ⟨["mask", "flags", "metric", "fwd_addr", "tag"], false⟩ with
  | [mask, flags, metric, forwarding, tag] =>
    return {
      mask := ← required Address4.ofValue? mask
      flags := ← defaulted ⟨0⟩ ExternalFlags.ofValue? flags
      metric := ← required asUInt32? metric
      forwarding := ← defaulted none (asOption? Address4.ofValue?) forwarding
      tag := ← defaulted 0 asUInt32? tag }
  | _ => none

def Body.toValue (b : Body) : Value :=
  .variant b.kind.name <|
    match b with
    | .router b => b.toValue
    | .network b => b.toValue
    | .summaryNetwork b => b.toValue
    | .summaryRouter b => b.toValue
    | .asExternal b => b.toValue
    | .nssaExternal b => b.toValue

def Body.ofValue? (v : Value) : Option Body := do
  match ← v.variant? with
  | ("Router", some v) => (RouterBody.ofValue? v).map .router
  | ("Network", some v) => (NetworkBody.ofValue? v).map .network
  | ("SummaryNetwork", some v) => (SummaryBody.ofValue? v).map .summaryNetwork
  | ("SummaryRouter", some v) => (SummaryBody.ofValue? v).map .summaryRouter
  | ("AsExternal", some v) => (ExternalBody.ofValue? v).map .asExternal
  | ("NssaExternal", some v) => (ExternalBody.ofValue? v).map .nssaExternal
  | _ => none

/-! ## Routes -/

def MetricType.name : MetricType → String
  | .type1 => "type1"
  | .type2 => "type2"

def MetricType.toValue (t : MetricType) : Value := .text t.name

def MetricType.ofValue? (v : Value) : Option MetricType :=
  v.asOneOf? .json ([.type1, .type2].map fun (t : MetricType) => (t.name, t))

def ExternalRoute.toValue (r : ExternalRoute) : Value :=
  .record [
    ("prefix", r.net.toValue),
    ("metric", .nat r.metric.toNat),
    ("metric_type", r.metricType.toValue),
    ("fwd_addr", .option Address4.toValue r.forwarding),
    ("tag", .nat r.tag.toNat)]

def ExternalRoute.ofValue? (v : Value) : Option ExternalRoute := do
  match ← v.slots? .json ⟨["prefix", "metric", "metric_type", "fwd_addr", "tag"], false⟩ with
  | [net, metric, metricType, forwarding, tag] =>
    return {
      net := ← required Network4.ofValue? net
      metric := ← required asUInt32? metric
      metricType := ← defaulted .type2 MetricType.ofValue? metricType
      forwarding := ← defaulted none (asOption? Address4.ofValue?) forwarding
      tag := ← defaulted 0 asUInt32? tag }
  | _ => none

/-! ## Areas and reasons -/

def AreaType.name : AreaType → String
  | .normal => "normal"
  | .stub => "stub"
  | .nssa => "nssa"

def AreaType.toValue (t : AreaType) : Value := .text t.name

def AreaType.ofValue? (format : Format) (v : Value) : Option AreaType :=
  v.asOneOf? format ([.normal, .stub, .nssa].map fun (t : AreaType) => (t.name, t))

def DiscardReason.toValue : DiscardReason → Value
  | .notNewer => .text "NotNewer"
  | .typeMismatch => .text "TypeMismatch"
  | .invalidAreaType type => .variant "InvalidAreaType" type.toValue

def DiscardReason.ofValue? (v : Value) : Option DiscardReason := do
  match ← v.variant? with
  | ("InvalidAreaType", some v) => (AreaType.ofValue? .json v).map .invalidAreaType
  | _ => v.asOneOf? .json [("NotNewer", .notNewer), ("TypeMismatch", .typeMismatch)]

def FlushReason.toValue : FlushReason → Value
  | .expiry => .text "Expiry"
  | .prematureAging => .text "PrematureAging"

def FlushReason.ofValue? (v : Value) : Option FlushReason :=
  v.asOneOf? .json [("Expiry", .expiry), ("PrematureAging", .prematureAging)]

/-! ## Configurations -/

def AreaConfig.toValue (c : AreaConfig) : Value :=
  .record [("area_id", c.id.toValue), ("area_type", c.type.toValue)]

def AreaConfig.ofValue? (format : Format) (v : Value) : Option AreaConfig := do
  match ← v.slots? format ⟨["area_id", "area_type"], true⟩ with
  | [id, type] =>
    return {
      id := ← required Address4.ofValue? id
      type := ← defaulted .normal (AreaType.ofValue? format) type }
  | _ => none

def RouterConfig.toValue (c : RouterConfig) : Value :=
  .record [("router_id", .option Address4.toValue c.routerId), ("areas", .list (c.areas.map AreaConfig.toValue))]

def RouterConfig.ofValue? (format : Format) (v : Value) : Option RouterConfig := do
  match ← v.slots? format ⟨["router_id", "areas"], true⟩ with
  | [routerId, areas] =>
    return {
      routerId := ← defaulted none (asOption? Address4.ofValue?) routerId
      areas := ← defaulted RouterConfig.default.areas (asList? (AreaConfig.ofValue? format)) areas }
  | _ => none

end Ospf

end RoutingReplay
