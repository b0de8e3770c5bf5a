/-
Redistributed routes and the LSAs that advertise them.

A route is advertised by an LSA whose link state ID is the address of its network. The mask is in the body, so it is no
part of the key (`key_of_advertises`): an area has one LSA for all networks with the same address, and it advertises the
one that was redistributed last. Networks with different addresses do not get into each other's way (`routes_kept`);
of two with the same address the first is lost (`nested_network_lost`).
-/
import RoutingReplay.Proofs.Ospf.AreaView

namespace RoutingReplay

/-! ## Networks -/

theorem Network4.base_and_mask (n : Network4) : n.base.and n.mask = n.base := by
  unfold base Address4.and
  congr 1
  calc n.address.bits &&& n.mask.bits &&& n.mask.bits
      = n.address.bits &&& (n.mask.bits &&& n.mask.bits) := UInt32.and_assoc _ _ _
    _ = n.address.bits &&& n.mask.bits := by rw [UInt32.and_self]

/-- the mask tells the length -/
theorem Network4.length_of_mask {m n : Network4} (h : m.mask = n.mask) : m.length = n.length := by
  have hinjective : ∀ a b : Fin 33, Address4.mask a = Address4.mask b → a = b := by decide +kernel
  exact hinjective m.length n.length h

end RoutingReplay

namespace RoutingReplay.Ospf

theorem ExternalRoute.metricType_body (route : ExternalRoute) : route.body.metricType = route.metricType := by
  unfold ExternalBody.metricType ExternalRoute.body
  cases route.metricType <;> simp [ExternalFlags.ofMetricType]

/-! ## Advertisements -/

/-- the body that carries an external route in an area of this type -/
def AreaType.carrier? (type : AreaType) (b : ExternalBody) : Option Body :=
  match type with
  | .normal => some (.asExternal b)
  | .nssa => some (.nssaExternal b)
  | .stub => none

/-- the origination that advertises an external route in an area of this type -/
def AreaType.announcement? (type : AreaType) (routerId : Address4) (route : ExternalRoute) : Option Build :=
  match type with
  | .normal => some (.external routerId route)
  | .nssa => some (.nssa routerId route)
  | .stub => none

/-- an LSA of the local router that advertises a route in an area of this type -/
structure Advertises (routerId : Address4) (type : AreaType) (route : ExternalRoute) (r : Record) : Prop where
  own : r.origin = .selfOriginated
  advRouter : r.lsa.hdr.advRouter = routerId
  body : ∃ b, type.carrier? b = some r.lsa.body ∧ b.mask = route.net.mask ∧
    r.lsa.hdr.lsaId.and b.mask = route.net.base ∧ b.metric = min route.metric infiniteMetric ∧
    b.metricType = route.metricType ∧ b.forwarding = route.forwarding ∧ b.tag = route.tag

variable {type : AreaType} {routerId : Address4} {route : ExternalRoute} {b : Build}

theorem AreaType.external_of_carrier {x : ExternalBody} {body : Body} (h : type.carrier? x = some body) :
    body.external? = some x := by
  cases type with
  | normal =>
    cases h
    rfl
  | stub => cases h
  | nssa =>
    cases h
    rfl

/-- one LSA advertises routes with the same mask only -/
theorem Advertises.mask_eq {route' : ExternalRoute} {r : Record} (h : Advertises routerId type route r)
    (h' : Advertises routerId type route' r) : route.net.mask = route'.net.mask := by
  obtain ⟨x, hcarrier, hmask, -⟩ := h.body
  obtain ⟨x', hcarrier', hmask', -⟩ := h'.body
  have hx : x = x' := by
    have hexternal := AreaType.external_of_carrier hcarrier
    rw [AreaType.external_of_carrier hcarrier'] at hexternal
    exact (Option.some.inj hexternal).symm
  rw [← hmask, hx, hmask']

/-- what an origination that advertises a route says -/
theorem AreaType.announcement_eq (h : type.announcement? routerId route = some b) :
    type.carrier? route.body = some b.body ∧ b.advRouter = routerId ∧ b.lsaId = route.net.base := by
  cases type with
  | normal =>
    cases h
    exact ⟨rfl, rfl, rfl⟩
  | stub => cases h
  | nssa =>
    cases h
    exact ⟨rfl, rfl, rfl⟩

/-- the type of the LSAs that carry routes depends on the area alone -/
theorem AreaType.lsaType_of_carrier {x x' : ExternalBody} {body body' : Body} (h : type.carrier? x = some body)
    (h' : type.carrier? x' = some body') : body.lsaType = body'.lsaType := by
  cases type with
  | normal =>
    cases h
    cases h'
    rfl
  | stub => cases h
  | nssa =>
    cases h
    cases h'
    rfl

/-- only stub areas do not carry routes -/
theorem AreaType.exists_announcement (h : type ≠ .stub) (routerId : Address4) (route : ExternalRoute) :
    ∃ b, type.announcement? routerId route = some b := by
  cases type with
  | normal => exact ⟨_, rfl⟩
  | stub => exact absurd rfl h
  | nssa => exact ⟨_, rfl⟩

/-- what is originated for a route advertises it -/
theorem AreaType.advertises_record (h : type.announcement? routerId route = some b) (now : Instant)
    (r? : Option Record) : Advertises routerId type route (b.record now r?) := by
  obtain ⟨hbody, hadvRouter, hlsaId⟩ := announcement_eq h
  refine ⟨rfl, hadvRouter, route.body, hbody, rfl, ?_, rfl, route.metricType_body, rfl, rfl⟩
  change b.lsaId.and route.net.mask = route.net.base
  rw [hlsaId, Network4.base_and_mask]

/-- the key of an advertisement is made from the address of the network alone -/
theorem AreaType.key_eq_iff {route' : ExternalRoute} {b' : Build} (h : type.announcement? routerId route = some b)
    (h' : type.announcement? routerId route' = some b') : b.key = b'.key ↔ route.net.base = route'.net.base := by
  obtain ⟨hbody, hadvRouter, hlsaId⟩ := announcement_eq h
  obtain ⟨hbody', hadvRouter', hlsaId'⟩ := announcement_eq h'
  simp only [Build.key, lsaType_of_carrier hbody hbody', hadvRouter, hadvRouter', hlsaId, hlsaId', LsaKey.mk.injEq,
    true_and]

/-- Advertising a route in an area puts its LSA in place and leaves the others. -/
theorem Area.find?_advertised {area : Area} (hb : area.type.announcement? routerId route = some b) (now : Instant)
    (k : LsaKey) : (area.performed now (area.type.advertisement? routerId route)).db.table.find? k =
      Database.afterBuild now b k (area.db.table.find? k) := by
  cases htype : area.type with
  | normal =>
    rw [htype] at hb
    cases hb
    exact Database.find?_originate area.db now (.external routerId route) k
  | nssa =>
    rw [htype] at hb
    cases hb
    exact Database.find?_originate area.db now (.nssa routerId route) k
  | stub =>
    rw [htype] at hb
    cases hb

/-! ## The keys of advertisements -/

/-- the link state ID of an external LSA of the local router has no host bits -/
def Located (k : LsaKey) (origin : Origin) (body : Body) : Prop :=
  origin = .selfOriginated → ∀ x ∈ body.external?, k.lsaId.and x.mask = k.lsaId

theorem Database.located_perform {db : Database} (hsound : db.Sound) (h : db.Contents Located) (op : Op)
    (now : Instant) : (perform op now db).state.Contents Located := by
  refine contents_perform hsound h op now ?_ ?_ ?_
  · intro k origin body _ hold
    exact hold
  · intro hdr body _ _ hown
    cases hown
  · intro b hb hown x hx
    cases op with
    | installRouterLsa routerId flags links =>
      cases hb
      cases hx
    | installExternalLsa routerId route =>
      cases hb
      cases hx
      exact route.net.base_and_mask
    | installNssaLsa routerId route =>
      cases hb
      cases hx
      exact route.net.base_and_mask
    | _ => cases hb

theorem Database.located_of_reachable {s : Timed Database} (h : Reachable s) : s.state.Contents Located := by
  refine reachable_invariant (P := fun s => s.state.Contents Located) ?_ ?_ ?_ h
  · intro areaId start
    exact contents_empty areaId start Located
  · intro s d now hs _
    exact hs
  · intro s op hreach hs
    exact located_perform (sound_of_reachable hreach) hs op s.now

/-- **An LSA that advertises a route stands under the key that its origination writes to.** -/
theorem AreaType.key_of_advertises (h : type.announcement? routerId route = some b) {k : LsaKey} {r : Record}
    (hsound : r.Sound k) (hlocated : Located k r.origin r.lsa.body) (hadv : Advertises routerId type route r) :
    k = b.key := by
  obtain ⟨hbody, hadvRouter, hlsaId⟩ := announcement_eq h
  obtain ⟨x, hcarrier, -, hbase, -⟩ := hadv.body
  have hid : r.lsa.hdr.lsaId = route.net.base := by
    have hhost := hlocated hadv.own x (external_of_carrier hcarrier)
    rw [← hsound.key] at hhost
    exact hhost.symm.trans hbase
  rw [← hsound.key, Header.key, hsound.type, lsaType_of_carrier hcarrier hbody, hadv.advRouter, hid, ← hadvRouter,
    ← hlsaId]
  rfl

namespace Router

/-! ## Two redistributions -/

variable {p : Router} {now : Instant} {r₁ r₂ : ExternalRoute} {id : Address4} {area : Area} {b₁ b₂ : Build}

/-- a redistribution originates one LSA in an area, and the other LSAs stay -/
theorem find?_of_redistribution (harea : (p.redistribute now route).state.areas.find? id = some area)
    (h : area.type.announcement? p.routerId route = some b) :
    ∃ old, p.areas.find? id = some old ∧ old.type = area.type ∧
      ∀ k, area.db.table.find? k = Database.afterBuild now b k (old.db.table.find? k) := by
  have hperform := find?_perform (.redistribute route) now p id
  rw [show (perform (.redistribute route) now p).state = (p.redistribute now route).state from rfl, harea] at hperform
  obtain ⟨old, hold, rfl⟩ := Option.map_eq_some_iff.mp hperform.symm
  rw [Area.type_performed] at h
  exact ⟨old, hold, (Area.type_performed _ _ _).symm, Area.find?_advertised h now⟩

/-- what two redistributions originate in an area; the second replaces what the first wrote to the same key -/
theorem find?_of_redistributions
    (harea : ((p.redistribute now r₁).state.redistribute now r₂).state.areas.find? id = some area)
    (h₁ : area.type.announcement? p.routerId r₁ = some b₁) (h₂ : area.type.announcement? p.routerId r₂ = some b₂) :
    (∃ r?, area.db.table.find? b₂.key = some (b₂.record now r?)) ∧
      (b₁.key ≠ b₂.key → ∃ r?, area.db.table.find? b₁.key = some (b₁.record now r?)) := by
  obtain ⟨once, honce, htype, hafter⟩ := find?_of_redistribution harea h₂
  rw [← htype] at h₁
  obtain ⟨old, -, -, hbefore⟩ := find?_of_redistribution honce h₁
  constructor
  · exact ⟨once.db.table.find? b₂.key, (hafter b₂.key).trans (if_pos rfl)⟩
  · intro hkey
    refine ⟨old.db.table.find? b₁.key, ?_⟩
    calc area.db.table.find? b₁.key = once.db.table.find? b₁.key := (hafter b₁.key).trans (if_neg hkey)
      _ = some (b₁.record now (old.db.table.find? b₁.key)) := (hbefore b₁.key).trans (if_pos rfl)

/-- the state after two redistributions is one that runs lead to -/
theorem Reachable.redistributions {config : RouterConfig} {s : Timed Router} (h : Reachable config s)
    (r₁ r₂ : ExternalRoute) : Reachable config
      { s with state := ((s.state.redistribute s.now r₁).state.redistribute s.now r₂).state } :=
  (h.perform (.redistribute r₁)).perform (.redistribute r₂)

/-- **Networks with different addresses are advertised side by side, of two with the same address only the last.** Two
routes are redistributed right after each other. If the addresses of their networks differ, every area but a stub area
then has an LSA of the local router for each of the routes, in the way of the area. If the addresses are the same and
the lengths differ, there is one for the second route and none for the first. -/
theorem routes_kept {config : RouterConfig} {s : Timed Router} (h : Reachable config s) (r₁ r₂ : ExternalRoute)
    {id : Address4} {area : Area}
    (harea : (id, area) ∈ ((s.state.redistribute s.now r₁).state.redistribute s.now r₂).state.areas.entries)
    (htype : area.type ≠ .stub) :
    (r₁.net.base ≠ r₂.net.base → ∃ k₁ e₁ k₂ e₂, (k₁, e₁) ∈ area.db.table.entries ∧ (k₂, e₂) ∈ area.db.table.entries ∧
      k₁ ≠ k₂ ∧ Advertises s.state.routerId area.type r₁ e₁ ∧ Advertises s.state.routerId area.type r₂ e₂) ∧
      (r₁.net.base = r₂.net.base → r₁.net.length ≠ r₂.net.length →
        (∃ k e, (k, e) ∈ area.db.table.entries ∧ Advertises s.state.routerId area.type r₂ e) ∧
          ∀ k e, (k, e) ∈ area.db.table.entries → ¬ Advertises s.state.routerId area.type r₁ e) := by
  simp only [← SortedMap.find?_eq_some_iff] at harea ⊢
  obtain ⟨b₁, h₁⟩ := AreaType.exists_announcement htype s.state.routerId r₁
  obtain ⟨b₂, h₂⟩ := AreaType.exists_announcement htype s.state.routerId r₂
  obtain ⟨⟨r?, hsecond⟩, hfirst⟩ := find?_of_redistributions harea h₁ h₂
  have hlast : Advertises s.state.routerId area.type r₂ (b₂.record s.now r?) := AreaType.advertises_record h₂ s.now r?
  constructor
  · intro hbase
    have hkey : b₁.key ≠ b₂.key := mt (AreaType.key_eq_iff h₁ h₂).mp hbase
    obtain ⟨r?', hfirst⟩ := hfirst hkey
    exact ⟨b₁.key, _, b₂.key, _, hfirst, hsecond, hkey, AreaType.advertises_record h₁ s.now r?', hlast⟩
  · intro hbase hlength
    refine ⟨⟨b₂.key, _, hsecond, hlast⟩, ?_⟩
    intro k e he hadv
    have hreach := h.redistributions r₁ r₂
    have hsound : e.Sound k := sound_of_reachable hreach harea k e he
    have hlocated : Located k e.origin e.lsa.body :=
      Database.located_of_reachable (database_reachable hreach id area harea) k e he
    have hkey : k = b₂.key :=
      (AreaType.key_of_advertises h₁ hsound hlocated hadv).trans ((AreaType.key_eq_iff h₁ h₂).mpr hbase)
    rw [hkey, hsecond] at he
    cases he
    exact hlength (Network4.length_of_mask (hadv.mask_eq hlast))

/-- the backbone and an NSSA -/
def backboneAndNssa : RouterConfig := ⟨some ⟨1⟩, [⟨.unspecified, .normal⟩, ⟨⟨1⟩, .nssa⟩]⟩

/-- a route to a network in 10.0.0.0/8, by the second octet of its address and its length -/
def routeTo (octet : Nat) (length : Fin 33) : ExternalRoute := ⟨⟨.ofOctets 10 octet 0 0, length⟩, 1, .type2, none, 0⟩

/-- a network advertised beside a part of it with another address, and replaced by a part of it with the same address -/
theorem routes_kept_nested :
    ∃ s beside replaced, Reachable backboneAndNssa s ∧
      (⟨1⟩, beside) ∈ ((s.state.redistribute s.now (routeTo 0 8)).state.redistribute
        s.now (routeTo 1 16)).state.areas.entries ∧
      (⟨1⟩, replaced) ∈ ((s.state.redistribute s.now (routeTo 0 8)).state.redistribute
        s.now (routeTo 0 16)).state.areas.entries ∧
      (∃ k₁ e₁ k₂ e₂, (k₁, e₁) ∈ beside.db.table.entries ∧ (k₂, e₂) ∈ beside.db.table.entries ∧ k₁ ≠ k₂ ∧
        Advertises s.state.routerId .nssa (routeTo 0 8) e₁ ∧ Advertises s.state.routerId .nssa (routeTo 1 16) e₂) ∧
      ∃ k e, (k, e) ∈ replaced.db.table.entries ∧ Advertises s.state.routerId .nssa (routeTo 0 16) e := by
  obtain ⟨s, beside, replaced, hreach, hbeside, hreplaced, htype, htype'⟩ :
      ∃ s beside replaced, Reachable backboneAndNssa s ∧
        (⟨1⟩, beside) ∈ ((s.state.redistribute s.now (routeTo 0 8)).state.redistribute
          s.now (routeTo 1 16)).state.areas.entries ∧
        (⟨1⟩, replaced) ∈ ((s.state.redistribute s.now (routeTo 0 8)).state.redistribute
          s.now (routeTo 0 16)).state.areas.entries ∧ beside.type = .nssa ∧ replaced.type = .nssa :=
    ⟨_, _, _, ⟨.start, _, [], _, rfl, rfl, rfl⟩, List.mem_cons_of_mem _ List.mem_cons_self,
      List.mem_cons_of_mem _ List.mem_cons_self, rfl, rfl⟩
  have hkept := (routes_kept hreach (routeTo 0 8) (routeTo 1 16) hbeside (by rw [htype]; decide)).1 (by decide)
  have hlost := (routes_kept hreach (routeTo 0 8) (routeTo 0 16) hreplaced (by rw [htype']; decide)).2 rfl (by decide)
  rw [htype] at hkept
  rw [htype'] at hlost
  exact ⟨s, beside, replaced, hreach, hbeside, hreplaced, hkept, hlost.1⟩

/-- Of two networks with the same address, the first is not advertised any more. -/
theorem nested_network_lost :
    ∃ s area, Reachable backboneAndNssa s ∧ (.unspecified, area) ∈ ((s.state.redistribute s.now
        (routeTo 0 8)).state.redistribute s.now (routeTo 0 16)).state.areas.entries ∧ area.type = .normal ∧
      (routeTo 0 8).net.length ≠ (routeTo 0 16).net.length ∧
      ∀ k e, (k, e) ∈ area.db.table.entries → ¬ Advertises s.state.routerId area.type (routeTo 0 8) e := by
  obtain ⟨s, area, hreach, harea, htype, hmasks⟩ : ∃ s area, Reachable backboneAndNssa s ∧
      (.unspecified, area) ∈ ((s.state.redistribute s.now (routeTo 0 8)).state.redistribute
        s.now (routeTo 0 16)).state.areas.entries ∧ area.type = .normal ∧
      ∀ entry ∈ area.db.table.entries, ∀ x ∈ entry.2.lsa.body.external?, x.mask ≠ (routeTo 0 8).net.mask :=
    ⟨_, _, ⟨.start, _, [], _, rfl, rfl, rfl⟩, List.mem_cons_self, rfl, by decide +kernel⟩
  refine ⟨s, area, hreach, harea, htype, by decide, ?_⟩
  intro k e he hadv
  obtain ⟨x, hcarrier, hmask, -⟩ := hadv.body
  exact hmasks (k, e) he x (AreaType.external_of_carrier hcarrier) hmask

end Router

end RoutingReplay.Ospf
