/-
Areas hold LSAs of the types that they admit, and no others.

LSAs come into an area in four ways: a neighbour sends them, the Router-LSA is originated, a route is redistributed, and
a refresh repeats what is stored. Only the first way looks at the type of the area. The Router-LSA may enter any area,
a route is advertised in the way of the area, and a refresh brings nothing new, so the others keep to the types as well
(`admitted_perform`). What is compared with the type of the area is the header of an LSA; the database, in turn, takes an
LSA only if its header is of the type of its body, so the bodies keep to the types, too (`types_admitted`).
-/
import RoutingReplay.Proofs.Ospf.AreaView

namespace RoutingReplay.Ospf

/-! ## What the types of areas admit -/

/-- the numbers of the types that an area of each type admits -/
theorem AreaType.code_of_admits {type : AreaType} {kind : LsaKind} (h : type.admits kind.type = true) :
    kind.type.code ∈ [1, 2, 3, 4, 5, 7] ∧ (type ≠ .normal → kind.type.code ≠ 4 ∧ kind.type.code ≠ 5) ∧
      (type ≠ .nssa → kind.type.code ≠ 7) := by
  revert h
  cases type <;> cases kind <;> decide

theorem AreaType.admits_router (type : AreaType) : type.admits LsaKind.router.type = true := by
  cases type <;> rfl

/-- every LSA of an area has a body of a type that the area admits -/
def Area.Admitted (area : Area) : Prop := area.db.Contents fun _ _ body => area.type.admits body.lsaType = true

namespace Router

/-! ## One operation -/

/-- An operation lets nothing into an area that the area does not admit. -/
theorem admitted_perform {area : Area} (hsound : area.db.Sound) (h : area.Admitted) (op : Op) (now : Instant)
    (p : Router) (id : Address4) : (area.performed now (op.local? p id area.type)).Admitted := by
  cases hlocal : op.local? p id area.type with
  | none => exact h
  | some dbOp =>
    apply Database.contents_perform hsound (Q := fun _ _ body => area.type.admits body.lsaType = true) h dbOp now
    · intro k origin body _ hbody
      exact hbody
    · intro hdr body hop htype
      subst hop
      obtain ⟨-, hadmits⟩ := Op.of_local?_receive hlocal
      exact htype ▸ hadmits
    · intro b hb
      rcases Op.build_of_local? hlocal hb with ⟨links, -, rfl⟩ | ⟨route, -, ⟨htype, rfl⟩ | ⟨htype, rfl⟩⟩
      · exact area.type.admits_router
      · change area.type.admits LsaKind.asExternal.type = true
        rw [htype]
        rfl
      · change area.type.admits LsaKind.nssaExternal.type = true
        rw [htype]
        rfl

/-! ## Runs -/

theorem admitted_of_reachable {config : RouterConfig} {s : Timed Router} (h : Reachable config s) :
    ∀ id area, s.state.areas.find? id = some area → area.Admitted := by
  refine reachable_invariant (P := fun s => ∀ id area, s.state.areas.find? id = some area → area.Admitted) ?_ ?_ ?_ h
  · intro start p hcreate id area harea
    obtain ⟨c, -, -, rfl⟩ := (find?_of_create hcreate id area).mp harea
    exact Database.contents_empty c.id start _
  · intro s d now hs _
    exact hs
  · intro s op hreach hs id area harea
    rw [find?_perform, Option.map_eq_some_iff] at harea
    obtain ⟨old, hold, rfl⟩ := harea
    exact admitted_perform (sound_of_reachable hreach hold) (hs id old hold) op s.now s.state id

/-- **Areas hold LSAs of the types that they admit, and no others.** In every state that a run of the process leads to,
an area is of the type that it is configured with, an LSA in it is of a type that the area admits, and this is the type
of its body. So LSAs of unknown types are nowhere, AS-external LSAs and summaries of border routers are in normal areas
only, and NSSA-external LSAs in NSSAs only. -/
theorem types_admitted {config : RouterConfig} {s : Timed Router} (h : Reachable config s) {id : Address4} {area : Area}
    (harea : (id, area) ∈ s.state.areas.entries) {k : LsaKey} {r : Record} (hentry : (k, r) ∈ area.db.table.entries) :
    (⟨id, area.type⟩ : AreaConfig) ∈ config.areas ∧
      area.type.admits r.lsa.hdr.lsaType = true ∧ r.lsa.hdr.lsaType = r.lsa.body.lsaType ∧
      r.lsa.hdr.lsaType.code ∈ [1, 2, 3, 4, 5, 7] ∧
      (area.type ≠ .normal → r.lsa.hdr.lsaType.code ≠ 4 ∧ r.lsa.hdr.lsaType.code ≠ 5) ∧
      (area.type ≠ .nssa → r.lsa.hdr.lsaType.code ≠ 7) := by
  have hfind : s.state.areas.find? id = some area := SortedMap.find?_eq_some_iff.mpr harea
  have hrecord : area.db.table.find? k = some r := SortedMap.find?_eq_some_iff.mpr hentry
  have htype : r.lsa.hdr.lsaType = r.lsa.body.lsaType := (sound_of_reachable h hfind k r hrecord).type
  have hadmits : area.type.admits r.lsa.body.kind.type = true := admitted_of_reachable h id area hfind k r hrecord
  rw [htype]
  exact ⟨(configured_of_reachable h hfind).2, hadmits, rfl, AreaType.code_of_admits hadmits⟩

/-- a backbone, a stub area and an NSSA -/
def oneOfEach : RouterConfig := ⟨some ⟨1⟩, [⟨.unspecified, .normal⟩, ⟨⟨1⟩, .stub⟩, ⟨⟨2⟩, .nssa⟩]⟩

/-- the route to everywhere -/
def defaultRoute : ExternalRoute := ⟨⟨.unspecified, ⟨0, by decide⟩⟩, 1, .type2, none, 0⟩

/-- an AS-external LSA from another router -/
def foreignExternal (lsaType : LsaType) : Header := ⟨0, .external, lsaType, .unspecified, ⟨9⟩, some 1, none, none⟩

/-- LSAs come in all four ways; the NSSA does not take those of its neighbour, whatever their header says -/
def allWays : List (Turn Op) :=
  [.perform (.receive ⟨2⟩ (foreignExternal LsaKind.asExternal.type) (.asExternal defaultRoute.body)),
    .perform (.receive ⟨2⟩ (foreignExternal LsaKind.nssaExternal.type) (.asExternal defaultRoute.body)),
    .perform (.redistribute defaultRoute), .perform (.originateRouterLsa ⟨2⟩ []), .perform (.age 1800), .perform .refresh]

/-- what is in the three areas after that -/
theorem types_admitted_allWays :
    ∃ s, Reachable oneOfEach s ∧
      (s.state.areas.values.map fun area => (area.type, area.db.table.keys.map (·.lsaType.code))) =
        [(.normal, [5]), (.stub, []), (.nssa, [1, 7])] ∧
      ∀ id area, (id, area) ∈ s.state.areas.entries → ∀ k r, (k, r) ∈ area.db.table.entries →
        area.type.admits r.lsa.hdr.lsaType = true ∧ r.lsa.hdr.lsaType = r.lsa.body.lsaType := by
  obtain ⟨s, hreach, hareas⟩ : ∃ s, Reachable oneOfEach s ∧
      (s.state.areas.values.map fun area => (area.type, area.db.table.keys.map (·.lsaType.code))) =
        [(.normal, [5]), (.stub, []), (.nssa, [1, 7])] :=
    ⟨_, ⟨.start, _, allWays, _, rfl, rfl, rfl⟩, rfl⟩
  refine ⟨s, hreach, hareas, fun id area harea k r hentry => ?_⟩
  obtain ⟨-, hadmits, htype, -⟩ := types_admitted hreach harea hentry
  exact ⟨hadmits, htype⟩

end Router

end RoutingReplay.Ospf
