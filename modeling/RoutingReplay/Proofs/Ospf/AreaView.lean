/-
The routing process as seen from one area.

What an operation of the process does to an area is at most one operation on its database: `Op.local?` says which one,
and `find?_perform` says that this is all. Everything else about an area, its ID and its type, is settled by the
configuration, and so are the roles that depend on the areas (`layout`). In every state that runs of the process lead to
(`Reachable`), the database of an area is therefore one that runs of databases lead to (`database_reachable`), and what
holds of those holds of it.
-/
import RoutingReplay.Proofs.Ospf.Areas
import RoutingReplay.Proofs.Ospf.Reachable

namespace RoutingReplay.Ospf

/-! ## One area -/

namespace Area

variable {α : Type}

/-- the area after an operation on its database, if there is one -/
def performed (area : Area) (now : Instant) (op? : Option Database.Op) : Area :=
  match op? with
  | none => area
  | some op => { area with db := (Database.perform op now area.db).state }

@[simp] theorem id_performed (area : Area) (now : Instant) (op? : Option Database.Op) :
    (area.performed now op?).id = area.id := by
  cases op? <;> rfl

@[simp] theorem type_performed (area : Area) (now : Instant) (op? : Option Database.Op) :
    (area.performed now op?).type = area.type := by
  cases op? <;> rfl

end Area

/-- the operation that advertises an external route in an area of this type -/
def AreaType.advertisement? (type : AreaType) (routerId : Address4) (route : ExternalRoute) : Option Database.Op :=
  match type with
  | .normal => some (.installExternalLsa routerId route)
  | .nssa => some (.installNssaLsa routerId route)
  | .stub => none

namespace Area

theorem state_receive (area : Area) (now : Instant) (hdr : Header) (body : Body) :
    (area.receive now hdr body).state =
      area.performed now (if area.type.admits hdr.lsaType then some (.receive hdr body) else none) := by
  unfold receive
  split <;> rfl

theorem state_advertise (area : Area) (now : Instant) (routerId : Address4) (route : ExternalRoute) :
    (area.advertise now routerId route).state = area.performed now (area.type.advertisement? routerId route) := by
  unfold advertise AreaType.advertisement?
  cases area.type <;> rfl

end Area

namespace Router

/-! ## One operation -/

/-- what an operation of the process does to the database of the area with this ID and type, if anything -/
def Op.local? (op : Op) (p : Router) (id : Address4) (type : AreaType) : Option Database.Op :=
  match op with
  | .receive target hdr body => if id = target ∧ type.admits hdr.lsaType then some (.receive hdr body) else none
  | .originateRouterLsa target links =>
    if id = target then some (.installRouterLsa p.routerId p.routerFlags links) else none
  | .redistribute route => type.advertisement? p.routerId route
  | .age elapsed => some (.age elapsed)
  | .refresh => some .refresh

/-- **An operation of the process is at most one operation on the database of an area.** -/
theorem find?_perform (op : Op) (now : Instant) (p : Router) (id : Address4) :
    (perform op now p).state.areas.find? id =
      (p.areas.find? id).map fun area => area.performed now (op.local? p id area.type) := by
  have hperform : ∀ f : Area → Area, (∀ area, f area = area.performed now (op.local? p id area.type)) →
      (perform op now p).state.areas.find? id = (p.areas.find? id).map f →
      (perform op now p).state.areas.find? id =
        (p.areas.find? id).map fun area => area.performed now (op.local? p id area.type) := by
    intro f hf hfind
    rw [hfind, funext hf]
  cases op with
  | receive target hdr body =>
    apply hperform _ _ (find?_onArea _ p target id)
    intro area
    by_cases hid : id = target
    · simp only [hid, if_true, Op.local?, true_and]
      exact area.state_receive now hdr body
    · simp [hid, Op.local?, Area.performed]
  | originateRouterLsa target links =>
    apply hperform _ _ (find?_onArea _ p target id)
    intro area
    by_cases hid : id = target
    · simp only [hid, if_true, Op.local?]
      rfl
    · simp [hid, Op.local?, Area.performed]
  | redistribute route =>
    apply hperform _ _ (find?_onAreas _ { p with isBoundary := true } id)
    intro area
    exact area.state_advertise now p.routerId route
  | age elapsed => exact hperform _ (fun area => rfl) (find?_onAreas _ p id)
  | refresh => exact hperform _ (fun area => rfl) (find?_onAreas _ p id)

/-- No operation changes which areas there are. -/
theorem contains_perform (op : Op) (now : Instant) (p : Router) (id : Address4) :
    (perform op now p).state.areas.contains id = p.areas.contains id := by
  rw [SortedMap.contains, find?_perform, Option.isSome_map, SortedMap.contains]

/-- an LSA that comes from a neighbour is of a type that the area admits -/
theorem Op.of_local?_receive {op : Op} {p : Router} {id : Address4} {type : AreaType} {hdr : Header} {body : Body}
    (h : op.local? p id type = some (.receive hdr body)) :
    op = .receive id hdr body ∧ type.admits hdr.lsaType = true := by
  cases op with
  | receive target hdr' body' =>
    simp only [local?, Option.ite_none_right_eq_some, Option.some.injEq, Database.Op.receive.injEq] at h
    obtain ⟨⟨rfl, hadmits⟩, rfl, rfl⟩ := h
    exact ⟨rfl, hadmits⟩
  | originateRouterLsa target links =>
    simp only [local?, Option.ite_none_right_eq_some, Option.some.injEq, reduceCtorEq, and_false] at h
  | redistribute route => cases type <;> cases h
  | age elapsed => cases h
  | refresh => cases h

/-- what the process originates in an area is its Router-LSA or advertises a route in the way of the area -/
theorem Op.build_of_local? {op : Op} {p : Router} {id : Address4} {type : AreaType} {dbOp : Database.Op}
    (h : op.local? p id type = some dbOp) {b : Build} (hb : b ∈ dbOp.build?) :
    (∃ links, op = .originateRouterLsa id links ∧ b = .router p.routerId p.routerFlags links) ∨
      ∃ route, op = .redistribute route ∧
        (type = .normal ∧ b = .external p.routerId route ∨ type = .nssa ∧ b = .nssa p.routerId route) := by
  cases op with
  | receive target hdr body =>
    simp only [local?, Option.ite_none_right_eq_some, Option.some.injEq] at h
    obtain ⟨-, rfl⟩ := h
    cases hb
  | originateRouterLsa target links =>
    simp only [local?, Option.ite_none_right_eq_some, Option.some.injEq] at h
    obtain ⟨rfl, rfl⟩ := h
    cases hb
    exact Or.inl ⟨links, rfl, rfl⟩
  | redistribute route =>
    refine Or.inr ⟨route, rfl, ?_⟩
    cases type with
    | normal =>
      cases h
      cases hb
      exact Or.inl ⟨rfl, rfl⟩
    | stub => cases h
    | nssa =>
      cases h
      cases hb
      exact Or.inr ⟨rfl, rfl⟩
  | age elapsed =>
    cases h
    cases hb
  | refresh =>
    cases h
    cases hb

/-- only a refresh of the process refreshes a database -/
theorem Op.of_local?_refresh {op : Op} {p : Router} {id : Address4} {type : AreaType}
    (h : op.local? p id type = some .refresh) : op = .refresh := by
  cases op with
  | receive target hdr body => simp [local?] at h
  | originateRouterLsa target links => simp [local?] at h
  | redistribute route => cases type <;> cases h
  | age elapsed => cases h
  | refresh => rfl

@[simp] theorem routerId_perform (op : Op) (now : Instant) (p : Router) :
    (perform op now p).state.routerId = p.routerId := by
  cases op with
  | receive target hdr body => exact routerId_onArea _ p target
  | originateRouterLsa target links => exact routerId_onArea _ p target
  | redistribute route => rfl
  | age elapsed => rfl
  | refresh => rfl

/-! ## The areas as configured -/

/-- the areas, each as it is configured -/
def layout (p : Router) : SortedMap Address4 AreaConfig := p.areas.mapValues fun _ area => ⟨area.id, area.type⟩

/-- No operation changes the areas as they are configured. -/
theorem layout_perform (op : Op) (now : Instant) (p : Router) : (perform op now p).state.layout = p.layout := by
  apply SortedMap.ext_find?
  intro id
  simp only [layout, SortedMap.find?_mapValues, find?_perform, Option.map_map]
  congr 1
  funext area
  simp only [Function.comp_apply, Area.id_performed, Area.type_performed]

theorem isBorder_eq (p : Router) :
    p.isBorder = (decide (1 < p.layout.size) && p.layout.values.any fun config => config.id = .unspecified) := by
  simp only [isBorder, layout, SortedMap.size_mapValues]
  congr 1
  simp only [SortedMap.values, SortedMap.mapValues, List.map_map, List.any_map]
  rfl

/-- No operation makes a router a border router, or stops it from being one. -/
theorem isBorder_perform (op : Op) (now : Instant) (p : Router) : (perform op now p).state.isBorder = p.isBorder := by
  rw [isBorder_eq, isBorder_eq, layout_perform]

section

variable {config : RouterConfig} {now : Instant} {p : Router} (h : (create config now).answer = .ok p)

include h

theorem find?_layout_of_create (id : Address4) (c : AreaConfig) :
    p.layout.find? id = some c ↔ c ∈ config.areas ∧ c.id = id := by
  simp only [layout, SortedMap.find?_mapValues, Option.map_eq_some_iff, find?_of_create h]
  constructor
  · rintro ⟨area, ⟨c', hmem, hid, rfl⟩, rfl⟩
    exact ⟨hmem, hid⟩
  · rintro ⟨hmem, hid⟩
    exact ⟨fresh now c, ⟨c, hmem, hid, rfl⟩, rfl⟩

theorem size_layout_of_create : p.layout.size = config.areas.length := by
  obtain ⟨routerId, areas, -, hareas, rfl⟩ := create_eq_ok_iff.mp h
  rw [layout, SortedMap.size_mapValues, size_of_createAreas hareas]
  exact Nat.zero_add _

/-- whether a new process is a border router depends on its configuration alone -/
theorem isBorder_of_create :
    p.isBorder = true ↔ 2 ≤ config.areas.length ∧ .unspecified ∈ config.areas.map AreaConfig.id := by
  simp only [isBorder_eq, size_layout_of_create h, Bool.and_eq_true, decide_eq_true_eq, List.any_eq_true,
    SortedMap.mem_values_iff, find?_layout_of_create h, List.mem_map]
  constructor
  · rintro ⟨hsize, c, ⟨id, hmem, -⟩, hbackbone⟩
    exact ⟨hsize, c, hmem, hbackbone⟩
  · rintro ⟨hsize, c, hmem, hbackbone⟩
    exact ⟨hsize, c, ⟨c.id, hmem, rfl⟩, hbackbone⟩

end

/-! ## Runs -/

/-- the process and its clock after some run, which starts with the configured areas -/
def Reachable (config : RouterConfig) (s : Timed Router) : Prop :=
  ∃ start p turns out, (create config start).answer = .ok p ∧ run ⟨start, p⟩ turns = .ok out ∧ out.state = s

theorem Reachable.perform {config : RouterConfig} {s : Timed Router} (h : Reachable config s) (op : Op) :
    Reachable config { s with state := (Router.perform op s.now s.state).state } := by
  obtain ⟨start, p, turns, out, hcreate, hrun, rfl⟩ := h
  obtain ⟨longer, hlonger, hstate⟩ := Timed.run_concat (t := .perform op) hrun rfl
  exact ⟨start, p, turns ++ [Turn.perform op], longer, hcreate, hlonger, hstate⟩

theorem Reachable.wait {config : RouterConfig} {s : Timed Router} (h : Reachable config s) {d : Duration}
    {now : Instant} (hnow : s.now.advance d = .ok now) : Reachable config { s with now } := by
  obtain ⟨start, p, turns, out, hcreate, hrun, rfl⟩ := h
  have hturn : Timed.turn Router.perform out.state (.wait d) = .ok (.silent { out.state with now } []) := by
    rw [Timed.turn, hnow]
  obtain ⟨longer, hlonger, hstate⟩ := Timed.run_concat hrun hturn
  exact ⟨start, p, turns ++ [Turn.wait d], longer, hcreate, hlonger, hstate⟩

/-- What holds of a new process, and what time and every operation keep, holds after every run. -/
theorem reachable_invariant {config : RouterConfig} {P : Timed Router → Prop}
    (create : ∀ start p, (create config start).answer = .ok p → P ⟨start, p⟩)
    (wait : ∀ s d now, P s → s.now.advance d = .ok now → P { s with now })
    (perform : ∀ s op, Reachable config s → P s → P { s with state := (perform op s.now s.state).state })
    {s : Timed Router} (h : Reachable config s) : P s := by
  obtain ⟨start, p, turns, out, hcreate, hrun, rfl⟩ := h
  have hstart : Reachable config ⟨start, p⟩ := ⟨start, p, [], _, hcreate, rfl, rfl⟩
  refine (Timed.run_invariant (P := fun s => Reachable config s ∧ P s) ?_ ?_ ⟨hstart, create start p hcreate⟩
    turns hrun).2
  · rintro s d now ⟨hreach, hs⟩ hnow
    exact ⟨hreach.wait hnow, wait s d now hs hnow⟩
  · rintro s op ⟨hreach, hs⟩
    exact ⟨hreach.perform op, perform s op hreach hs⟩

/-- The areas are always as they are configured. -/
theorem find?_layout_of_reachable {config : RouterConfig} {s : Timed Router} (h : Reachable config s) (id : Address4)
    (c : AreaConfig) : s.state.layout.find? id = some c ↔ c ∈ config.areas ∧ c.id = id := by
  refine reachable_invariant (P := fun s => s.state.layout.find? id = some c ↔ c ∈ config.areas ∧ c.id = id)
    ?_ ?_ ?_ h
  · intro start p hcreate
    exact find?_layout_of_create hcreate id c
  · intro s d now hs _
    exact hs
  · intro s op _ hs
    rw [layout_perform]
    exact hs

/-- an area stands under its ID and is of the type that it is configured with -/
theorem configured_of_reachable {config : RouterConfig} {s : Timed Router} (h : Reachable config s) {id : Address4}
    {area : Area} (harea : s.state.areas.find? id = some area) :
    area.id = id ∧ (⟨id, area.type⟩ : AreaConfig) ∈ config.areas := by
  have hlayout : s.state.layout.find? id = some ⟨area.id, area.type⟩ := by
    rw [layout, SortedMap.find?_mapValues, harea, Option.map_some]
  obtain ⟨hmem, hid⟩ := (find?_layout_of_reachable h id _).mp hlayout
  simp only at hid
  exact ⟨hid, hid ▸ hmem⟩

/-- every area that is configured is there -/
theorem exists_area_of_reachable {config : RouterConfig} {s : Timed Router} (h : Reachable config s) {id : Address4}
    (hid : id ∈ config.areas.map AreaConfig.id) : ∃ area, s.state.areas.find? id = some area := by
  obtain ⟨c, hmem, hid⟩ := List.mem_map.mp hid
  have hlayout := (find?_layout_of_reachable h id c).mpr ⟨hmem, hid⟩
  rw [layout, SortedMap.find?_mapValues, Option.map_eq_some_iff] at hlayout
  obtain ⟨area, harea, -⟩ := hlayout
  exact ⟨area, harea⟩

/-- whether a process is a border router always depends on its configuration alone -/
theorem isBorder_of_reachable {config : RouterConfig} {s : Timed Router} (h : Reachable config s) :
    s.state.isBorder = true ↔ 2 ≤ config.areas.length ∧ .unspecified ∈ config.areas.map AreaConfig.id := by
  refine reachable_invariant (P := fun s => s.state.isBorder = true ↔
    2 ≤ config.areas.length ∧ .unspecified ∈ config.areas.map AreaConfig.id) ?_ ?_ ?_ h
  · intro start p hcreate
    exact isBorder_of_create hcreate
  · intro s d now hs _
    exact hs
  · intro s op _ hs
    rw [isBorder_perform]
    exact hs

/-- **The database of an area is one that runs of databases lead to.** -/
theorem database_reachable {config : RouterConfig} {s : Timed Router} (h : Reachable config s) :
    ∀ id area, s.state.areas.find? id = some area → Database.Reachable ⟨s.now, area.db⟩ := by
  refine reachable_invariant (P := fun s => ∀ id area, s.state.areas.find? id = some area →
    Database.Reachable ⟨s.now, area.db⟩) ?_ ?_ ?_ h
  · intro start p hcreate id area harea
    obtain ⟨c, -, -, rfl⟩ := (find?_of_create hcreate id area).mp harea
    exact Database.reachable_empty c.id start
  · intro s d now hs hnow id area harea
    exact (hs id area harea).wait hnow
  · intro s op _ hs id area harea
    rw [find?_perform, Option.map_eq_some_iff] at harea
    obtain ⟨old, hold, rfl⟩ := harea
    cases hlocal : op.local? s.state id old.type with
    | none => exact hs id old hold
    | some dbOp => exact (hs id old hold).perform dbOp

theorem sound_of_reachable {config : RouterConfig} {s : Timed Router} (h : Reachable config s) {id : Address4}
    {area : Area} (harea : s.state.areas.find? id = some area) : area.db.Sound :=
  Database.sound_of_reachable (database_reachable h id area harea)

end Router

end RoutingReplay.Ospf
