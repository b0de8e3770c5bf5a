/-
The areas of a routing process, side by side.

A database that stands alone and is given the share of a run that concerns an area goes through the same states as the
database of that area. The share depends on the run, on the router ID and on the roles of the router, never on what the
areas hold (`share`). So a process is nothing but the databases of its areas, side by side (`areas_side_by_side`): each
of them is what the database that stands alone is by then, an answer of the process is put together from what the
databases that stand alone answer, and operations that are addressed to different areas commute.

The induction is on the run, for one area at a time (`exists_run_share`). What carries it is that the process keeps the
roles that the share was cut with (`SameRoles.perform`). The totals go over the configured areas in any order
(`entries_perm`).
-/
import RoutingReplay.Proofs.Ospf.AreaTypes
import RoutingReplay.Proofs.Ospf.RouterRoles

namespace RoutingReplay.Ospf

namespace Router

/-! ## The share of an area -/

/-- the part of a run that concerns the database of an area. Of the process that the run starts with, only the router ID
and the roles count. -/
def share (p : Router) (c : AreaConfig) : List (Turn Op) → List (Turn Database.Op)
  | [] => []
  | .wait d :: rest => .wait d :: share p c rest
  | .perform op :: rest =>
    let later := { p with isBoundary := p.isBoundary || op.isRedistribution }
    match op.local? p c.id c.type with
    | none => share later c rest
    | some dbOp => .perform dbOp :: share later c rest

/-- the same router ID and the same roles -/
structure SameRoles (p q : Router) : Prop where
  routerId : p.routerId = q.routerId
  isBorder : p.isBorder = q.isBorder
  isBoundary : p.isBoundary = q.isBoundary

namespace SameRoles

variable {p q : Router}

/-- what an operation does to an area depends on the roles alone -/
theorem local?_eq (h : SameRoles p q) (op : Op) (id : Address4) (type : AreaType) :
    op.local? p id type = op.local? q id type := by
  have hflags : p.routerFlags = q.routerFlags := by
    rw [routerFlags, routerFlags, h.isBorder, h.isBoundary]
  cases op with
  | receive target hdr body => rfl
  | originateRouterLsa target links => simp only [Op.local?, h.routerId, hflags]
  | redistribute route => simp only [Op.local?, h.routerId]
  | age elapsed => rfl
  | refresh => rfl

/-- the roles after an operation are those that the share goes on with -/
theorem perform (h : SameRoles p q) (op : Op) (now : Instant) :
    SameRoles (Router.perform op now p).state { q with isBoundary := q.isBoundary || op.isRedistribution } := by
  constructor
  · rw [routerId_perform, h.routerId]
  · rw [isBorder_perform, h.isBorder]
    rfl
  · rw [isBoundary_perform, h.isBoundary]

end SameRoles

/-- The database of an area goes through the states that it would go through alone. -/
theorem exists_run_share {c : AreaConfig} {p : Router} {s : Timed Router} (hroles : SameRoles s.state p) {db : Database}
    (harea : s.state.areas.find? c.id = some ⟨c.id, c.type, db⟩) (turns : List (Turn Op))
    {out : Outcome (Timed Router) Notice (List Answer)} (hrun : run s turns = .ok out) :
    ∃ alone, Database.run ⟨s.now, db⟩ (share p c turns) = .ok alone ∧ alone.state.now = out.state.now ∧
      out.state.state.areas.find? c.id = some ⟨c.id, c.type, alone.state.state⟩ := by
  induction turns generalizing s p db out with
  | nil =>
    rw [Timed.run_nil hrun]
    exact ⟨_, rfl, rfl, harea⟩
  | cons t rest ih =>
    cases t with
    | wait d =>
      obtain ⟨now, hnow, others, hrest, hstate, -⟩ := Timed.run_wait hrun
      obtain ⟨alone, halone, htime, hdb⟩ := ih (s := { s with now }) hroles harea hrest
      obtain ⟨longer, hlonger, hsame⟩ := Timed.exists_run_wait (s := ⟨s.now, db⟩) hnow halone
      rw [← hsame] at htime hdb
      exact ⟨longer, hlonger, hstate ▸ htime, hstate ▸ hdb⟩
    | perform op =>
      obtain ⟨others, hrest, hstate, -⟩ := Timed.run_perform hrun
      have hnext := find?_perform op s.now s.state c.id
      rw [harea, Option.map_some, hroles.local?_eq] at hnext
      rw [share, hstate]
      cases hlocal : op.local? p c.id c.type with
      | none =>
        rw [hlocal] at hnext
        exact ih (s := { s with state := (perform op s.now s.state).state }) (hroles.perform op s.now) hnext hrest
      | some dbOp =>
        rw [hlocal] at hnext
        obtain ⟨alone, halone, htime, hdb⟩ :=
          ih (s := { s with state := (perform op s.now s.state).state }) (hroles.perform op s.now) hnext hrest
        obtain ⟨longer, hlonger, hsame⟩ := Timed.exists_run_perform (s := ⟨s.now, db⟩) halone
        rw [← hsame] at htime hdb
        exact ⟨longer, hlonger, htime, hdb⟩

/-! ## Answers -/

section

variable {config : RouterConfig} {s : Timed Router} {dbs : Address4 → Database}

theorem size_of_reachable (h : Reachable config s) : s.state.areas.size = config.areas.length := by
  have hsize : s.state.layout.size = config.areas.length := by
    refine reachable_invariant (P := fun s => s.state.layout.size = config.areas.length) ?_ ?_ ?_ h
    · intro start p hcreate
      exact size_layout_of_create hcreate
    · intro s d now hs _
      exact hs
    · intro s op _ hs
      rw [layout_perform]
      exact hs
  rw [← hsize, layout, SortedMap.size_mapValues]

/-- the areas of a process are the configured ones, each with its database -/
theorem entries_perm (h : Reachable config s)
    (hdbs : ∀ c ∈ config.areas, s.state.areas.find? c.id = some ⟨c.id, c.type, dbs c.id⟩) :
    s.state.areas.entries.Perm (config.areas.map fun c => (c.id, (⟨c.id, c.type, dbs c.id⟩ : Area))) := by
  have hnodup : s.state.areas.entries.Nodup := by
    refine s.state.areas.ascending.imp ?_
    intro a b hlt hab
    exact KeyOrder.ne_of_lt hlt (congrArg Prod.fst hab)
  have hsubset : s.state.areas.entries ⊆ config.areas.map fun c => (c.id, (⟨c.id, c.type, dbs c.id⟩ : Area)) := by
    rintro ⟨id, area⟩ hmem
    have hstored := SortedMap.find?_eq_some_iff.mpr hmem
    obtain ⟨-, hconfig⟩ := configured_of_reachable h hstored
    have harea : area = ⟨id, area.type, dbs id⟩ := Option.some.inj (hstored.symm.trans (hdbs _ hconfig))
    exact List.mem_map.mpr ⟨⟨id, area.type⟩, hconfig, Prod.ext rfl harea.symm⟩
  refine (hnodup.subperm hsubset).perm_of_length_le ?_
  rw [List.length_map, ← size_of_reachable h]
  exact le_rfl

/-- a total over all areas is the total over the configured ones -/
theorem sum_answer_onAreas (h : Reachable config s)
    (hdbs : ∀ c ∈ config.areas, s.state.areas.find? c.id = some ⟨c.id, c.type, dbs c.id⟩)
    (act : Database → Database.Step Nat) :
    (s.state.onAreas fun area => area.onDatabase act).answer.foldr (· + ·) 0 =
      (config.areas.map fun c => (act (dbs c.id)).answer).sum := by
  have hperm := (entries_perm h hdbs).map fun e => (act e.2.db).answer
  rw [List.map_map] at hperm
  exact List.sum_eq_foldr.symm.trans hperm.sum_eq

end

/-- what a database answers to the part of an operation that concerns its area, if there is one -/
def Op.reply? (op : Op) (p : Router) (now : Instant) (c : AreaConfig) (db : Database) : Option Database.Answer :=
  (op.local? p c.id c.type).map fun dbOp => (Database.perform dbOp now db).answer

/-- whether an area has taken or originated an LSA when an operation is performed -/
def Op.succeeds (op : Op) (p : Router) (now : Instant) (c : AreaConfig) (db : Database) : Bool :=
  op.reply? p now c db = some (.flag true)

theorem answer_receive (c : AreaConfig) (db : Database) (p : Router) (now : Instant) (hdr : Header) (body : Body) :
    ((⟨c.id, c.type, db⟩ : Area).receive now hdr body).answer = (Op.receive c.id hdr body).succeeds p now c db := by
  unfold Area.receive Op.succeeds Op.reply? Op.local?
  by_cases hadmits : c.type.admits hdr.lsaType = true
  · simp [hadmits, Area.onDatabase, Database.perform, Outcome.map]
  · simp [hadmits, Outcome.silent]

theorem answer_advertise (c : AreaConfig) (db : Database) (p : Router) (now : Instant) (route : ExternalRoute) :
    ((⟨c.id, c.type, db⟩ : Area).advertise now p.routerId route).answer =
      (Op.redistribute route).succeeds p now c db := by
  unfold Area.advertise Op.succeeds Op.reply? Op.local? AreaType.advertisement?
  cases c.type with
  | normal => simp [Area.onDatabase, Database.perform, Outcome.map]
  | stub => simp [Outcome.silent]
  | nssa => simp [Area.onDatabase, Database.perform, Outcome.map]

/-! ## Operations on one area -/

/-- the area that an operation is addressed to -/
def Op.target? : Op → Option Address4
  | .receive area _ _ => some area
  | .originateRouterLsa area _ => some area
  | .redistribute _ => none
  | .age _ => none
  | .refresh => none

section

variable {op op' : Op} {id id' : Address4}

theorem Op.local?_of_ne (hop : op.target? = some id) (h : id' ≠ id) (p : Router) (type : AreaType) :
    op.local? p id' type = none := by
  cases op with
  | receive target hdr body =>
    cases hop
    simp [local?, h]
  | originateRouterLsa target links =>
    cases hop
    simp [local?, h]
  | redistribute route => cases hop
  | age elapsed => cases hop
  | refresh => cases hop

/-- an operation on one area leaves the others alone -/
theorem find?_perform_of_ne (hop : op.target? = some id) (h : id' ≠ id) (now : Instant) (p : Router) :
    (perform op now p).state.areas.find? id' = p.areas.find? id' := by
  have hsame : (fun area : Area => area.performed now (op.local? p id' area.type)) = fun area => area := by
    funext area
    rw [Op.local?_of_ne hop h]
    rfl
  rw [find?_perform, hsame]
  exact Option.map_id'

/-- an operation on one area leaves the roles alone -/
theorem sameRoles_perform (hop : op.target? = some id) (now : Instant) (p : Router) :
    SameRoles (perform op now p).state p := by
  have hroutes : op.isRedistribution = false := by
    cases op with
    | redistribute route => cases hop
    | _ => rfl
  constructor
  · rw [routerId_perform]
  · rw [isBorder_perform]
  · rw [isBoundary_perform, hroutes, Bool.or_false]

/-- what an operation on one area answers depends on that area and on the roles -/
theorem answer_perform_congr {p q : Router} (hop : op.target? = some id) (hroles : SameRoles p q)
    (harea : p.areas.find? id = q.areas.find? id) (now : Instant) :
    (perform op now p).answer = (perform op now q).answer := by
  have hflags : p.routerFlags = q.routerFlags := by
    rw [routerFlags, routerFlags, hroles.isBorder, hroles.isBoundary]
  cases op with
  | receive target hdr body =>
    cases hop
    simp only [perform, receive, onArea, area?, Outcome.map, harea]
    cases q.areas.find? id <;> rfl
  | originateRouterLsa target links =>
    cases hop
    simp only [perform, originateRouterLsa, onArea, area?, Outcome.map, harea, hroles.routerId, hflags]
    cases q.areas.find? id <;> rfl
  | redistribute route => cases hop
  | age elapsed => cases hop
  | refresh => cases hop

theorem answer_perform_of_target {p : Router} {c : AreaConfig} {db : Database} (hop : op.target? = some c.id)
    (harea : p.areas.find? c.id = some ⟨c.id, c.type, db⟩) (now : Instant) :
    (perform op now p).answer = .flag (.ok (op.succeeds p now c db)) := by
  cases op with
  | receive target hdr body =>
    cases hop
    simp only [perform, receive, onArea, area?, Outcome.map, harea, answer_receive c db p]
  | originateRouterLsa target links =>
    cases hop
    simp [perform, originateRouterLsa, onArea, area?, Outcome.map, harea, Area.onDatabase, Op.succeeds, Op.reply?,
      Op.local?, Database.perform]
  | redistribute route => cases hop
  | age elapsed => cases hop
  | refresh => cases hop

theorem answer_perform_of_absent {p : Router} (hop : op.target? = some id) (habsent : p.areas.find? id = none)
    (now : Instant) : (perform op now p).answer = .flag (.error (.areaNotFound id)) := by
  have hnone : p.areas.contains id = false := by rw [SortedMap.contains, habsent, Option.isSome_none]
  cases op with
  | receive target hdr body =>
    cases hop
    simp only [perform, receive, onArea_of_absent _ hnone]
    rfl
  | originateRouterLsa target links =>
    cases hop
    simp only [perform, originateRouterLsa, onArea_of_absent _ hnone]
    rfl
  | redistribute route => cases hop
  | age elapsed => cases hop
  | refresh => cases hop

/-- in either order, two operations leave the same process and answer the same -/
structure Commute (op op' : Op) (now : Instant) (p : Router) : Prop where
  state : (perform op' now (perform op now p).state).state = (perform op now (perform op' now p).state).state
  answer : (perform op now (perform op' now p).state).answer = (perform op now p).answer
  answer' : (perform op' now (perform op now p).state).answer = (perform op' now p).answer

theorem commute_of_ne (hop : op.target? = some id) (hop' : op'.target? = some id') (h : id ≠ id') (now : Instant)
    (p : Router) : Commute op op' now p := by
  have hroles := sameRoles_perform hop now p
  have hroles' := sameRoles_perform hop' now p
  have hareas : (perform op' now (perform op now p).state).state.areas =
      (perform op now (perform op' now p).state).state.areas := by
    apply SortedMap.ext_find?
    intro i
    by_cases hi : i = id
    · have hne : i ≠ id' := hi ▸ h
      rw [find?_perform_of_ne hop' hne, find?_perform, find?_perform op, find?_perform_of_ne hop' hne]
      simp only [hroles'.local?_eq]
    · rw [find?_perform_of_ne hop hi, find?_perform, find?_perform op', find?_perform_of_ne hop hi]
      simp only [hroles.local?_eq]
  refine ⟨?_, ?_, ?_⟩
  · have hrouterId := ((sameRoles_perform hop' now (perform op now p).state).routerId.trans hroles.routerId).trans
      ((sameRoles_perform hop now (perform op' now p).state).routerId.trans hroles'.routerId).symm
    have hboundary := ((sameRoles_perform hop' now (perform op now p).state).isBoundary.trans hroles.isBoundary).trans
      ((sameRoles_perform hop now (perform op' now p).state).isBoundary.trans hroles'.isBoundary).symm
    calc (perform op' now (perform op now p).state).state
        = ⟨(perform op' now (perform op now p).state).state.routerId,
            (perform op' now (perform op now p).state).state.areas,
            (perform op' now (perform op now p).state).state.isBoundary⟩ := rfl
      _ = ⟨(perform op now (perform op' now p).state).state.routerId,
            (perform op now (perform op' now p).state).state.areas,
            (perform op now (perform op' now p).state).state.isBoundary⟩ := by rw [hrouterId, hareas, hboundary]
      _ = (perform op now (perform op' now p).state).state := rfl
  · exact answer_perform_congr hop hroles' (find?_perform_of_ne hop' h now p) now
  · exact answer_perform_congr hop' hroles (find?_perform_of_ne hop h.symm now p) now

end

/-! ## Main result -/

/-- a process that is these databases, side by side -/
structure SideBySide (config : RouterConfig) (s : Timed Router) (dbs : Address4 → Database) : Prop where
  area : ∀ c ∈ config.areas, s.state.areas.find? c.id = some ⟨c.id, c.type, dbs c.id⟩
  /-- what expires is what expires in the databases, all together -/
  age : ∀ elapsed, (perform (.age elapsed) s.now s.state).answer =
    .count (config.areas.map fun c => ((dbs c.id).age s.now elapsed).answer).sum
  /-- what is refreshed is what is refreshed in the databases, all together -/
  refresh : (perform .refresh s.now s.state).answer =
    .count (config.areas.map fun c => ((dbs c.id).refresh s.now).answer).sum
  /-- a redistribution counts the areas where it succeeds -/
  redistribute : ∀ route, (perform (.redistribute route) s.now s.state).answer =
    .count (config.areas.countP fun c => (Op.redistribute route).succeeds s.state s.now c (dbs c.id))
  /-- an operation that is addressed to an area answers what the database does -/
  addressed : ∀ op : Op, ∀ c ∈ config.areas, op.target? = some c.id →
    (perform op s.now s.state).answer = .flag (.ok (op.succeeds s.state s.now c (dbs c.id)))
  unconfigured : ∀ op : Op, ∀ id, op.target? = some id → id ∉ config.areas.map AreaConfig.id →
    (perform op s.now s.state).answer = .flag (.error (.areaNotFound id))
  commute : ∀ op op' : Op, ∀ id id', op.target? = some id → op'.target? = some id' → id ≠ id' →
    Commute op op' s.now s.state

theorem SideBySide.of_areas {config : RouterConfig} {s : Timed Router} (h : Reachable config s)
    {dbs : Address4 → Database}
    (hdbs : ∀ c ∈ config.areas, s.state.areas.find? c.id = some ⟨c.id, c.type, dbs c.id⟩) :
    SideBySide config s dbs := by
  refine ⟨hdbs, ?_, ?_, ?_, ?_, ?_, ?_⟩
  · intro elapsed
    exact congrArg Answer.count (sum_answer_onAreas h hdbs fun db => db.age s.now elapsed)
  · exact congrArg Answer.count (sum_answer_onAreas h hdbs fun db => db.refresh s.now)
  · intro route
    have hcount := (entries_perm h hdbs).countP_eq fun e => (e.2.advertise s.now s.state.routerId route).answer
    rw [List.countP_map] at hcount
    simp only [Function.comp_def, answer_advertise] at hcount
    rw [← hcount]
    refine congrArg Answer.count ?_
    calc (s.state.areas.entries.map fun e => (e.2.advertise s.now s.state.routerId route).answer).count true
        = s.state.areas.entries.countP fun e => (e.2.advertise s.now s.state.routerId route).answer == true := by
          rw [List.count, List.countP_map, Function.comp_def]
      _ = s.state.areas.entries.countP fun e => (e.2.advertise s.now s.state.routerId route).answer := by
          simp only [beq_true]
  · intro op c hc hop
    exact answer_perform_of_target hop (hdbs c hc) s.now
  · intro op id hop hid
    refine answer_perform_of_absent hop ?_ s.now
    cases harea : s.state.areas.find? id with
    | none => rfl
    | some area =>
      have hconfig := (configured_of_reachable h harea).2
      exact absurd (List.mem_map_of_mem hconfig) hid
  · intro op op' id id' hop hop' hne
    exact commute_of_ne hop hop' hne s.now s.state

/-- **A process is the databases of its areas, side by side.** After every run, the database of a configured area is what
a database that stands alone has become by its share of the run; what the process answers is put together from the
answers of these databases, and operations on different areas commute. -/
theorem areas_side_by_side {config : RouterConfig} {start : Instant} {p : Router}
    (hcreate : (create config start).answer = .ok p) {turns : List (Turn Op)}
    {out : Outcome (Timed Router) Notice (List Answer)} (hrun : run ⟨start, p⟩ turns = .ok out) :
    ∃ dbs : Address4 → Database,
      (∀ c ∈ config.areas, ∃ alone, Database.run ⟨start, .empty c.id start⟩ (share p c turns) = .ok alone ∧
        alone.state = ⟨out.state.now, dbs c.id⟩) ∧ SideBySide config out.state dbs := by
  have hreach : Reachable config out.state := ⟨start, p, turns, out, hcreate, hrun, rfl⟩
  have hshare : ∀ c ∈ config.areas, ∃ alone,
      Database.run ⟨start, .empty c.id start⟩ (share p c turns) = .ok alone ∧ alone.state.now = out.state.now ∧
        out.state.state.areas.find? c.id = some ⟨c.id, c.type, alone.state.state⟩ := by
    intro c hc
    have hfresh : p.areas.find? c.id = some ⟨c.id, c.type, .empty c.id start⟩ :=
      (find?_of_create hcreate c.id _).mpr ⟨c, hc, rfl, rfl⟩
    exact exists_run_share (s := ⟨start, p⟩) ⟨rfl, rfl, rfl⟩ hfresh turns hrun
  refine ⟨fun id => ((out.state.state.areas.find? id).map Area.db).getD (.empty id start), ?_, ?_⟩
  · intro c hc
    obtain ⟨alone, halone, htime, harea⟩ := hshare c hc
    refine ⟨alone, halone, ?_⟩
    simp [harea, ← htime]
  · refine SideBySide.of_areas hreach ?_
    intro c hc
    obtain ⟨alone, -, -, harea⟩ := hshare c hc
    simp [harea]

/-- every kind of operation, some of it for areas that do not take it or are not there -/
def everyKind : List (Turn Op) :=
  [.perform (.receive ⟨2⟩ (foreignExternal LsaKind.asExternal.type) (.asExternal defaultRoute.body)),
    .perform (.receive ⟨3⟩ (foreignExternal LsaKind.asExternal.type) (.asExternal defaultRoute.body)),
    .perform (.receive .unspecified (foreignExternal LsaKind.asExternal.type) (.asExternal defaultRoute.body)),
    .wait (.ofMillis 1500), .perform (.originateRouterLsa ⟨1⟩ []), .perform (.redistribute defaultRoute),
    .perform (.originateRouterLsa ⟨2⟩ []), .perform (.age 1800), .perform .refresh, .wait (.ofSeconds 60),
    .perform (.age 1800)]

/-- A backbone, a stub area and an NSSA after that, side by side: one more refresh concerns four LSAs. -/
theorem areas_side_by_side_everyKind :
    ∃ p out dbs, (create oneOfEach .start).answer = .ok p ∧ run ⟨.start, p⟩ everyKind = .ok out ∧
      (∀ c ∈ oneOfEach.areas, ∃ alone,
        Database.run ⟨.start, .empty c.id .start⟩ (share p c everyKind) = .ok alone ∧
          alone.state = ⟨out.state.now, dbs c.id⟩) ∧ SideBySide oneOfEach out.state dbs ∧
      (oneOfEach.areas.map fun c => ((dbs c.id).refresh out.state.now).answer).sum = 4 := by
  obtain ⟨p, out, hcreate, hrun, hrefresh⟩ : ∃ p out, (create oneOfEach .start).answer = .ok p ∧
      run ⟨.start, p⟩ everyKind = .ok out ∧ (out.state.state.refresh out.state.now).answer = 4 :=
    ⟨_, _, rfl, rfl, rfl⟩
  obtain ⟨dbs, hshare, hside⟩ := areas_side_by_side hcreate hrun
  have htotal : (Answer.count (out.state.state.refresh out.state.now).answer) = _ := hside.refresh
  rw [hrefresh, Answer.count.injEq] at htotal
  exact ⟨p, out, dbs, hcreate, hrun, hshare, hside, htotal.symm⟩

end Router

end RoutingReplay.Ospf
