/-
The roles that Router-LSAs tell of.

A Router-LSA is originated from the roles that the router has by then, or it is originated anew by a refresh, and a
refresh repeats what is stored. So its flags are those of the latest origination in its area: `Remembers` relates the
state after some calls to the calls, and `upToOrigination` are the calls that count. The role of a border router never
changes, and its flag is always right; so is the flag of an AS boundary router, unless the LSA is repeated that was
originated before the first redistribution (`router_lsa_roles`, `refresh_repeats_old_role`).
-/
import Mathlib.Data.List.DropRight
import RoutingReplay.Proofs.Ospf.AreaView

namespace RoutingReplay.Ospf

/-- the flags of a router, bit by bit -/
theorem RouterFlags.bits_ofRoles (border boundary : Bool) :
    ((ofRoles border boundary).bits &&& 0x01 = 0x01 ↔ border = true) ∧
      ((ofRoles border boundary).bits &&& 0x02 = 0x02 ↔ boundary = true) ∧
      (ofRoles border boundary).bits &&& 0xfc = 0 := by
  cases border <;> cases boundary <;> decide

namespace Router

/-! ## The calls of a run -/

/-- an operation on the process and the state that it found -/
abbrev Call := Timed.Call Router Op

/-- the operations of a run of a process -/
def calls (start : Instant) (p : Router) (turns : List (Turn Op)) : List Call := Timed.trace perform ⟨start, p⟩ turns

def Op.isRedistribution : Op → Bool
  | .redistribute _ => true
  | _ => false

/-- whether an operation originates the Router-LSA of an area -/
def Op.originatesIn (id : Address4) : Op → Bool
  | .originateRouterLsa area _ => area = id
  | _ => false

/-- whether routes have been redistributed -/
def redistributed (past : List Call) : Bool := past.any fun call => call.op.isRedistribution

/-- the calls up to the latest one that originated the Router-LSA of an area -/
def upToOrigination (id : Address4) (past : List Call) : List Call :=
  past.rdropWhile fun call => !call.op.originatesIn id

theorem redistributed_concat (past : List Call) (call : Call) :
    redistributed (past ++ [call]) = (redistributed past || call.op.isRedistribution) := by
  simp [redistributed]

theorem upToOrigination_concat (id : Address4) (past : List Call) (call : Call) :
    upToOrigination id (past ++ [call]) =
      if call.op.originatesIn id then past ++ [call] else upToOrigination id past := by
  rw [upToOrigination, List.rdropWhile_concat]
  cases call.op.originatesIn id <;> rfl

/-- what was redistributed by the latest origination has been redistributed by now -/
theorem redistributed_of_upToOrigination {id : Address4} {past : List Call}
    (h : redistributed (upToOrigination id past) = true) : redistributed past = true := by
  obtain ⟨call, hcall, hop⟩ := List.any_eq_true.mp h
  exact List.any_eq_true.mpr ⟨call, (List.rdropWhile_prefix _ past).subset hcall, hop⟩

/-- A router is an AS boundary router from its first redistribution on. -/
theorem isBoundary_perform (op : Op) (now : Instant) (p : Router) :
    (perform op now p).state.isBoundary = (p.isBoundary || op.isRedistribution) := by
  cases op with
  | receive target hdr body => exact (isBoundary_onArea _ p target).trans (Bool.or_false _).symm
  | originateRouterLsa target links => exact (isBoundary_onArea _ p target).trans (Bool.or_false _).symm
  | redistribute route => exact (Bool.or_true _).symm
  | age elapsed => exact (Bool.or_false _).symm
  | refresh => exact (Bool.or_false _).symm

/-! ## The Router-LSA of an area -/

/-- a record of the local router with the body of a Router-LSA stands under the key of its Router-LSA, and its flags are
these -/
def Announces (routerId : Address4) (flags : RouterFlags) (k : LsaKey) (origin : Origin) (body : Body) : Prop :=
  origin = .selfOriginated → ∀ b, body = .router b → k = ⟨LsaKind.router.type, routerId, routerId⟩ ∧ b.flags = flags

variable {p : Router} {id : Address4}

/-- Whatever the flags were, an origination of the Router-LSA sets those of the present roles. -/
theorem announces_originated {db : Database} (hsound : db.Sound) {flags : RouterFlags}
    (h : db.Contents (Announces p.routerId flags)) (links : List RouterLink) (now : Instant) :
    (Database.perform (.installRouterLsa p.routerId p.routerFlags links) now db).state.Contents
      (Announces p.routerId p.routerFlags) := by
  refine Database.contents_perform hsound h _ now ?_ ?_ ?_
  · -- a Router-LSA that was there stood under the key that is written to
    intro k origin body hkey hold hown b hbody
    exact absurd (hold hown b hbody).1.symm (hkey _ rfl)
  · intro hdr body hop
    cases hop
  · rintro _ ⟨⟩ - b hbody
    cases hbody
    exact ⟨rfl, rfl⟩

/-- Other operations leave the flags as they are. -/
theorem announces_performed {area : Area} (hsound : area.db.Sound) {flags : RouterFlags}
    (h : area.db.Contents (Announces p.routerId flags)) {op : Op} (hop : op.originatesIn id = false) (now : Instant) :
    (area.performed now (op.local? p id area.type)).db.Contents (Announces p.routerId flags) := by
  cases hlocal : op.local? p id area.type with
  | none => exact h
  | some dbOp =>
    refine Database.contents_perform hsound h dbOp now ?_ ?_ ?_
    · intro k origin body _ hold
      exact hold
    · intro hdr body _ _ hown
      cases hown
    · intro built hbuilt hown b hbody
      rcases Op.build_of_local? hlocal hbuilt with ⟨links, rfl, rfl⟩ | ⟨route, rfl, ⟨-, rfl⟩ | ⟨-, rfl⟩⟩
      · simp [Op.originatesIn] at hop
      · cases hbody
      · cases hbody

/-- what the state after some calls tells of them -/
structure Remembers (config : RouterConfig) (past : List Call) (s : Timed Router) : Prop where
  reachable : Reachable config s
  boundary : s.state.isBoundary = redistributed past
  announces : ∀ id area, s.state.areas.find? id = some area → area.db.Contents
    (Announces s.state.routerId (.ofRoles s.state.isBorder (redistributed (upToOrigination id past))))

namespace Remembers

variable {config : RouterConfig} {past : List Call} {s : Timed Router}

theorem created {start : Instant} {p : Router} (h : (create config start).answer = .ok p) :
    Remembers config [] ⟨start, p⟩ := by
  refine ⟨⟨start, p, [], _, h, rfl, rfl⟩, ?_, ?_⟩
  · obtain ⟨routerId, areas, -, -, rfl⟩ := create_eq_ok_iff.mp h
    rfl
  · intro id area harea
    obtain ⟨c, -, -, rfl⟩ := (find?_of_create h id area).mp harea
    exact Database.contents_empty c.id start _

theorem wait (h : Remembers config past s) {d : Duration} {now : Instant} (hnow : s.now.advance d = .ok now) :
    Remembers config past { s with now } :=
  ⟨h.reachable.wait hnow, h.boundary, h.announces⟩

/-- the flags in an area are those of the latest origination there, be it this call -/
theorem announces_after (h : Remembers config past s) (op : Op) {area : Area}
    (harea : s.state.areas.find? id = some area) :
    (area.performed s.now (op.local? s.state id area.type)).db.Contents (Announces s.state.routerId
      (.ofRoles s.state.isBorder (redistributed (upToOrigination id (past ++ [⟨s, op⟩]))))) := by
  have hsound : area.db.Sound := sound_of_reachable h.reachable harea
  rw [upToOrigination_concat]
  cases horiginates : op.originatesIn id with
  | true =>
    obtain ⟨links, rfl⟩ : ∃ links, op = .originateRouterLsa id links := by
      cases op with
      | originateRouterLsa target links =>
        rw [← of_decide_eq_true horiginates]
        exact ⟨links, rfl⟩
      | _ => cases horiginates
    have hlocal : (Op.originateRouterLsa id links).local? s.state id area.type =
        some (.installRouterLsa s.state.routerId s.state.routerFlags links) := if_pos rfl
    have hflags : s.state.routerFlags =
        .ofRoles s.state.isBorder (redistributed (past ++ [⟨s, .originateRouterLsa id links⟩])) := by
      rw [redistributed_concat, ← h.boundary]
      exact congrArg _ (Bool.or_false _).symm
    rw [hlocal, if_pos rfl, ← hflags]
    exact announces_originated hsound (h.announces id area harea) links s.now
  | false => exact announces_performed hsound (h.announces id area harea) horiginates s.now

theorem perform (h : Remembers config past s) (op : Op) :
    Remembers config (past ++ [⟨s, op⟩]) { s with state := (Router.perform op s.now s.state).state } := by
  refine ⟨h.reachable.perform op, ?_, ?_⟩
  · rw [isBoundary_perform, redistributed_concat, h.boundary]
  · intro id area harea
    rw [find?_perform, Option.map_eq_some_iff] at harea
    obtain ⟨old, hold, rfl⟩ := harea
    rw [routerId_perform, isBorder_perform]
    exact h.announces_after op hold

end Remembers

/-! ## Originations -/

/-- the record of a key in an area -/
def record? (p : Router) (id : Address4) (k : LsaKey) : Option Record :=
  (p.areas.find? id).bind fun area => area.db.table.find? k

/-- the state that a call leaves -/
def Call.after (call : Call) : Router := (perform call.op call.before.now call.before.state).state

/-- a call originates an LSA: it leaves a record of the local router in an area which is not the one that it found
there, grown older or not -/
structure Call.Originates (call : Call) (id : Address4) (r : Record) : Prop where
  own : r.origin = .selfOriginated
  stored : call.after.record? id r.lsa.hdr.key = some r
  new : ∀ old ∈ call.before.state.record? id r.lsa.hdr.key, ∀ elapsed, r ≠ old.aged elapsed

/-- what a call leaves in an area that it found -/
theorem Call.record?_after (call : Call) {area : Area} (harea : call.before.state.areas.find? id = some area)
    (k : LsaKey) : call.after.record? id k =
      (area.performed call.before.now (call.op.local? call.before.state id area.type)).db.table.find? k := by
  rw [record?, after, find?_perform, harea]
  rfl

/-- a call originates the next instance of an LSA if it puts it in place -/
theorem Call.originates_record {call : Call} {area : Area} {b : Build} {t : Instant}
    (harea : call.before.state.areas.find? id = some area)
    (hstored : call.after.record? id b.key = some (b.record t (area.db.table.find? b.key))) :
    call.Originates id (b.record t (area.db.table.find? b.key)) := by
  refine ⟨rfl, hstored, ?_⟩
  intro old hold elapsed haged
  rw [record?, harea] at hold
  change area.db.table.find? b.key = some old at hold
  rw [hold] at haged
  exact Build.seqNo_ne_stored old (congrArg (·.lsa.hdr.seqNo) haged).symm

/-- A request originates the Router-LSA of an area that is there. -/
theorem Call.originates_of_request {call : Call} {links : List RouterLink} {area : Area}
    (hop : call.op = .originateRouterLsa id links) (harea : call.before.state.areas.find? id = some area) :
    ∃ r, call.Originates id r ∧ r.lsa.body = .router ⟨call.before.state.routerFlags, links⟩ := by
  refine ⟨_, originates_record (b := .router call.before.state.routerId call.before.state.routerFlags links)
    (t := call.before.now) harea ?_, rfl⟩
  rw [call.record?_after harea, hop, Op.local?, if_pos rfl]
  exact (Database.find?_originate area.db call.before.now (.router _ _ links) _).trans (if_pos rfl)

/-- A refresh originates anew what is due. -/
theorem Call.originates_of_refresh {config : RouterConfig} {call : Call} (hreach : Reachable config call.before)
    (hop : call.op = .refresh) {k : LsaKey} {old : Record} (hold : call.before.state.record? id k = some old)
    (hdue : old.isDue = true) : ∃ r, call.Originates id r ∧ r.lsa.body = old.lsa.body := by
  obtain ⟨area, harea, hstored⟩ := Option.bind_eq_some_iff.mp hold
  have hsound : area.db.Sound := sound_of_reachable hreach harea
  have hkey : (Build.again old.lsa).key = k := (hsound k old hstored).again_key
  refine ⟨_, originates_record (b := .again old.lsa) (t := call.before.now) harea ?_, rfl⟩
  rw [call.record?_after harea, hop, hkey, hstored]
  calc (area.db.refresh call.before.now).state.table.find? k
      = Database.afterRefresh call.before.now (some old) := by rw [Database.find?_refresh hsound, hstored]
    _ = some ((Build.again old.lsa).record call.before.now (some old)) := by
        rw [Database.afterRefresh, Option.map_some, if_pos hdue]

/-- what is originated in an area is what the call leaves there -/
theorem Call.Originates.exists_area {call : Call} {r : Record} (h : call.Originates id r) :
    ∃ area, call.before.state.areas.find? id = some area ∧
      (area.performed call.before.now (call.op.local? call.before.state id area.type)).db.table.find? r.lsa.hdr.key =
        some r := by
  obtain ⟨after, hafter, -⟩ := Option.bind_eq_some_iff.mp h.stored
  rw [Call.after, find?_perform, Option.map_eq_some_iff] at hafter
  obtain ⟨area, harea, -⟩ := hafter
  exact ⟨area, harea, call.record?_after harea _ ▸ h.stored⟩

/-- A Router-LSA is originated on request or by a refresh. -/
theorem Call.Originates.op {config : RouterConfig} {call : Call} (hreach : Reachable config call.before) {r : Record}
    (h : call.Originates id r) {b : RouterBody} (hbody : r.lsa.body = .router b) :
    (∃ links, call.op = .originateRouterLsa id links) ∨ call.op = .refresh := by
  obtain ⟨area, harea, hstored⟩ := h.exists_area
  have hsound : area.db.Sound := sound_of_reachable hreach harea
  have hnew : ∀ old ∈ area.db.table.find? r.lsa.hdr.key, ∀ elapsed, r ≠ old.aged elapsed := by
    intro old hold
    apply h.new
    rw [record?, harea]
    exact hold
  cases hlocal : call.op.local? call.before.state id area.type with
  | none =>
    rw [hlocal] at hstored
    have hkept : r = r.aged 0 := by rw [Record.aged, Header.aged_zero (hsound _ r hstored).age]
    exact absurd hkept (hnew r hstored 0)
  | some dbOp =>
    rw [hlocal] at hstored
    change (Database.perform dbOp call.before.now area.db).state.table.find? _ = some r at hstored
    rw [Database.find?_perform hsound] at hstored
    have hsource := Database.Op.source_of_mem_effect hstored
    rcases hsource.originated (fun old hold => (hsound _ old hold).age) h.own hnew with
      ⟨built, hbuilt, hcontent⟩ | hrefresh
    · rw [hbody] at hcontent
      rcases Op.build_of_local? hlocal hbuilt with ⟨links, hop, -⟩ | ⟨route, -, ⟨-, rfl⟩ | ⟨-, rfl⟩⟩
      · exact Or.inl ⟨links, hop⟩
      · cases hcontent
      · cases hcontent
    · exact Or.inr (Op.of_local?_refresh (hrefresh ▸ hlocal))

/-! ## Whole runs -/

theorem remembers_of_calls {config : RouterConfig} {start : Instant} (hcreate : (create config start).answer = .ok p)
    {turns : List (Turn Op)} {before after : List Call} {call : Call}
    (hcalls : calls start p turns = before ++ call :: after) : Remembers config before call.before := by
  refine Timed.history_of_trace (P := Remembers config) ?_ ?_ [] (.created hcreate) hcalls
  · intro past s d now hs hnow
    exact hs.wait hnow
  · intro past s op hs
    exact hs.perform op

/-- a call that repeats a Router-LSA which was originated before the first redistribution -/
def Outdated (before : List Call) (call : Call) (id : Address4) : Prop :=
  call.op = .refresh ∧ redistributed (upToOrigination id before) = false

/-- when the calls that count for the flags hold a redistribution -/
theorem redistributed_upToOrigination_iff {before : List Call} {call : Call}
    (hop : (∃ links, call.op = .originateRouterLsa id links) ∨ call.op = .refresh) :
    redistributed (upToOrigination id (before ++ [call])) = true ↔
      redistributed before = true ∧ ¬ Outdated before call id := by
  rw [upToOrigination_concat]
  rcases hop with ⟨links, hop⟩ | hop
  · have hcurrent : ¬ Outdated before call id := by
      rintro ⟨hrefresh, -⟩
      rw [hop] at hrefresh
      cases hrefresh
    simp [hop, hcurrent, Op.originatesIn, Op.isRedistribution, redistributed_concat]
  · simp only [hop, Op.originatesIn, Outdated, true_and, Bool.not_eq_false, Bool.false_eq_true, if_false]
    exact ⟨fun h => ⟨redistributed_of_upToOrigination h, h⟩, fun h => h.2⟩

/-- **Router-LSAs tell of the roles of the router.** The process originates the Router-LSA of an area on request, and a
refresh originates anew what is due; there is no other way. The B-bit of a Router-LSA that is originated is set exactly
if there are several areas and the backbone is among them, and no bit but this one and the E-bit is ever set. The E-bit
is set exactly if routes have been redistributed before, unless a refresh repeats an LSA that was originated before
that. -/
theorem router_lsa_roles {config : RouterConfig} {start : Instant} {p : Router}
    (hcreate : (create config start).answer = .ok p) {turns : List (Turn Op)} {before after : List Call} {call : Call}
    (hcalls : calls start p turns = before ++ call :: after) (id : Address4) :
    (∀ links, call.op = .originateRouterLsa id links → id ∈ config.areas.map AreaConfig.id →
      ∃ r b, call.Originates id r ∧ r.lsa.body = .router b ∧ b.links = links) ∧
    (∀ k old, call.op = .refresh → call.before.state.record? id k = some old → old.isDue = true →
      ∃ r, call.Originates id r ∧ r.lsa.body = old.lsa.body) ∧
    ∀ r b, call.Originates id r → r.lsa.body = .router b →
      ((∃ links, call.op = .originateRouterLsa id links) ∨ call.op = .refresh) ∧
      (b.flags.bits &&& 0x01 = 0x01 ↔ 2 ≤ config.areas.length ∧ .unspecified ∈ config.areas.map AreaConfig.id) ∧
      (b.flags.bits &&& 0x02 = 0x02 ↔ redistributed before = true ∧ ¬ Outdated before call id) ∧
      b.flags.bits &&& 0xfc = 0 := by
  have hbefore : Remembers config before call.before := remembers_of_calls hcreate hcalls
  refine ⟨?_, ?_, ?_⟩
  · intro links hop hid
    obtain ⟨area, harea⟩ := exists_area_of_reachable hbefore.reachable hid
    obtain ⟨r, horiginates, hbody⟩ := Call.originates_of_request hop harea
    exact ⟨r, _, horiginates, hbody, rfl⟩
  · intro k old hop hold hdue
    exact Call.originates_of_refresh hbefore.reachable hop hold hdue
  · intro r b horiginates hbody
    have hop := horiginates.op hbefore.reachable hbody
    have hflags : b.flags = .ofRoles call.before.state.isBorder
        (redistributed (upToOrigination id (before ++ [call]))) := by
      obtain ⟨area, harea, hstored⟩ := horiginates.exists_area
      exact (hbefore.announces_after call.op harea _ r hstored horiginates.own b hbody).2
    obtain ⟨hborder, hboundary, hothers⟩ :=
      RouterFlags.bits_ofRoles call.before.state.isBorder (redistributed (upToOrigination id (before ++ [call])))
    rw [hflags]
    exact ⟨hop, hborder.trans (isBorder_of_reachable hbefore.reachable),
      hboundary.trans (redistributed_upToOrigination_iff hop), hothers⟩

/-- the backbone and a stub area -/
def twoAreas : RouterConfig := ⟨some ⟨1⟩, [⟨.unspecified, .normal⟩, ⟨⟨1⟩, .stub⟩]⟩

/-- a route to 10.0.0.0/8 -/
def someRoute : ExternalRoute := ⟨⟨.ofOctets 10 0 0 0, ⟨8, by decide⟩⟩, 1, .type2, none, 0⟩

/-- the key of the Router-LSA -/
def ownKey : LsaKey := ⟨LsaKind.router.type, ⟨1⟩, ⟨1⟩⟩

/-- a Router-LSA is originated after a redistribution, and refreshed -/
def redistributedFirst : List (Turn Op) :=
  [.perform (.redistribute someRoute), .perform (.originateRouterLsa .unspecified []), .perform (.age 1800),
    .perform .refresh]

/-- The refresh originates it anew, and it tells of both roles. -/
theorem router_lsa_roles_redistributedFirst :
    ∃ p before call r b, (create twoAreas .start).answer = .ok p ∧
      calls .start p redistributedFirst = before ++ [call] ∧ call.op = .refresh ∧ call.Originates .unspecified r ∧
        r.lsa.body = .router b ∧ b.flags.bits &&& 0x01 = 0x01 ∧ b.flags.bits &&& 0x02 = 0x02 ∧
          b.flags.bits &&& 0xfc = 0 := by
  obtain ⟨p, before, call, old, b, hcreate, hcalls, hop, hold, hdue, hbody, hbefore⟩ :
      ∃ p before call old b, (create twoAreas .start).answer = .ok p ∧
        calls .start p redistributedFirst = before ++ [call] ∧ call.op = .refresh ∧
          call.before.state.record? .unspecified ownKey = some old ∧ old.isDue = true ∧ old.lsa.body = .router b ∧
            redistributed (upToOrigination .unspecified before) = true :=
    ⟨_, [_, _, _], _, _, _, rfl, rfl, rfl, rfl, rfl, rfl, rfl⟩
  obtain ⟨-, hrefresh, hroles⟩ := router_lsa_roles hcreate hcalls .unspecified
  obtain ⟨r, horiginates, hrepeated⟩ := hrefresh ownKey old hop hold hdue
  obtain ⟨-, hborder, hboundary, hothers⟩ := hroles r b horiginates (hrepeated.trans hbody)
  have hcurrent : ¬ Outdated before call .unspecified := by
    rintro ⟨-, houtdated⟩
    rw [hbefore] at houtdated
    cases houtdated
  exact ⟨p, before, call, r, b, hcreate, hcalls, hop, horiginates, hrepeated.trans hbody,
    hborder.mpr ⟨by decide, by decide⟩, hboundary.mpr ⟨redistributed_of_upToOrigination hbefore, hcurrent⟩, hothers⟩

/-- a Router-LSA is originated before a redistribution, and refreshed after it -/
def originatedFirst : List (Turn Op) :=
  [.perform (.originateRouterLsa .unspecified []), .perform (.redistribute someRoute), .perform (.age 1800),
    .perform .refresh]

/-- The refresh originates it anew, and it does not tell that routes are redistributed. -/
theorem refresh_repeats_old_role :
    ∃ p before call r b, (create twoAreas .start).answer = .ok p ∧ calls .start p originatedFirst = before ++ [call] ∧
      call.Originates .unspecified r ∧ r.lsa.body = .router b ∧ redistributed before = true ∧
        ¬ b.flags.bits &&& 0x02 = 0x02 := by
  obtain ⟨p, before, call, old, hcreate, hcalls, hop, hold, hdue, hbody, hbefore⟩ :
      ∃ p before call old, (create twoAreas .start).answer = .ok p ∧
        calls .start p originatedFirst = before ++ [call] ∧ call.op = .refresh ∧
          call.before.state.record? .unspecified ownKey = some old ∧ old.isDue = true ∧
            old.lsa.body = .router ⟨⟨0x01⟩, []⟩ ∧ redistributed before = true :=
    ⟨_, [_, _, _], _, _, rfl, rfl, rfl, rfl, rfl, rfl, rfl⟩
  have hreach : Reachable twoAreas call.before := (remembers_of_calls hcreate hcalls).reachable
  obtain ⟨r, horiginates, hrepeated⟩ := Call.originates_of_refresh hreach hop hold hdue
  exact ⟨p, before, call, r, _, hcreate, hcalls, horiginates, hrepeated.trans hbody, hbefore, by decide⟩

end Router

end RoutingReplay.Ospf
