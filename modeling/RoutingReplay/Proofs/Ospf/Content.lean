/-
What a database holds besides its change log.

Operations write the change log, the number of its last line and the stamp of the last change, and none reads them.
`content` leaves them out. Up to content, the building blocks of the operations have closed forms (`content_remove`,
`content_install`, `content_originate`, `content_age`): which table they leave and what they count. So what an operation
leaves depends on the content alone, for a database (`Database.content_perform`) and for a routing process
(`Router.content_perform`).
-/
import RoutingReplay.Proofs.Ospf.RouterRoles

namespace RoutingReplay.Ospf

namespace Database

/-! ## One database -/

/-- a database without its change log and the stamp that goes with it -/
def content (db : Database) : Database := { db with changes := [], lastChangeId := 0, discontinuity := 0 }

theorem content_remove (db : Database) (now : Instant) (key : LsaKey) (reason : FlushReason) :
    (db.remove now key reason).state.content = { db.content with table := db.table.erase key } := by
  unfold remove
  cases hr : db.table.find? key with
  | none =>
    rw [SortedMap.erase_of_absent hr]
    rfl
  | some r => rfl

/-- what is offered is stored or changes nothing -/
theorem content_install (db : Database) (now : Instant) (origin : Origin) (hdr : Header) (body : Body) :
    (db.install now origin hdr body).state.content =
      if hdr.lsaType = body.lsaType ∧ db.isNewer hdr then (db.store now origin (hdr.aged 0) body).content
      else db.content := by
  unfold install
  by_cases htype : hdr.lsaType = body.lsaType
  · by_cases hnew : db.isNewer hdr = true
    · simp [htype, hnew, Outcome.silent]
    · simp [htype, hnew, Outcome.silent]
  · simp [htype, Outcome.silent]

/-- An origination puts one record into the table and counts itself. -/
theorem content_originate (db : Database) (now : Instant) (b : Build) :
    (db.originate now (db.build now b)).state.content =
      { db.content with
        table := db.table.insert b.key (b.record now (db.table.find? b.key))
        originated := db.originated + 1 } := by
  have hstore : (db.originate now (db.build now b)).state.content =
      { (db.vacated now b.key).content with
        table := (db.vacated now b.key).content.table.insert b.key (b.record now (db.table.find? b.key))
        originated := (db.vacated now b.key).content.originated + 1 } := by
    rw [(originate_build db now b).2]
    rfl
  rw [hstore, vacated]
  split
  · -- the numbers are exhausted: what goes first stood where the new record goes
    rw [content_remove, SortedMap.insert_erase]
    rfl
  · rfl

theorem content_forEach_remove (now : Instant) (reason : FlushReason) (keys : List LsaKey) (db : Database) :
    (Outcome.forEach (fun key db => db.remove now key reason) keys db).state.content =
      { db.content with
        table := (Outcome.forEach (fun key db => db.remove now key reason) keys db).state.table } := by
  induction keys generalizing db with
  | nil => rfl
  | cons key rest ih =>
    simp only [Outcome.forEach]
    rw [ih, content_remove]

/-- Ageing leaves what has not expired. -/
theorem table_age (db : Database) (now : Instant) (elapsed : Nat) :
    (db.age now elapsed).state.table = (db.agedTable elapsed).filter fun _ r => !r.lsa.hdr.isMaxAge := by
  apply SortedMap.ext_find?
  intro k
  rw [find?_age, SortedMap.find?_filter, agedTable, SortedMap.find?_mapValues]
  rfl

theorem content_age (db : Database) (now : Instant) (elapsed : Nat) :
    (db.age now elapsed).state.content =
      { db.content with table := (db.agedTable elapsed).filter fun _ r => !r.lsa.hdr.isMaxAge } := by
  rw [← table_age db now elapsed]
  exact content_forEach_remove now .expiry _ { db with table := db.agedTable elapsed }

/-- renewals of some LSAs see no more of the database than its content -/
theorem content_forEach_renew (now : Instant) (lsas : List Lsa) {db db' : Database} (h : db.content = db'.content) :
    (Outcome.forEach (refresh.renew now) lsas db).state.content =
      (Outcome.forEach (refresh.renew now) lsas db').state.content := by
  induction lsas generalizing db db' with
  | nil => exact h
  | cons lsa rest ih =>
    simp only [Outcome.forEach]
    apply ih
    have htable : db.table = db'.table := show db.content.table = db'.content.table by rw [h]
    have horiginated : db.originated = db'.originated := show db.content.originated = db'.content.originated by rw [h]
    calc (refresh.renew now lsa db).state.content
        = { db.content with
            table := db.table.insert (Build.again lsa).key
              ((Build.again lsa).record now (db.table.find? (Build.again lsa).key))
            originated := db.originated + 1 } := content_originate db now (.again lsa)
      _ = { db'.content with
            table := db'.table.insert (Build.again lsa).key
              ((Build.again lsa).record now (db'.table.find? (Build.again lsa).key))
            originated := db'.originated + 1 } := by rw [h, htable, horiginated]
      _ = (refresh.renew now lsa db').state.content := (content_originate db' now (.again lsa)).symm

/-- **What an operation leaves does not depend on the change log.** -/
theorem content_perform (op : Op) (now : Instant) (db : Database) :
    (perform op now db).state.content = (perform op now db.content).state.content := by
  have hbuilt : ∀ b : Build, (db.originate now (db.build now b)).state.content =
      (db.content.originate now (db.content.build now b)).state.content := by
    intro b
    rw [content_originate, content_originate]
    rfl
  cases op with
  | receive hdr body =>
    change (db.install now .received hdr body).state.content = (db.content.install now .received hdr body).state.content
    rw [content_install, content_install]
    rfl
  | installRouterLsa routerId flags links => exact hbuilt (.router routerId flags links)
  | installExternalLsa routerId route => exact hbuilt (.external routerId route)
  | installNssaLsa routerId route => exact hbuilt (.nssa routerId route)
  | flush key =>
    change (db.flush now key).state.content = (db.content.flush now key).state.content
    by_cases hown : (db.table.find? key).any (·.origin = .selfOriginated) = true
    · have hown' : (db.content.table.find? key).any (·.origin = .selfOriginated) = true := hown
      simp only [flush, hown, hown', if_true, Outcome.state_within, Outcome.map, content_remove]
      rfl
    · have hown' : ¬ (db.content.table.find? key).any (·.origin = .selfOriginated) = true := hown
      simp only [flush, if_neg hown, if_neg hown', Outcome.silent]
      rfl
  | refresh => exact content_forEach_renew now db.dueForRefresh rfl
  | age elapsed =>
    change (db.age now elapsed).state.content = (db.content.age now elapsed).state.content
    rw [content_age, content_age]
    rfl
  | ageTick =>
    change (db.ageTick now).state.content = (db.content.ageTick now).state.content
    rw [ageTick, ageTick, content_age, content_age]
    rfl
  | clear =>
    change db.clear.state.content = db.content.clear.state.content
    by_cases hsize : db.table.size = 0
    · have hsize' : db.content.table.size = 0 := hsize
      simp only [clear, if_pos hsize, if_pos hsize', Outcome.silent]
      rfl
    · have hsize' : ¬ db.content.table.size = 0 := hsize
      simp only [clear, if_neg hsize, if_neg hsize']
      rfl

end Database

/-! ## The routing process -/

namespace Area

def content (area : Area) : Area := { area with db := area.db.content }

theorem content_performed (area : Area) (now : Instant) (op? : Option Database.Op) :
    (area.performed now op?).content = (area.content.performed now op?).content := by
  cases op? with
  | none => rfl
  | some op => exact congrArg (fun db => { area with db := db }) (Database.content_perform op now area.db)

end Area

namespace Router

/-- the process with the contents of its databases -/
def content (p : Router) : Router := { p with areas := p.areas.mapValues fun _ area => area.content }

@[simp] theorem routerId_content (p : Router) : p.content.routerId = p.routerId := rfl

@[simp] theorem isBoundary_content (p : Router) : p.content.isBoundary = p.isBoundary := rfl

theorem find?_content (p : Router) (id : Address4) :
    p.content.areas.find? id = (p.areas.find? id).map Area.content :=
  SortedMap.find?_mapValues _ _ _

theorem layout_content (p : Router) : p.content.layout = p.layout := by
  apply SortedMap.ext_find?
  intro id
  simp only [layout, content, SortedMap.find?_mapValues, Option.map_map]
  rfl

theorem routerFlags_content (p : Router) : p.content.routerFlags = p.routerFlags := by
  rw [routerFlags, routerFlags, isBorder_eq, isBorder_eq, layout_content]
  rfl

theorem Op.local?_content (op : Op) (p : Router) (id : Address4) (type : AreaType) :
    op.local? p.content id type = op.local? p id type := by
  cases op with
  | originateRouterLsa target links => rw [local?, local?, routerFlags_content, content]
  | _ => rfl

/-- two processes with the same router ID, role and areas -/
theorem eq_of_areas {p q : Router} (hrouterId : p.routerId = q.routerId) (hboundary : p.isBoundary = q.isBoundary)
    (hareas : ∀ id, p.areas.find? id = q.areas.find? id) : p = q := by
  have hmaps := SortedMap.ext_find? hareas
  cases p
  cases q
  cases hrouterId
  cases hboundary
  cases hmaps
  rfl

@[simp] theorem content_content (p : Router) : p.content.content = p.content := by
  apply eq_of_areas
  · rfl
  · rfl
  · intro id
    simp only [find?_content, Option.map_map]
    rfl

/-- **What an operation of the process leaves does not depend on the change logs.** -/
theorem content_perform (op : Op) (now : Instant) (p : Router) :
    (perform op now p).state.content = (perform op now p.content).state.content := by
  apply eq_of_areas
  · simp only [routerId_content, routerId_perform]
  · simp only [isBoundary_content, isBoundary_perform]
  · intro id
    simp only [find?_content, find?_perform, Op.local?_content, Option.map_map]
    congr 1
    funext area
    exact area.content_performed now (op.local? p id area.type)

end Router

end RoutingReplay.Ospf
