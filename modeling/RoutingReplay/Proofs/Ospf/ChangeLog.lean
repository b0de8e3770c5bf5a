/-
The change log and the counters of a database, over whole runs.

An instance of an LSA comes into the table or goes out of it. `Op.movements` says which instances an operation moves, in
order, as it follows from the records that the operation finds: one comes in for every accepted reception, origination and
renewal, and one goes out for every record that expires or is flushed, where an origination that starts over after the
last number flushes the stored record first.

What the database keeps of that is its `Ledger`: the lines of the log, its last number, the counters and the stamp. The
operations write it in several places, in loops and in nested calls. `ledger_perform` says that all of this comes to
recording the movements one after another. What the ledger shows after a run is then an induction over the movements
(`Ledger.Tells`), without a look at the operations.

`changes_accounted` puts it together: the log shows the last movements, newest first, and the counters add up to them.
-/
import RoutingReplay.Proofs.Ospf.Aging
import RoutingReplay.Proofs.Ospf.Reception
import RoutingReplay.Proofs.Ospf.Refresh

namespace RoutingReplay.Ospf

/-! ## Movements -/

/-- an instance comes into a table or goes out of it -/
inductive Movement where
  | entry (origin : Origin) (hdr : Header)
  | exit (reason : FlushReason) (hdr : Header)
  deriving DecidableEq

namespace Movement

def hdr : Movement → Header
  | .entry _ hdr | .exit _ hdr => hdr

/-- an LSA of a neighbour comes in -/
def isReception : Movement → Bool
  | .entry .received _ => true
  | _ => false

/-- an LSA of the local router comes in -/
def isOrigination : Movement → Bool
  | .entry .selfOriginated _ => true
  | _ => false

def isExit : Movement → Bool
  | .exit _ _ => true
  | _ => false

def isExpiry : Movement → Bool
  | .exit .expiry _ => true
  | _ => false

/-- A movement is of one of three kinds. -/
theorem length_eq (ms : List Movement) :
    ms.length = ms.countP isReception + ms.countP isOrigination + ms.countP isExit := by
  induction ms with
  | nil => rfl
  | cons m rest ih =>
    rw [List.length_cons, ih]
    simp only [List.countP_cons]
    obtain ⟨⟨⟩, hdr⟩ | ⟨reason, hdr⟩ := m
    all_goals simp only [isReception, isOrigination, isExit, if_true, Bool.false_eq_true, if_false]
    all_goals omega

end Movement

/-- an origination lets its instance in; what carries the last number goes out before -/
def Build.movements (b : Build) (r? : Option Record) : List Movement :=
  ((r?.filter fun r => r.lsa.hdr.seqNo = some 0x7fffffff).toList.map fun r => .exit .prematureAging r.lsa.hdr) ++
    [.entry .selfOriginated (b.header r?)]

namespace Database

/-- the records that reach `maxAge` go out, in the order of their keys -/
def expiries (db : Database) (elapsed : Nat) : List Movement :=
  (db.table.values.filter fun r => decide (maxAge ≤ r.lsa.hdr.age.toNat + elapsed)).map fun r =>
    .exit .expiry (r.lsa.hdr.aged elapsed)

/-- the instances that an operation moves, in order -/
def Op.movements (op : Op) (now : Instant) (db : Database) : List Movement :=
  let originate (b : Build) := b.movements (db.table.find? b.key)
  match op with
  | .receive hdr body => if (db.receive now hdr body).answer then [.entry .received (hdr.aged 0)] else []
  | .installRouterLsa routerId flags links => originate (.router routerId flags links)
  | .installExternalLsa routerId route => originate (.external routerId route)
  | .installNssaLsa routerId route => originate (.nssa routerId route)
  | .flush key => ((db.table.find? key).filter (·.origin = .selfOriginated)).toList.map fun r =>
      .exit .prematureAging r.lsa.hdr
  | .refresh => (db.table.values.filter Record.isDue).flatMap fun r => (Build.again r.lsa).movements (some r)
  | .age elapsed => db.expiries elapsed
  | .ageTick => db.expiries (now.since db.lastAgeTick).seconds
  | .clear => []

def Call.movements (call : Call) : List Movement := call.op.movements call.before.now call.before.state

/-- all movements of a run, in order -/
def movements (calls : List Call) : List Movement := calls.flatMap Call.movements

/-- whether an operation empties a table that is not empty -/
def Op.empties : Op → Database → Bool
  | .clear, db => decide (db.size ≠ 0)
  | _, _ => false

/-! ## The ledger -/

/-- what a database keeps of its movements; a line of the log is taken without its time and reason -/
structure Ledger where
  lines : List (UInt32 × LsaKey × Option UInt32)
  lastId : UInt32
  received : UInt32
  originated : UInt32
  touched : Nat

def ledger (db : Database) : Ledger :=
  ⟨db.changes.map fun c => (c.id, c.key, c.seqNo), db.lastChangeId, db.received, db.originated, db.discontinuity⟩

namespace Ledger

/-- the ledger with one more movement -/
def record (l : Ledger) (m : Movement) : Ledger where
  lines := ((l.lastId + 1, m.hdr.key, m.hdr.seqNo) :: l.lines).take changeLogSize
  lastId := l.lastId + 1
  received := if m.isReception then l.received + 1 else l.received
  originated := if m.isOrigination then l.originated + 1 else l.originated
  touched := l.touched + 1

/-- the ledger of a table that was emptied -/
def touch (l : Ledger) : Ledger := { l with touched := l.touched + 1 }

theorem touched_foldl_record (l : Ledger) (ms : List Movement) :
    (ms.foldl record l).touched = l.touched + ms.length := by
  induction ms generalizing l with
  | nil => rfl
  | cons m rest ih =>
    have hfirst : (l.record m).touched = l.touched + 1 := rfl
    rw [List.foldl_cons, ih, hfirst, List.length_cons]
    omega

end Ledger

variable {db : Database} {now : Instant}

/-! ### What one instance does to it -/

theorem ledger_logChange (db : Database) (now : Instant) (hdr : Header) (reason : ChangeReason) (flush : FlushReason) :
    (db.logChange now hdr reason).ledger = db.ledger.record (.exit flush hdr) := by
  simp only [ledger, logChange, List.map_take]
  rfl

theorem ledger_remove (db : Database) (now : Instant) (key : LsaKey) (reason : FlushReason) :
    (db.remove now key reason).state.ledger =
      ((db.table.find? key).toList.map fun r => Movement.exit reason r.lsa.hdr).foldl .record db.ledger := by
  unfold remove
  cases db.table.find? key with
  | none => rfl
  | some r => exact ledger_logChange db now r.lsa.hdr .purge reason

theorem ledger_store_received (db : Database) (now : Instant) (hdr : Header) (body : Body) :
    (db.store now .received hdr body).ledger = db.ledger.record (.entry .received hdr) := by
  simp only [ledger, store, logChange, List.map_take]
  rfl

/-- a stored LSA of the local router is counted by who stores it -/
theorem ledger_store_own (db : Database) (now : Instant) (hdr : Header) (body : Body) :
    { db.store now .selfOriginated hdr body with originated := db.originated + 1 }.ledger =
      db.ledger.record (.entry .selfOriginated hdr) := by
  simp only [ledger, store, logChange, List.map_take]
  rfl

theorem ledger_receive (db : Database) (now : Instant) (hdr : Header) (body : Body) :
    (db.receive now hdr body).state.ledger =
      ((Op.receive hdr body).movements now db).foldl .record db.ledger := by
  rw [Op.movements]
  by_cases htaken : (db.receive now hdr body).answer = true
  · obtain ⟨htype, hnewer⟩ := (answer_install db now .received hdr body).mp htaken
    have hstored : (db.receive now hdr body).state = db.store now .received (hdr.aged 0) body := by
      simp [receive, install, htype, isNewer_iff.mpr hnewer, Outcome.silent]
    rw [if_pos htaken, hstored]
    exact ledger_store_received db now (hdr.aged 0) body
  · have hrefused : (db.receive now hdr body).state = db := install_of_refused (Bool.eq_false_iff.mpr htaken)
    rw [if_neg htaken, hrefused]
    rfl

theorem ledger_vacated (db : Database) (now : Instant) (key : LsaKey) :
    (db.vacated now key).ledger =
      (((db.table.find? key).filter fun r => r.lsa.hdr.seqNo = some 0x7fffffff).toList.map fun r =>
        Movement.exit .prematureAging r.lsa.hdr).foldl .record db.ledger := by
  rw [vacated, filter_exhausted]
  split
  · exact ledger_remove db now key .prematureAging
  · rfl

/-- **An origination records its movements**, two of them after the last number. -/
theorem ledger_originate (db : Database) (now : Instant) (b : Build) :
    (db.originate now (db.build now b)).state.ledger = (b.movements (db.table.find? b.key)).foldl .record db.ledger := by
  rw [(originate_build db now b).2, ledger_store_own, ledger_vacated, Build.movements, List.foldl_append]
  rfl

theorem ledger_flush (db : Database) (now : Instant) (key : LsaKey) :
    (db.flush now key).state.ledger = ((Op.flush key).movements now db).foldl .record db.ledger := by
  simp only [flush, Op.movements]
  cases hstored : db.table.find? key with
  | none => rfl
  | some r =>
    by_cases hown : r.origin = .selfOriginated
    · rw [Option.any_some, if_pos (by simpa using hown), Option.filter_some_pos (by simpa using hown)]
      simp only [Outcome.state_within, Outcome.map, ledger_remove, hstored]
    · rw [Option.any_some, if_neg (by simpa using hown), Option.filter_some_neg (by simpa using hown)]
      rfl

/-! ### What loops do to it -/

/-- removals of different records, one after another -/
theorem ledger_forEach_remove (now : Instant) (reason : FlushReason) {keys : List LsaKey} (hkeys : keys.Nodup)
    (db : Database) :
    (Outcome.forEach (fun key db => db.remove now key reason) keys db).state.ledger =
      ((keys.filterMap db.table.find?).map fun r => Movement.exit reason r.lsa.hdr).foldl .record db.ledger := by
  induction keys generalizing db with
  | nil => rfl
  | cons key rest ih =>
    obtain ⟨hfirst, hrest⟩ := List.nodup_cons.mp hkeys
    -- the first removal does not get at the others
    have hothers : rest.filterMap (db.remove now key reason).state.table.find? = rest.filterMap db.table.find? := by
      refine List.filterMap_congr fun k hk => ?_
      rw [find?_remove, if_neg]
      rintro rfl
      exact hfirst hk
    simp only [Outcome.forEach]
    rw [ih hrest, hothers, ledger_remove, ← List.foldl_append, ← List.map_append]
    congr 2
    cases hstored : db.table.find? key <;> simp [hstored]

theorem ledger_age (db : Database) (now : Instant) (elapsed : Nat) :
    (db.age now elapsed).state.ledger = (db.expiries elapsed).foldl .record db.ledger := by
  have hnodup : ((db.agedTable elapsed).filter fun _ r => r.lsa.hdr.isMaxAge).keys.Nodup :=
    (SortedMap.pairwise_keys _).imp KeyOrder.ne_of_lt
  have hmovements : (((db.agedTable elapsed).filter fun _ r => r.lsa.hdr.isMaxAge).values.map fun r =>
      Movement.exit .expiry r.lsa.hdr) = db.expiries elapsed := by
    simp only [expiries, SortedMap.values, SortedMap.filter, agedTable, SortedMap.mapValues, List.filter_map,
      List.map_map]
    congr 1
    refine List.filter_congr fun e _ => ?_
    exact Bool.eq_iff_iff.mpr (by simp [Header.isMaxAge_aged])
  simp only [age, Outcome.state_within, Outcome.map]
  rw [ledger_forEach_remove now .expiry hnodup, SortedMap.filterMap_find?_keys_filter, hmovements]
  rfl

theorem ledger_ageTick (db : Database) (now : Instant) :
    (db.ageTick now).state.ledger = (Op.ageTick.movements now db).foldl .record db.ledger := by
  have hledger : ∀ tick, { db with lastAgeTick := tick }.ledger = db.ledger := fun _ => rfl
  have hexpiries : ∀ tick elapsed, { db with lastAgeTick := tick }.expiries elapsed = db.expiries elapsed :=
    fun _ _ => rfl
  rw [ageTick, ledger_age, hledger, hexpiries, Op.movements]

/-- renewals of different LSAs, one after another -/
theorem ledger_forEach_renew (now : Instant) {lsas : List Lsa}
    (hnodup : (lsas.map fun lsa => (Build.again lsa).key).Nodup) (db : Database) :
    (Outcome.forEach (refresh.renew now) lsas db).state.ledger =
      (lsas.flatMap fun lsa => (Build.again lsa).movements (db.table.find? (Build.again lsa).key)).foldl .record
        db.ledger := by
  induction lsas generalizing db with
  | nil => rfl
  | cons lsa rest ih =>
    rw [List.map_cons, List.nodup_cons] at hnodup
    have hothers := flatMap_find?_renew (fun other => (Build.again other).movements) hnodup.1 now db
    have hfirst : (refresh.renew now lsa db).state.ledger = _ := ledger_originate db now (.again lsa)
    simp only [Outcome.forEach]
    rw [ih hnodup.2, hothers, hfirst, List.flatMap_cons, List.foldl_append]

theorem ledger_refresh (h : db.Sound) (now : Instant) :
    (db.refresh now).state.ledger = (Op.refresh.movements now db).foldl .record db.ledger := by
  have hmovements : (db.dueForRefresh.flatMap fun lsa =>
      (Build.again lsa).movements (db.table.find? (Build.again lsa).key)) = Op.refresh.movements now db :=
    flatMap_dueForRefresh (fun lsa => (Build.again lsa).movements) h
  rw [← hmovements, ← ledger_forEach_renew now (nodup_dueForRefresh h)]
  rfl

theorem ledger_clear (db : Database) :
    db.clear.state.ledger = if Op.clear.empties db then db.ledger.touch else db.ledger := by
  have hempties : Op.clear.empties db = true ↔ db.table.size ≠ 0 := decide_eq_true_iff
  unfold clear
  by_cases hsize : db.table.size = 0
  · rw [if_pos hsize, if_neg (mt hempties.mp (not_not_intro hsize))]
    rfl
  · rw [if_neg hsize, if_pos (hempties.mpr hsize)]
    rfl

/-! ### What an operation does to it -/

/-- **An operation records its movements**; to empty the table touches the stamp without a record. -/
theorem ledger_perform (h : db.Sound) (op : Op) (now : Instant) :
    (perform op now db).state.ledger =
      (op.movements now db).foldl .record (if op.empties db then db.ledger.touch else db.ledger) := by
  cases op with
  | receive hdr body => exact ledger_receive db now hdr body
  | installRouterLsa routerId flags links => exact ledger_originate db now (.router routerId flags links)
  | installExternalLsa routerId route => exact ledger_originate db now (.external routerId route)
  | installNssaLsa routerId route => exact ledger_originate db now (.nssa routerId route)
  | flush key => exact ledger_flush db now key
  | refresh => exact ledger_refresh h now
  | age elapsed => exact ledger_age db now elapsed
  | ageTick => exact ledger_ageTick db now
  | clear => exact ledger_clear db

/-! ## Runs -/

/-- movements as lines of a log without bound, oldest first, numbered from one -/
def numbered (ms : List Movement) : List (Nat × LsaKey × Option UInt32) :=
  (ms.zipIdx 1).map fun e => (e.2, e.1.hdr.key, e.1.hdr.seqNo)

theorem numbered_concat (ms : List Movement) (m : Movement) :
    numbered (ms ++ [m]) = numbered ms ++ [(ms.length + 1, m.hdr.key, m.hdr.seqNo)] := by
  simp [numbered, List.zipIdx_append, Nat.add_comm]

/-- a bounded log may drop old lines before a new one comes or after it -/
theorem take_cons_take {α : Type} (a : α) (l : List α) (n : Nat) : (a :: l.take n).take n = (a :: l).take n := by
  cases n <;> simp [List.take_take]

/-- a ledger tells of some movements, as far as 32 bits and the size of the log go -/
structure Ledger.Tells (ms : List Movement) (l : Ledger) : Prop where
  lines : l.lines = ((numbered ms).map fun e => (UInt32.ofNat e.1, e.2)).reverse.take changeLogSize
  lastId : l.lastId = .ofNat ms.length
  received : l.received = .ofNat (ms.countP Movement.isReception)
  originated : l.originated = .ofNat (ms.countP Movement.isOrigination)

namespace Ledger.Tells

variable {ms : List Movement} {l : Ledger}

theorem touch (h : l.Tells ms) : l.touch.Tells ms := ⟨h.lines, h.lastId, h.received, h.originated⟩

theorem record (h : l.Tells ms) (m : Movement) : (l.record m).Tells (ms ++ [m]) := by
  have hlast : l.lastId + 1 = .ofNat (ms.length + 1) := by
    rw [h.lastId, UInt32.ofNat_add]
    rfl
  have hcount : ∀ (p : Movement → Bool) (counter : UInt32), counter = .ofNat (ms.countP p) →
      (if p m then counter + 1 else counter) = .ofNat ((ms ++ [m]).countP p) := by
    rintro p _ rfl
    rw [List.countP_append, List.countP_singleton]
    cases p m with
    | false => rfl
    | true =>
      rw [if_pos rfl, if_pos rfl, UInt32.ofNat_add]
      rfl
  constructor
  case lines =>
    rw [numbered_concat, List.map_append, List.reverse_append, Ledger.record, hlast, h.lines]
    exact take_cons_take _ _ _
  case lastId =>
    rw [List.length_append]
    exact hlast
  case received => exact hcount Movement.isReception l.received h.received
  case originated => exact hcount Movement.isOrigination l.originated h.originated

theorem foldl_record (h : l.Tells ms) (more : List Movement) : (more.foldl .record l).Tells (ms ++ more) := by
  induction more generalizing ms l with
  | nil =>
    rw [List.append_nil]
    exact h
  | cons m rest ih =>
    rw [List.append_cons]
    exact ih (h.record m)

end Ledger.Tells

variable {areaId : Address4} {start : Instant} {turns : List (Turn Op)}

/-- **After a run the ledger tells of the movements of the run.** -/
theorem tells_of_run {out : Outcome (Timed Database) Notice (List Answer)}
    (hrun : run ⟨start, empty areaId start⟩ turns = .ok out) :
    out.state.state.ledger.Tells (movements (calls areaId start turns)) := by
  have hwait : ∀ (past : List Call) (s : Timed Database) (d : Duration) (now : Instant),
      s.state.Sound ∧ s.state.ledger.Tells (movements past) → s.now.advance d = .ok now →
        s.state.Sound ∧ s.state.ledger.Tells (movements past) := fun _ _ _ _ h _ => h
  refine (Timed.history_of_run (P := fun past s => s.state.Sound ∧ s.state.ledger.Tells (movements past)) hwait ?_ []
    ⟨sound_empty areaId start, ⟨rfl, rfl, rfl, rfl⟩⟩ turns hrun).2
  rintro past s op ⟨hsound, htells⟩
  refine ⟨sound_perform hsound op s.now, ?_⟩
  have hmovements : movements (past ++ [⟨s, op⟩]) = movements past ++ op.movements s.now s.state := by
    simp [movements, Call.movements]
  rw [hmovements, ledger_perform hsound]
  split
  · exact htells.touch.foldl_record _
  · exact htells.foldl_record _

/-! ### The answers of the calls -/

/-- a neighbour's LSA was offered and taken -/
def Call.accepted (call : Call) : Bool :=
  match call.op, call.outcome.answer with
  | .receive _ _, .flag b => b
  | _, _ => false

/-- how many LSAs a refresh says it has renewed -/
def Call.renewed (call : Call) : Nat :=
  match call.op, call.outcome.answer with
  | .refresh, .count n => n
  | _, _ => 0

/-- how many LSAs an ageing says it has removed -/
def Call.expired (call : Call) : Nat :=
  match call.op, call.outcome.answer with
  | .age _, .count n => n
  | .ageTick, .count n => n
  | _, _ => 0

/-- an origination is counted once, whether or not something goes out before -/
theorem countP_movements_build (b : Build) (r? : Option Record) {p : Movement → Bool}
    (hp : ∀ hdr, p (.exit .prematureAging hdr) = false) :
    (b.movements r?).countP p = if p (.entry .selfOriginated (b.header r?)) then 1 else 0 := by
  rw [Build.movements, List.countP_append, List.countP_singleton, Nat.add_eq_right, List.countP_map,
    List.countP_eq_zero]
  intro r _
  simp [hp]

theorem countP_movements_flush (db : Database) (now : Instant) (key : LsaKey) {p : Movement → Bool}
    (hp : ∀ hdr, p (.exit .prematureAging hdr) = false) : ((Op.flush key).movements now db).countP p = 0 := by
  rw [Op.movements, List.countP_map, List.countP_eq_zero]
  intro r _
  simp [hp]

theorem countP_movements_refresh (db : Database) (now : Instant) {p : Movement → Bool} {n : Nat}
    (hp : ∀ (b : Build) r?, (b.movements r?).countP p = n) :
    (Op.refresh.movements now db).countP p = (db.refresh now).answer * n := by
  have hanswer : (db.refresh now).answer = (db.table.values.filter Record.isDue).length := List.length_map _
  rw [hanswer, Op.movements, List.countP_flatMap]
  simp [Function.comp_def, hp]

/-- ageing moves nothing but what expires, and answers with its number -/
theorem countP_expiries (db : Database) (now : Instant) (elapsed : Nat) :
    (db.expiries elapsed).countP Movement.isReception = 0 ∧ (db.expiries elapsed).countP Movement.isOrigination = 0 ∧
      (db.expiries elapsed).countP Movement.isExpiry = (db.age now elapsed).answer := by
  refine ⟨?_, ?_, ?_⟩
  · rw [expiries, List.countP_map, List.countP_eq_zero]
    exact fun r _ => Bool.false_ne_true
  · rw [expiries, List.countP_map, List.countP_eq_zero]
    exact fun r _ => Bool.false_ne_true
  · have hall : (db.expiries elapsed).countP Movement.isExpiry = (db.expiries elapsed).length := by
      rw [expiries, List.countP_map, List.length_map, List.countP_eq_length]
      exact fun r _ => rfl
    rw [hall, expiries, List.length_map, answer_age, List.countP_eq_length_filter]

theorem answer_ageTick (db : Database) (now : Instant) :
    (db.ageTick now).answer = (db.age now (now.since db.lastAgeTick).seconds).answer := by
  have hanswer : ∀ tick elapsed, ({ db with lastAgeTick := tick }.age now elapsed).answer = (db.age now elapsed).answer :=
    fun _ _ => rfl
  rw [ageTick, hanswer]

/-- **The answer of a call says what it moves.** -/
theorem Call.countP_movements (call : Call) :
    call.movements.countP Movement.isReception = call.accepted.toNat ∧
      call.movements.countP Movement.isOrigination = call.op.build?.isSome.toNat + call.renewed ∧
      call.movements.countP Movement.isExpiry = call.expired := by
  obtain ⟨⟨now, db⟩, op⟩ := call
  have hcounts : ∀ (b : Build) r?, (b.movements r?).countP Movement.isReception = 0 ∧
      (b.movements r?).countP Movement.isOrigination = 1 ∧ (b.movements r?).countP Movement.isExpiry = 0 :=
    fun b r? => ⟨countP_movements_build b r? fun _ => rfl, countP_movements_build b r? fun _ => rfl,
      countP_movements_build b r? fun _ => rfl⟩
  cases op with
  | receive hdr body =>
    have hmovements : Call.movements ⟨⟨now, db⟩, .receive hdr body⟩ =
        if (db.receive now hdr body).answer then [.entry .received (hdr.aged 0)] else [] := rfl
    have haccepted : Call.accepted ⟨⟨now, db⟩, .receive hdr body⟩ = (db.receive now hdr body).answer := rfl
    rw [hmovements, haccepted]
    cases (db.receive now hdr body).answer with
    | false => exact ⟨rfl, rfl, rfl⟩
    | true => exact ⟨rfl, rfl, rfl⟩
  | installRouterLsa routerId flags links => exact hcounts (.router routerId flags links) _
  | installExternalLsa routerId route => exact hcounts (.external routerId route) _
  | installNssaLsa routerId route => exact hcounts (.nssa routerId route) _
  | flush key =>
    exact ⟨countP_movements_flush db now key fun _ => rfl, countP_movements_flush db now key fun _ => rfl,
      countP_movements_flush db now key fun _ => rfl⟩
  | refresh =>
    have horiginated : (Op.refresh.movements now db).countP Movement.isOrigination = 0 + (db.refresh now).answer := by
      rw [countP_movements_refresh db now fun b r? => (hcounts b r?).2.1, Nat.mul_one, Nat.zero_add]
    exact ⟨countP_movements_refresh db now fun b r? => (hcounts b r?).1, horiginated,
      countP_movements_refresh db now fun b r? => (hcounts b r?).2.2⟩
  | age elapsed => exact countP_expiries db now elapsed
  | ageTick =>
    have hcounted := countP_expiries db now (now.since db.lastAgeTick).seconds
    rw [← answer_ageTick] at hcounted
    exact hcounted
  | clear => exact ⟨rfl, rfl, rfl⟩

/-- the answers of some calls add up to what they move -/
theorem countP_movements (calls : List Call) :
    (movements calls).countP Movement.isReception = calls.countP Call.accepted ∧
      (movements calls).countP Movement.isOrigination =
        (calls.countP fun call => call.op.build?.isSome) + (calls.map Call.renewed).sum ∧
      (movements calls).countP Movement.isExpiry = (calls.map Call.expired).sum := by
  induction calls with
  | nil => exact ⟨rfl, rfl, rfl⟩
  | cons call rest ih =>
    obtain ⟨hreceived, horiginated, hexpired⟩ := call.countP_movements
    have hmovements : movements (call :: rest) = call.movements ++ movements rest := List.flatMap_cons
    rw [hmovements]
    simp only [List.countP_append, hreceived, horiginated, hexpired, ih, List.countP_cons, List.map_cons,
      List.sum_cons, Bool.toNat]
    refine ⟨?_, ?_, trivial⟩
    · cases call.accepted <;> simp [Nat.add_comm]
    · cases call.op.build?.isSome <;> simp <;> omega

/-! ## Main result -/

/-- what a database shows of the changes that some calls have made to it -/
structure Accounted (calls : List Call) (db : Database) : Prop where
  /-- the log shows the last 64 changes, newest first, with their numbers -/
  log : (db.changes.map fun c => (c.id.toNat, c.key, c.seqNo)) = (numbered (movements calls)).reverse.take 64
  received : db.received.toNat = calls.countP Call.accepted
  originated : db.originated.toNat =
    (calls.countP fun call => call.op.build?.isSome) + (calls.map Call.renewed).sum
  /-- every change is counted as received or originated, or takes something out -/
  balance : (movements calls).length =
    db.received.toNat + db.originated.toNat + (movements calls).countP Movement.isExit
  expired : (movements calls).countP Movement.isExpiry = (calls.map Call.expired).sum
  touched : ∀ call ∈ calls, call.outcome.state.discontinuity ≠ call.before.state.discontinuity ↔
    call.movements ≠ [] ∨ call.op = .clear ∧ call.before.state.size ≠ 0

/-- a call touches the stamp once for every change, and once more to empty the table -/
theorem Call.discontinuity_outcome (call : Call) (h : call.before.state.Sound) :
    call.outcome.state.discontinuity = call.before.state.discontinuity +
      ((call.op.empties call.before.state).toNat + call.movements.length) := by
  have hledger : call.outcome.state.ledger.touched = _ :=
    congrArg Ledger.touched (ledger_perform h call.op call.before.now)
  rw [Ledger.touched_foldl_record] at hledger
  change call.outcome.state.discontinuity = _ at hledger
  rw [hledger, ← Nat.add_assoc]
  congr 1
  cases call.op.empties call.before.state with
  | false => rfl
  | true => rfl

theorem Op.empties_iff {op : Op} {db : Database} : op.empties db = true ↔ op = .clear ∧ db.size ≠ 0 := by
  cases op <;> simp [empties]

/-- **The changes of a database are accounted for.** After every run with less than two to the power 32 changes the log
shows the last 64 of them, newest first, under their numbers, with key and sequence number. The counters are the numbers
of the LSAs that were accepted and that were originated; all changes are those and the removals, and the removals by age
are as many as the answers say. The stamp is touched by the operations that make a change and by those that empty a
table, and by no others. -/
theorem changes_accounted {out : Outcome (Timed Database) Notice (List Answer)}
    (hrun : run ⟨start, empty areaId start⟩ turns = .ok out)
    (hfew : (movements (calls areaId start turns)).length < 2 ^ 32) :
    Accounted (calls areaId start turns) out.state.state := by
  have htells := tells_of_run hrun
  obtain ⟨hreceived, horiginated, hexpired⟩ := countP_movements (calls areaId start turns)
  have hcounter : ∀ (p : Movement → Bool) (counter : UInt32),
      counter = .ofNat ((movements (calls areaId start turns)).countP p) →
        counter.toNat = (movements (calls areaId start turns)).countP p := by
    rintro p _ rfl
    exact UInt32.toNat_ofNat_of_lt' (List.countP_le_length.trans_lt hfew)
  have hrcvd := hcounter Movement.isReception out.state.state.received htells.received
  have horig := hcounter Movement.isOrigination out.state.state.originated htells.originated
  constructor
  case log =>
    have hlines : (out.state.state.changes.map fun c => (c.id, c.key, c.seqNo)) = _ := htells.lines
    have hnumbers : ∀ e ∈ numbered (movements (calls areaId start turns)), (UInt32.ofNat e.1).toNat = e.1 := by
      simp only [numbered, List.mem_map]
      rintro _ ⟨⟨m, n⟩, hmem, rfl⟩
      obtain ⟨-, hlt, -⟩ := List.mem_zipIdx hmem
      exact UInt32.toNat_ofNat_of_lt' (by simp only [UInt32.size]; omega)
    calc out.state.state.changes.map (fun c => (c.id.toNat, c.key, c.seqNo))
        = (out.state.state.changes.map fun c => (c.id, c.key, c.seqNo)).map fun e => (e.1.toNat, e.2) := by
          rw [List.map_map]
          rfl
      _ = ((numbered (movements (calls areaId start turns))).map fun e => ((UInt32.ofNat e.1).toNat, e.2)).reverse.take
            changeLogSize := by
          rw [hlines, List.map_take, List.map_reverse, List.map_map]
          rfl
      _ = (numbered (movements (calls areaId start turns))).reverse.take 64 := by
          rw [List.map_congr_left fun e he => by rw [hnumbers e he], List.map_id']
          rfl
  case received => exact hrcvd.trans hreceived
  case originated => exact horig.trans horiginated
  case balance =>
    rw [hrcvd, horig]
    exact Movement.length_eq _
  case expired => exact hexpired
  case touched =>
    intro call hcall
    have hsound := sound_of_reachable (reachable_of_mem_calls hcall)
    rw [call.discontinuity_outcome hsound, ← Op.empties_iff, ← List.length_pos_iff]
    cases call.op.empties call.before.state <;> simp [Nat.pos_iff_ne_zero]

/-- Changes of all kinds, 68 of them. The second LSA is refused, the third exhausts its numbers; the old LSA of the
neighbour expires, two LSAs are renewed and one of them is flushed. -/
def changesOfAllKinds : List (Turn Op) :=
  let header (id : Address4) (age : UInt16) : Header :=
    ⟨age, .external, LsaKind.router.type, id, id, some 0x7fffffff, none, some 24⟩
  let receive (hdr : Header) : Turn Op := .perform (.receive hdr (.router ⟨⟨0⟩, []⟩))
  [receive (header ⟨1⟩ 0), receive (header ⟨1⟩ 0), .perform (.installRouterLsa ⟨1⟩ ⟨0⟩ [])] ++
    List.replicate 60 (.perform (.installExternalLsa ⟨1⟩ ⟨⟨.ofOctets 10 0 0 1, Fin.last 32⟩, 1, .type2, none, 0⟩)) ++
    [receive (header ⟨2⟩ 1900), .perform (.age 1800), .perform .refresh,
      .perform (.flush ⟨LsaKind.router.type, ⟨1⟩, ⟨1⟩⟩), .perform .clear, .perform .clear]

/-- the log has lost the first four of the 68 changes -/
theorem changes_accounted_allKinds :
    ∃ out, run ⟨.start, empty .unspecified .start⟩ changesOfAllKinds = .ok out ∧
      (movements (calls .unspecified .start changesOfAllKinds)).length = 68 ∧
      (out.state.state.changes.map fun c => c.id.toNat) = (List.range' 5 64).reverse ∧
      out.state.state.received = 2 ∧ out.state.state.originated = 63 ∧ out.state.state.discontinuity = 69 ∧
      Accounted (calls .unspecified .start changesOfAllKinds) out.state.state := by
  obtain ⟨out, hrun, hnumbers, hreceived, horiginated, htouched⟩ :
      ∃ out, run ⟨.start, empty .unspecified .start⟩ changesOfAllKinds = .ok out ∧
        (out.state.state.changes.map fun c => c.id.toNat) = (List.range' 5 64).reverse ∧
        out.state.state.received = 2 ∧ out.state.state.originated = 63 ∧ out.state.state.discontinuity = 69 :=
    ⟨_, rfl, by decide +kernel, by decide +kernel, by decide +kernel, by decide +kernel⟩
  have hcount : (movements (calls .unspecified .start changesOfAllKinds)).length = 68 := by decide +kernel
  have hfew : (movements (calls .unspecified .start changesOfAllKinds)).length < 2 ^ 32 := by
    rw [hcount]
    decide
  exact ⟨out, hrun, hcount, hnumbers, hreceived, horiginated, htouched, changes_accounted hrun hfew⟩

end Database

end RoutingReplay.Ospf
