/-
The counts of flaps, over whole runs.

A history comes into being with the first flap of its route, be it a withdrawal or an announcement, and two operations
can end it: the route is cleared, or a purge releases it (`Call.forgets`). In between, each flap counts and nothing else
does. One lemma for each of these three kinds of calls says what becomes of the counts of a route
(`counts_after_of_flap`, `find?_after_of_forgets`, `counts_after_of_neither`); it does not matter what the penalties are.

`Lifetime` is the stretch of a run since the history of a route was created. The history that is there after a run
counts the flaps of its lifetime, and there is one exactly if a flap came after the route was last forgotten
(`flaps_counted`).
-/
import RoutingReplay.Proofs.Damping.Purge
import RoutingReplay.Proofs.Trace

namespace RoutingReplay.Damping

open PenaltyArithmetic

variable {R : Type} [PenaltyArithmetic R]

/-- how many withdrawals and how many flaps a history counts -/
def History.counts (h : History R) : UInt32 × UInt32 := (h.withdrawals, h.flaps)

namespace Damper

variable {c : Config R} {d : Damper R} {now : Instant} {net : Network}

def Op.isWithdrawalOf (op : Op) (net : Network) : Bool := op = .withdraw net

/-- an announcement with other attributes; it is a flap that is no withdrawal -/
def Op.isChangeOf (op : Op) (net : Network) : Bool := op = .announce net true

/-! ## What one operation does to the counts -/

/-- a withdrawal counts twice, as such and as a flap; a change of attributes counts once -/
theorem counts_access {flap : Op} (hflap : flap.isFlapOf net = true) (c : Config R) (now : Instant) (h : History R) :
    (flap.access c now h).counts = (h.withdrawals + .ofNat (flap.isWithdrawalOf net).toNat,
      h.flaps + .ofNat ((flap.isWithdrawalOf net).toNat + (flap.isChangeOf net).toNat)) := by
  rw [History.counts, Op.access, History.withdrawals_settle, History.flaps_settle]
  cases flap with
  | withdraw n =>
    obtain rfl : n = net := by simpa [Op.isFlapOf] using hflap
    simp [Op.raise, Op.isWithdrawalOf, Op.isChangeOf, History.penalize, History.decayed]
  | announce n attributeChanged =>
    obtain rfl : n = net := by simpa [Op.isFlapOf] using hflap
    cases attributeChanged with
    | false => simp [Op.raise, Op.isWithdrawalOf, Op.isChangeOf, History.decayed]
    | true => simp [Op.raise, Op.isWithdrawalOf, Op.isChangeOf, History.penalize, History.decayed]
  | _ => cases hflap

/-- to bring a history up to date counts nothing -/
theorem counts_refresh (h : History R) (c : Config R) (now : Instant) : (h.refresh c now).state.counts = h.counts := by
  simp [History.counts, History.refresh, History.decayed]

/-- **A query neither creates nor drops a history, and it counts nothing.** -/
theorem counts_query {query : Op} (hquery : query.isQuery = true) (d : Damper R) (now : Instant) (net : Network) :
    ((perform query now d).state.routes.find? net).map History.counts = (d.routes.find? net).map History.counts := by
  rw [find?_perform, effect_query hquery]
  split_ifs
  · rw [Option.map_map]
    exact Option.map_congr fun h _ => counts_refresh h d.config now
  · rfl

/-! ## Calls -/

/-- an operation on a damper and the state that it found -/
abbrev Call (R : Type) := Timed.Call (Damper R) Op

/-- the operations of a run, each with the state that it found -/
def calls (start : Instant) (d : Damper R) (turns : List (Turn Op)) : List (Call R) :=
  Timed.trace perform ⟨start, d⟩ turns

namespace Call

/-- the damper that a call leaves -/
def after (call : Call R) : Damper R := (perform call.op call.before.now call.before.state).state

/-- a call forgets a route: it clears it, or it is a purge that releases it -/
def forgets (call : Call R) (net : Network) : Bool :=
  match call.op with
  | .clear n => n = net
  | .purge => net ∈ call.before.state.released call.before.now
  | _ => false

variable {call : Call R}

theorem find?_after_of_forgets (h : call.forgets net = true) : call.after.routes.find? net = none := by
  obtain ⟨⟨now, d⟩, op⟩ := call
  cases op with
  | clear n =>
    obtain rfl : n = net := by simpa [forgets] using h
    exact (find?_clear d n n).trans (if_pos rfl)
  | purge =>
    have hreleased : net ∈ d.released now := by simpa [forgets] using h
    exact (find?_purge_eq d now net).trans (if_pos hreleased)
  | _ => cases h

/-- a flap finds a history or begins one -/
theorem counts_after_of_flap (h : call.op.isFlapOf net = true) :
    (call.after.routes.find? net).map History.counts =
      some ((call.op.access call.before.state.config call.before.now
        ((call.before.state.routes.find? net).getD (.fresh call.before.now))).counts) := by
  rw [after, find?_flap rfl _ h, Option.map_some]

/-- nothing else counts -/
theorem counts_after_of_neither (hflap : call.op.isFlapOf net = false) (hforgets : call.forgets net = false) :
    (call.after.routes.find? net).map History.counts =
      (call.before.state.routes.find? net).map History.counts := by
  obtain ⟨⟨now, d⟩, op⟩ := call
  by_cases hquery : op.isQuery = true
  · exact counts_query hquery d now net
  cases op with
  | withdraw n | announce n attributeChanged =>
    have hnet : ¬ net = n := fun e => by simp [Op.isFlapOf, e] at hflap
    rw [after, find?_perform, Op.effect, if_neg hnet]
  | clear n =>
    have hnet : ¬ net = n := fun e => by simp [forgets, e] at hforgets
    exact congrArg _ ((find?_clear d net n).trans (if_neg hnet))
  | purge =>
    have hkept : net ∉ d.released now := by simpa [forgets] using hforgets
    have hfind : (after ⟨⟨now, d⟩, .purge⟩).routes.find? net = _ := find?_purge_eq d now net
    rw [hfind, if_neg hkept, find?_current, Option.map_map]
    exact Option.map_congr fun h _ => counts_refresh h d.config now
  | _ => exact absurd rfl hquery

theorem forgets_of_flap (h : call.op.isFlapOf net = true) : call.forgets net = false := by
  unfold forgets
  cases hop : call.op with
  | withdraw n | announce n attributeChanged => rfl
  | _ => simp [hop, Op.isFlapOf] at h

end Call

/-! ## The lifetime of a history -/

/-- after some flap of the route no call has forgotten it -/
def Recorded (net : Network) (past : List (Call R)) : Prop :=
  ∃ before flap later, past = before ++ flap :: later ∧ flap.op.isFlapOf net = true ∧
    ∀ call ∈ later, call.forgets net = false

/-- The last stretch of some calls in which a route has a history: it begins with a flap that found none, every later
call found one, and none forgot it. -/
def Lifetime (net : Network) (past lifetime : List (Call R)) : Prop :=
  ∃ before creation later, past = before ++ lifetime ∧ lifetime = creation :: later ∧
    creation.op.isFlapOf net = true ∧ creation.before.state.routes.find? net = none ∧
      ∀ call ∈ later, call.forgets net = false ∧ (call.before.state.routes.find? net).isSome = true

theorem recorded_concat_iff {past : List (Call R)} {call : Call R} :
    Recorded net (past ++ [call]) ↔
      call.op.isFlapOf net = true ∨ Recorded net past ∧ call.forgets net = false := by
  constructor
  · rintro ⟨before, flap, later, hsplit, hflap, hkept⟩
    rcases List.eq_nil_or_concat later with rfl | ⟨others, last, rfl⟩
    · obtain ⟨-, hcall⟩ := List.append_inj' hsplit rfl
      cases hcall
      exact Or.inl hflap
    · rw [List.concat_eq_append, ← List.cons_append, ← List.append_assoc] at hsplit
      obtain ⟨hpast, hcall⟩ := List.append_inj' hsplit rfl
      cases hcall
      refine Or.inr ⟨⟨before, flap, others, hpast, hflap, ?_⟩, ?_⟩
      · exact fun other hother => hkept other (by simp [hother])
      · exact hkept call (by simp)
  · rintro (hflap | ⟨⟨before, flap, later, rfl, hflap, hkept⟩, hforgets⟩)
    · exact ⟨past, call, [], rfl, hflap, by simp⟩
    · refine ⟨before, flap, later ++ [call], by simp, hflap, ?_⟩
      simpa [or_imp, forall_and] using ⟨hkept, hforgets⟩

/-- a lifetime goes on with a call that finds a history and does not forget it -/
theorem Lifetime.concat {past lifetime : List (Call R)} (h : Lifetime net past lifetime) {call : Call R}
    (hforgets : call.forgets net = false) (hfound : (call.before.state.routes.find? net).isSome = true) :
    Lifetime net (past ++ [call]) (lifetime ++ [call]) := by
  obtain ⟨before, creation, later, rfl, rfl, hflap, hnone, hlater⟩ := h
  refine ⟨before, creation, later ++ [call], List.append_assoc _ _ _, rfl, hflap, hnone, ?_⟩
  intro other hother
  rcases List.mem_append.mp hother with hold | hnew
  · exact hlater other hold
  · rw [List.mem_singleton.mp hnew]
    exact ⟨hforgets, hfound⟩

/-- a flap that finds no history begins one -/
theorem lifetime_creation {past : List (Call R)} {call : Call R} (hflap : call.op.isFlapOf net = true)
    (hnone : call.before.state.routes.find? net = none) : Lifetime net (past ++ [call]) [call] :=
  ⟨past, call, [], rfl, rfl, hflap, hnone, by simp⟩

/-- no lifetime goes on past the creation of another one -/
theorem Lifetime.eq_nil_of_append {past past' first rest : List (Call R)} (h : Lifetime net past (first ++ rest))
    (h' : Lifetime net past' rest) : first = [] := by
  obtain ⟨before, creation, later, -, hsplit, -, -, hlater⟩ := h
  obtain ⟨before', creation', later', -, rfl, -, hnone, -⟩ := h'
  cases first with
  | nil => rfl
  | cons call others =>
    -- the second creation would find the history of the longer lifetime
    obtain ⟨-, hothers⟩ := List.cons.inj hsplit
    have hfound := (hlater creation' (by simp [← hothers])).2
    rw [hnone] at hfound
    cases hfound

/-- The calls determine the lifetime. -/
theorem Lifetime.unique {past lifetime lifetime' : List (Call R)} (h : Lifetime net past lifetime)
    (h' : Lifetime net past lifetime') : lifetime' = lifetime := by
  obtain ⟨before, -, -, hsplit, -⟩ := id h
  obtain ⟨before', -, -, hsplit', -⟩ := id h'
  rcases List.append_eq_append_iff.mp (hsplit.symm.trans hsplit') with ⟨first, -, rfl⟩ | ⟨first, -, rfl⟩
  · rw [h.eq_nil_of_append h', List.nil_append]
  · rw [h'.eq_nil_of_append h, List.nil_append]

/-! ## What a history counts -/

/-- how many withdrawals of a route are among some calls -/
def withdrawalsOf (net : Network) (calls : List (Call R)) : Nat := calls.countP fun call => call.op.isWithdrawalOf net

/-- how many announcements of a route with other attributes are among some calls -/
def changesOf (net : Network) (calls : List (Call R)) : Nat := calls.countP fun call => call.op.isChangeOf net

omit [PenaltyArithmetic R] in
theorem withdrawalsOf_concat (net : Network) (calls : List (Call R)) (call : Call R) :
    withdrawalsOf net (calls ++ [call]) = withdrawalsOf net calls + (call.op.isWithdrawalOf net).toNat := by
  rw [withdrawalsOf, List.countP_append, List.countP_singleton]
  cases call.op.isWithdrawalOf net <;> rfl

omit [PenaltyArithmetic R] in
theorem changesOf_concat (net : Network) (calls : List (Call R)) (call : Call R) :
    changesOf net (calls ++ [call]) = changesOf net calls + (call.op.isChangeOf net).toNat := by
  rw [changesOf, List.countP_append, List.countP_singleton]
  cases call.op.isChangeOf net <;> rfl

/-- a call is one flap at most -/
theorem flaps_le_turns (net : Network) (start : Instant) (d : Damper R) (turns : List (Turn Op)) :
    withdrawalsOf net (calls start d turns) + changesOf net (calls start d turns) ≤ turns.length := by
  refine Nat.le_trans ?_ (Timed.length_trace_le perform ⟨start, d⟩ turns)
  change _ ≤ (calls start d turns).length
  generalize calls start d turns = calls
  induction calls with
  | nil => exact Nat.le_refl 0
  | cons call rest ih =>
    have honce : ¬ (call.op.isWithdrawalOf net = true ∧ call.op.isChangeOf net = true) := by
      cases hop : call.op <;> simp [Op.isWithdrawalOf, Op.isChangeOf]
    simp only [withdrawalsOf, changesOf, List.countP_cons, List.length_cons] at ih ⊢
    split_ifs with hwithdrawal hchange
    · exact absurd ⟨hwithdrawal, hchange⟩ honce
    all_goals omega

/-- there are no more flaps in a lifetime than in all calls -/
theorem Lifetime.counts_le {past lifetime : List (Call R)} (h : Lifetime net past lifetime) :
    withdrawalsOf net lifetime + changesOf net lifetime ≤ withdrawalsOf net past + changesOf net past := by
  obtain ⟨before, -, -, rfl, -⟩ := h
  have hsublist := List.sublist_append_right before lifetime
  exact Nat.add_le_add hsublist.countP_le hsublist.countP_le

/-- the counts that a history has after some calls, as far as 32 bits go -/
def countsOf (net : Network) (calls : List (Call R)) : UInt32 × UInt32 :=
  (.ofNat (withdrawalsOf net calls), .ofNat (withdrawalsOf net calls + changesOf net calls))

omit [PenaltyArithmetic R] in
/-- one more flap counts for one more -/
theorem countsOf_concat (net : Network) (calls : List (Call R)) (call : Call R) :
    countsOf net (calls ++ [call]) =
      ((countsOf net calls).1 + .ofNat (call.op.isWithdrawalOf net).toNat,
        (countsOf net calls).2 + .ofNat ((call.op.isWithdrawalOf net).toNat + (call.op.isChangeOf net).toNat)) := by
  simp only [countsOf, withdrawalsOf_concat, changesOf_concat, ← UInt32.ofNat_add]
  congr 2
  omega

omit [PenaltyArithmetic R] in
/-- and nothing else counts -/
theorem countsOf_concat_of_not_flap {call : Call R} (hflap : call.op.isFlapOf net = false) (calls : List (Call R)) :
    countsOf net (calls ++ [call]) = countsOf net calls := by
  have hnone : call.op.isWithdrawalOf net = false ∧ call.op.isChangeOf net = false := by
    cases hop : call.op <;> simp_all [Op.isFlapOf, Op.isWithdrawalOf, Op.isChangeOf]
  simp only [countsOf, withdrawalsOf_concat, changesOf_concat, hnone, Bool.toNat_false, Nat.add_zero]

/-- what is known of the counts of a route after some calls -/
structure Counting (net : Network) (past : List (Call R)) (counts? : Option (UInt32 × UInt32)) : Prop where
  tracked_iff : counts?.isSome = true ↔ Recorded net past
  counted : ∀ counts ∈ counts?, ∃ lifetime, Lifetime net past lifetime ∧ counts = countsOf net lifetime

/-- **A call counts if it is a flap**, forgets if it forgets, and does neither otherwise. -/
theorem Counting.after {past : List (Call R)} (call : Call R)
    (h : Counting net past ((call.before.state.routes.find? net).map History.counts)) :
    Counting net (past ++ [call]) ((call.after.routes.find? net).map History.counts) := by
  by_cases hflap : call.op.isFlapOf net = true
  · have hcounts := counts_access hflap call.before.state.config call.before.now
    rw [Call.counts_after_of_flap hflap, hcounts]
    constructor
    · simp [recorded_concat_iff, hflap]
    · intro counts hnow
      obtain rfl := Option.some.inj hnow
      cases hfound : call.before.state.routes.find? net with
      | none =>
        refine ⟨[call], lifetime_creation hflap hfound, ?_⟩
        exact (countsOf_concat net [] call).symm
      | some old =>
        obtain ⟨lifetime, hlifetime, hold⟩ := h.counted old.counts (by rw [hfound]; rfl)
        refine ⟨lifetime ++ [call], hlifetime.concat (Call.forgets_of_flap hflap) (by rw [hfound]; rfl), ?_⟩
        rw [countsOf_concat, ← hold]
        rfl
  · rw [Bool.not_eq_true] at hflap
    cases hforgets : call.forgets net with
    | true =>
      rw [Call.find?_after_of_forgets hforgets]
      constructor
      · simp [recorded_concat_iff, hflap, hforgets]
      · rintro _ ⟨⟩
    | false =>
      rw [Call.counts_after_of_neither hflap hforgets]
      constructor
      · rw [h.tracked_iff, recorded_concat_iff]
        simp [hflap, hforgets]
      · intro counts hcounts
        obtain ⟨lifetime, hlifetime, hold⟩ := h.counted counts hcounts
        have hfound : (call.before.state.routes.find? net).isSome = true := by
          obtain ⟨old, hstored, -⟩ := Option.mem_map.mp hcounts
          exact Option.isSome_of_mem hstored
        refine ⟨lifetime ++ [call], hlifetime.concat hforgets hfound, ?_⟩
        rw [countsOf_concat_of_not_flap hflap, hold]

/-! ## Runs -/

/-- the counts of a route after a run from a damper without routes -/
theorem counting_of_run {start : Instant} {turns : List (Turn Op)}
    {out : Outcome (Timed (Damper R)) (Notice R) (List (Answer R))} (hempty : d.routes = .empty)
    (hrun : run ⟨start, d⟩ turns = .ok out) (net : Network) :
    Counting net (calls start d turns) ((out.state.state.routes.find? net).map History.counts) := by
  refine Timed.history_of_run (s := ⟨start, d⟩)
    (P := fun past s => Counting net past ((s.state.routes.find? net).map History.counts)) ?_ ?_ [] ?_ turns hrun
  · intro past s wait now h _
    exact h
  · intro past s op h
    exact Counting.after ⟨s, op⟩ h
  · change Counting net [] ((d.routes.find? net).map History.counts)
    rw [hempty]
    constructor
    · simp [Recorded, SortedMap.find?_empty]
    · rintro _ ⟨⟩

/-- the totals sum up the flaps of the histories -/
theorem flaps_totals (d : Damper R) (now : Instant) :
    (d.totals now).answer.flaps = (d.routes.values.map fun h => h.flaps.toNat).sum := by
  have hflaps : (d.totals now).answer.flaps =
      (d.current now).routes.values.foldr (fun h sum => h.flaps.toNat + sum) 0 := rfl
  have hvalues : (d.current now).routes.values = d.routes.values.map fun h => (h.refresh d.config now).state := by
    change ((d.routes.entries.map fun e => (e.1, (e.2.refresh d.config now).state)).map Prod.snd) = _
    rw [SortedMap.values, List.map_map, List.map_map]
    rfl
  rw [hflaps, hvalues, List.foldr_map, List.sum_eq_foldr, List.foldr_map]
  simp only [History.refresh, History.flaps_settle, History.decayed]

/-- what a damper shows of the flaps among some calls -/
structure FlapsCounted (calls : List (Call R)) (s : Timed (Damper R)) : Prop where
  /-- a route is tracked if it has flapped since it was last forgotten -/
  tracked_iff : ∀ net, s.state.routes.contains net = true ↔ Recorded net calls
  /-- its counts are those of the lifetime of its history -/
  counted : ∀ net h, s.state.routes.find? net = some h → ∃ lifetime,
    (∀ stretch, Lifetime net calls stretch ↔ stretch = lifetime) ∧
      h.withdrawals.toNat = withdrawalsOf net lifetime ∧
        h.flaps.toNat = withdrawalsOf net lifetime + changesOf net lifetime
  withdrawals_le : ∀ net h, s.state.routes.find? net = some h → h.withdrawals ≤ h.flaps
  /-- they are what is reported -/
  reported : ∀ net, ((s.state.routeStats s.now net).answer.map fun stats => (stats.withdrawals, stats.flaps)) =
    (s.state.routes.find? net).map History.counts
  /-- no query creates, drops or recounts a history -/
  queried : ∀ query : Op, query.isQuery = true → ∀ net,
    ((perform query s.now s.state).state.routes.find? net).map History.counts =
      (s.state.routes.find? net).map History.counts
  totals : (s.state.totals s.now).answer.flaps = (s.state.routes.values.map fun h => h.flaps.toNat).sum

/-- **Flap accounting loses nothing**, as long as the counters do not overflow. -/
theorem flapsCounted_of_run {start : Instant} {turns : List (Turn Op)}
    {out : Outcome (Timed (Damper R)) (Notice R) (List (Answer R))} (hcreate : (create c).answer = .ok d)
    (hrun : run ⟨start, d⟩ turns = .ok out)
    (hfew : ∀ net, withdrawalsOf net (calls start d turns) + changesOf net (calls start d turns) < 2 ^ 32) :
    FlapsCounted (calls start d turns) out.state := by
  obtain ⟨-, rfl⟩ := create_eq_ok_iff.mp hcreate
  have hcounting := counting_of_run rfl hrun
  have hcounted : ∀ net h, out.state.state.routes.find? net = some h → ∃ lifetime,
      (∀ stretch, Lifetime net (calls start ⟨c, .empty⟩ turns) stretch ↔ stretch = lifetime) ∧
        h.withdrawals.toNat = withdrawalsOf net lifetime ∧
          h.flaps.toNat = withdrawalsOf net lifetime + changesOf net lifetime := by
    intro net h hstored
    obtain ⟨lifetime, hlifetime, hcounts⟩ := (hcounting net).counted h.counts (by rw [hstored]; rfl)
    have hfits := hlifetime.counts_le.trans_lt (hfew net)
    obtain ⟨hwithdrawals, hflaps⟩ := Prod.mk.inj hcounts
    refine ⟨lifetime, fun stretch => ⟨hlifetime.unique, ?_⟩, ?_, ?_⟩
    · rintro rfl
      exact hlifetime
    · rw [hwithdrawals, UInt32.toNat_ofNat_of_lt' ((Nat.le_add_right _ _).trans_lt hfits)]
    · rw [hflaps, UInt32.toNat_ofNat_of_lt' hfits]
  constructor
  case tracked_iff =>
    intro net
    rw [← (hcounting net).tracked_iff, Option.isSome_map]
    rfl
  case counted => exact hcounted
  case withdrawals_le =>
    intro net h hstored
    obtain ⟨lifetime, -, hwithdrawals, hflaps⟩ := hcounted net h hstored
    rw [UInt32.le_iff_toNat_le, hwithdrawals, hflaps]
    exact Nat.le_add_right _ _
  case reported =>
    intro net
    rw [answer_routeStats, find?_current, Option.map_map, Option.map_map]
    exact Option.map_congr fun h _ => counts_refresh h out.state.state.config out.state.now
  case queried =>
    intro query hquery net
    exact counts_query hquery out.state.state out.state.now net
  case totals => exact flaps_totals out.state.state out.state.now

end Damper

end RoutingReplay.Damping
