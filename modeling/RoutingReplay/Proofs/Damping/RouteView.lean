/-
The damping engine as seen from one route.

An operation that touches a route accesses its history: it brings the penalty up to the current time, adds what a flap
adds, and compares the sum with the thresholds (`Op.access`). What an operation leaves of a route depends on the history
of that route alone: `Op.effect` says how, and `find?_perform` says that the operations do just that. What holds of a
route over a run is proved from `Op.effect`, without opening the operations again.
-/
import RoutingReplay.Damping.Damper.Operation
import RoutingReplay.Proofs.Damping.PenaltyOrder

namespace RoutingReplay.Damping

open PenaltyArithmetic

variable {R : Type} [PenaltyArithmetic R]

/-! ## What a comparison with the thresholds keeps and changes -/

namespace History

variable (h : History R) (c : Config R) (now : Instant)

@[simp] theorem penalty_settle : (h.settle c now).state.penalty = h.penalty := by
  unfold settle
  split_ifs <;> rfl

@[simp] theorem lastUpdate_settle : (h.settle c now).state.lastUpdate = h.lastUpdate := by
  unfold settle
  split_ifs <;> rfl

@[simp] theorem flaps_settle : (h.settle c now).state.flaps = h.flaps := by
  unfold settle
  split_ifs <;> rfl

@[simp] theorem withdrawals_settle : (h.settle c now).state.withdrawals = h.withdrawals := by
  unfold settle
  split_ifs <;> rfl

theorem suppressed_settle : (h.settle c now).state.suppressed =
    if h.suppressed then !decide (h.penalty < c.reuseThreshold) else decide (c.suppressThreshold ≤ h.penalty) := by
  unfold settle
  split_ifs <;> simp_all [Outcome.silent]

theorem suppressedSince_settle : (h.settle c now).state.suppressedSince =
    if h.suppressed then if h.penalty < c.reuseThreshold then none else h.suppressedSince
    else if c.suppressThreshold ≤ h.penalty then some now else h.suppressedSince := by
  unfold settle
  split_ifs <;> rfl

/-- whether a history is worth keeping under some parameters -/
def isLive : Bool := (⟨c, .empty⟩ : Damper R).isLive h

end History

namespace Damper

/-! ## What an operation does to the history of a route -/

/-- the routes that an operation accesses -/
def Op.touches (op : Op) (net : Network) : Bool :=
  match op with
  | .withdraw n | .announce n _ | .penalty n | .isSuppressed n | .reuseTime n | .routeStats n => n = net
  | .clear _ => false
  | .purge | .totals | .suppressedRoutes => true

/-- what an operation adds to a history that is up to date -/
def Op.raise (op : Op) (c : Config R) (h : History R) : History R :=
  match op with
  | .withdraw _ => { h.penalize c c.withdrawalPenalty with flaps := h.flaps + 1, withdrawals := h.withdrawals + 1 }
  | .announce _ true => { h.penalize c c.attributeChangePenalty with flaps := h.flaps + 1 }
  | _ => h

/-- a history after an operation has accessed it -/
def Op.access (op : Op) (c : Config R) (now : Instant) (h : History R) : History R :=
  ((op.raise c (h.decayed c now)).settle c now).state

/-- the history of a route after an operation -/
def Op.effect (op : Op) (c : Config R) (now : Instant) (net : Network) (h? : Option (History R)) : Option (History R) :=
  match op with
  | .withdraw n | .announce n _ => if net = n then some (op.access c now (h?.getD (.fresh now))) else h?
  | .clear n => if net = n then none else h?
  | .penalty n | .isSuppressed n | .reuseTime n | .routeStats n => if net = n then h?.map (op.access c now) else h?
  | .totals | .suppressedRoutes => h?.map (op.access c now)
  | .purge => (h?.map (op.access c now)).filter (·.isLive c)

/-- the history that an operation leaves was there before, or it is what an access has made of an old or a new one -/
theorem Op.mem_effect {op : Op} {c : Config R} {now : Instant} {net : Network} {h? : Option (History R)}
    {h : History R} (hmem : h ∈ op.effect c now net h?) :
    h ∈ h? ∨ ∃ h₀, (h₀ ∈ h? ∨ h₀ = .fresh now) ∧ h = op.access c now h₀ := by
  have haccessed : h ∈ h?.map (op.access c now) → ∃ h₀, (h₀ ∈ h? ∨ h₀ = .fresh now) ∧ h = op.access c now h₀ := by
    intro hmapped
    obtain ⟨h₀, hold, rfl⟩ := Option.mem_map.mp hmapped
    exact ⟨h₀, Or.inl hold, rfl⟩
  cases op with
  | withdraw n | announce n attributeChanged =>
    simp only [effect] at hmem
    split_ifs at hmem
    · obtain rfl := Option.some.inj hmem
      refine Or.inr ⟨_, ?_, rfl⟩
      cases h? with
      | none => exact Or.inr rfl
      | some h₀ => exact Or.inl rfl
    · exact Or.inl hmem
  | clear n =>
    simp only [effect] at hmem
    split_ifs at hmem
    · cases hmem
    · exact Or.inl hmem
  | penalty n | isSuppressed n | reuseTime n | routeStats n =>
    simp only [effect] at hmem
    split_ifs at hmem
    · exact Or.inr (haccessed hmem)
    · exact Or.inl hmem
  | totals | suppressedRoutes => exact Or.inr (haccessed hmem)
  | purge => exact Or.inr (haccessed (Option.mem_filter_iff.mp hmem).1)

/-! ## What a flap adds -/

theorem Op.suppressed_raise (op : Op) (c : Config R) (h : History R) : (op.raise c h).suppressed = h.suppressed := by
  unfold raise
  split <;> rfl

theorem Op.suppressedSince_raise (op : Op) (c : Config R) (h : History R) :
    (op.raise c h).suppressedSince = h.suppressedSince := by
  unfold raise
  split <;> rfl

theorem Op.lastUpdate_raise (op : Op) (c : Config R) (h : History R) : (op.raise c h).lastUpdate = h.lastUpdate := by
  unfold raise
  split <;> rfl

/-- an access leaves a history that is up to date -/
theorem Op.lastUpdate_access (op : Op) (c : Config R) (now : Instant) (h : History R) :
    (op.access c now h).lastUpdate = now := by
  rw [access, History.lastUpdate_settle, lastUpdate_raise]
  rfl

/-- what an access stores is a number -/
theorem Op.penalty_raise_self [PenaltyOrder R] {c : Config R} (hc : c.Accepted) (op : Op) (now : Instant)
    (h : History R) : (op.raise c (h.decayed c now)).penalty ≤ (op.raise c (h.decayed c now)).penalty := by
  have hdecayed : (h.decayed c now).penalty ≤ (h.decayed c now).penalty := decay_self _ _ _
  unfold raise
  split
  · exact smaller_self (PenaltyOrder.add_self hdecayed hc.withdrawalPenalty_finite) _
  · exact smaller_self (PenaltyOrder.add_self hdecayed hc.attributeChangePenalty_finite) _
  · exact hdecayed

/-! ## The building blocks -/

omit [PenaltyArithmetic R] in
theorem find?_onRoute {α : Type} (d : Damper R) (net n : Network) (h : History R) (act : History R → History.Step R α) :
    (d.onRoute n h act).state.routes.find? net = if net = n then some (act h).state else d.routes.find? net := by
  simp only [onRoute, Outcome.state_within, SortedMap.find?_insert]
  by_cases hn : net = n
  · simp [hn]
  · simp [hn]

/-- a query leaves a refreshed history behind, if there is one -/
theorem find?_query {α : Type} (d : Damper R) (now : Instant) (net n : Network) (ask : History R → α) :
    (d.query now n ask).state.routes.find? net =
      if net = n then (d.routes.find? net).map fun h => (h.refresh d.config now).state else d.routes.find? net := by
  unfold query
  cases hn : d.routes.find? n with
  | none =>
    by_cases hnet : net = n
    · subst hnet
      simp [Outcome.silent, hn]
    · simp [Outcome.silent, hnet]
  | some h =>
    rw [find?_onRoute]
    by_cases hnet : net = n
    · subst hnet
      simp [Outcome.map, hn]
    · simp [hnet]

theorem find?_refreshAll (d : Damper R) (now : Instant) (net : Network) :
    (d.refreshAll now).state.routes.find? net =
      (d.routes.find? net).map fun h => (h.refresh d.config now).state := by
  simp only [refreshAll, Outcome.state_within, Outcome.overValues, SortedMap.find?_mapValues]

omit [PenaltyArithmetic R] in
theorem find?_clear (d : Damper R) (net n : Network) :
    (d.clear n).state.routes.find? net = if net = n then none else d.routes.find? net := by
  unfold clear SortedMap.contains
  by_cases hnet : net = n
  · subst hnet
    cases hn : d.routes.find? net with
    | none => simp [Outcome.silent, hn]
    | some h => simp [Outcome.silent, SortedMap.find?_erase]
  · cases d.routes.find? n with
    | none => simp [Outcome.silent, hnet]
    | some h => simp [Outcome.silent, SortedMap.find?_erase, hnet]

theorem find?_purge (d : Damper R) (now : Instant) (net : Network) :
    (d.purge now).state.routes.find? net =
      ((d.routes.find? net).map fun h => (h.refresh d.config now).state).filter (·.isLive d.config) := by
  have hroutes : (d.purge now).state.routes =
      (d.refreshAll now).state.routes.filter fun _ h => h.isLive d.config := by
    simp only [purge]
    split_ifs <;> rfl
  rw [hroutes, SortedMap.find?_filter, find?_refreshAll]

/-- **What an operation leaves of a route depends on the history of that route alone.** -/
theorem find?_perform (op : Op) (now : Instant) (d : Damper R) (net : Network) :
    (perform op now d).state.routes.find? net = op.effect d.config now net (d.routes.find? net) := by
  cases op with
  | withdraw n =>
    simp only [perform, Outcome.map, withdraw, find?_onRoute, Op.effect, historyOf]
    by_cases hnet : net = n
    · subst hnet
      rw [if_pos rfl, if_pos rfl]
      rfl
    · simp [hnet]
  | announce n attributeChanged =>
    simp only [perform, Outcome.map, announce, find?_onRoute, Op.effect, historyOf]
    by_cases hnet : net = n
    · subst hnet
      rw [if_pos rfl, if_pos rfl]
      cases attributeChanged <;> rfl
    · simp [hnet]
  | clear n => exact find?_clear d net n
  | penalty n => exact find?_query d now net n _
  | isSuppressed n => exact find?_query d now net n _
  | reuseTime n => exact find?_query d now net n _
  | routeStats n => exact find?_query d now net n _
  | purge => exact find?_purge d now net
  | totals => exact find?_refreshAll d now net
  | suppressedRoutes => exact find?_refreshAll d now net

theorem config_perform (op : Op) (now : Instant) (d : Damper R) : (perform op now d).state.config = d.config := by
  have hquery : ∀ {α : Type} (n : Network) (ask : History R → α), (d.query now n ask).state.config = d.config := by
    intro α n ask
    unfold query
    cases d.routes.find? n <;> rfl
  cases op with
  | withdraw n => rfl
  | announce n attributeChanged => rfl
  | clear n =>
    simp only [perform, Outcome.map, clear]
    split_ifs <;> rfl
  | penalty n => exact hquery n _
  | isSuppressed n => exact hquery n _
  | reuseTime n => exact hquery n _
  | routeStats n => exact hquery n _
  | purge =>
    simp only [perform, Outcome.map, purge]
    split_ifs <;> rfl
  | totals => rfl
  | suppressedRoutes => rfl

/-! ## Reachable states -/

/-- a state that some run reaches from a new damper -/
def Reachable (c : Config R) (s : Timed (Damper R)) : Prop :=
  ∃ d start turns out, (create c).answer = .ok d ∧ run ⟨start, d⟩ turns = .ok out ∧ out.state = s

/-- a state that a run from the start of the clock ends in, if a test of that state succeeds -/
theorem exists_reachable_of_run {c : Config R} (hc : c.Accepted) (turns : List (Turn Op)) (p : Timed (Damper R) → Bool)
    (h : (run ⟨.start, ⟨c, .empty⟩⟩ turns).toOption.any (fun out => p out.state) = true) :
    ∃ s, Reachable c s ∧ p s = true := by
  cases hrun : run ⟨.start, ⟨c, .empty⟩⟩ turns with
  | error fault =>
    rw [hrun] at h
    cases h
  | ok out =>
    rw [hrun] at h
    exact ⟨out.state, ⟨_, _, turns, out, create_eq_ok_iff.mpr ⟨hc, rfl⟩, hrun, rfl⟩, h⟩

/-- what holds of a new damper, and what time keeps and every operation keeps, holds of every reachable state -/
theorem reachable_invariant {c : Config R} {P : Timed (Damper R) → Prop} (new : ∀ start, P ⟨start, ⟨c, .empty⟩⟩)
    (wait : ∀ s d now, P s → s.now.advance d = .ok now → P { s with now })
    (perform : ∀ s op, P s → P { s with state := (perform op s.now s.state).state }) {s : Timed (Damper R)}
    (hs : Reachable c s) : P s := by
  obtain ⟨d, start, turns, out, hcreate, hrun, rfl⟩ := hs
  obtain ⟨-, rfl⟩ := create_eq_ok_iff.mp hcreate
  exact Timed.run_invariant wait perform (new start) turns hrun

theorem config_of_reachable {c : Config R} {s : Timed (Damper R)} (hs : Reachable c s) : s.state.config = c :=
  reachable_invariant (P := fun s => s.state.config = c) (fun _ => rfl) (fun _ _ _ h _ => h)
    (fun s op h => (config_perform op s.now s.state).trans h) hs

theorem accepted_of_reachable {c : Config R} {s : Timed (Damper R)} (hs : Reachable c s) : c.Accepted := by
  obtain ⟨d, -, -, -, hcreate, -, -⟩ := hs
  exact (create_eq_ok_iff.mp hcreate).1

end Damper

end RoutingReplay.Damping
