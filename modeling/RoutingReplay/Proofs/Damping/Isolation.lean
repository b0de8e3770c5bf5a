/-
Routes do not get into each other's way.

What the engine keeps and says about a route depends on what it is told and asked about that route, on the operations on
all routes, and on the time. So everything that is said to it about other routes can be left out of a run, and the
account of the route stays the same (`routes_isolated`). Networks that differ in their host bits only are different
routes. Nothing is assumed of the arithmetic.

That an operation leaves other routes alone is read off `Op.effect`; that its answer depends on one route alone needs an
equation for each answer (`answer_query`, `mem_answer_suppressedRoutes`), put together in `tells_perform_congr`.
-/
import RoutingReplay.Proofs.Damping.RouteView
import RoutingReplay.Proofs.Projection

namespace RoutingReplay.Damping.Damper

variable {R : Type}

/-! ## Operations and answers about a route -/

/-- the route that an operation is about, unless it is about all of them -/
def Op.route? : Op → Option Network
  | .withdraw n | .announce n _ | .clear n | .penalty n | .isSuppressed n | .reuseTime n | .routeStats n => some n
  | .purge | .totals | .suppressedRoutes => none

/-- whether an operation is about a route or about all of them -/
def Op.concerns (op : Op) (net : Network) : Bool := op.route?.all (· = net)

/-- what an answer says about a route: all of it if the operation is about that route, and of the list of suppressed
routes whether the route is in it; the number of histories that are forgotten and the totals are not about any route -/
def Op.tells (net : Network) (op : Op) (answer : Answer R) : Option (Answer R) :=
  match op.route?, answer with
  | some n, _ => if n = net then some answer else none
  | none, .routes nets => some (.flag (decide (net ∈ nets)))
  | none, _ => none

theorem Op.concerns_iff {op : Op} {n net : Network} (h : op.route? = some n) : op.concerns net = true ↔ n = net := by
  simp [Op.concerns, h]

theorem Op.concerns_eq_false_iff {op : Op} {n net : Network} (h : op.route? = some n) :
    op.concerns net = false ↔ n ≠ net := by
  simp [Op.concerns, h]

/-- an answer to a question about another route says nothing about a route -/
theorem Op.tells_of_not_concerns {op : Op} {net : Network} (hop : op.concerns net = false) (answer : Answer R) :
    op.tells net answer = none := by
  cases op with
  | withdraw n | announce n b | clear n | penalty n | isSuppressed n | reuseTime n | routeStats n =>
    have hne : n ≠ net := (Op.concerns_eq_false_iff rfl).mp hop
    exact if_neg hne
  | purge | totals | suppressedRoutes => cases hop

variable [PenaltyArithmetic R] {d d' : Damper R} {net : Network} {now : Instant}

/-- what the engine says and keeps about a route over a run: its last history, if it has one, at the last instant, and
the answers about it -/
def routeAccount (net : Network) (s : Timed (Damper R)) (turns : List (Turn Op)) :
    Except Fault (Account (Instant × Option (History R)) (Answer R)) :=
  Timed.account perform (fun s => (s.now, s.state.routes.find? net)) (Op.tells net) s turns

/-! ## What an answer depends on -/

theorem answer_query {α : Type} (d : Damper R) (now : Instant) (net : Network) (ask : History R → α) :
    (d.query now net ask).answer = (d.routes.find? net).map fun h => ask (h.refresh d.config now).state := by
  unfold query
  cases d.routes.find? net with
  | none => rfl
  | some h => rfl

/-- a route is named among the suppressed ones if it is suppressed once it is up to date -/
theorem mem_answer_suppressedRoutes (d : Damper R) (now : Instant) (net : Network) :
    net ∈ (d.suppressedRoutes now).answer ↔
      ((d.routes.find? net).any fun h => (h.refresh d.config now).state.suppressed) = true := by
  have hanswer : (d.suppressedRoutes now).answer =
      ((d.refreshAll now).state.routes.filter fun _ h => h.suppressed).keys := rfl
  rw [hanswer, SortedMap.mem_keys_iff, SortedMap.find?_filter, find?_refreshAll]
  cases d.routes.find? net with
  | none => simp
  | some h => simp [Option.filter]

/-- the same parameters and the same history of a route -/
def AgreeOn (net : Network) (d d' : Damper R) : Prop :=
  d.config = d'.config ∧ d.routes.find? net = d'.routes.find? net

/-- Engines that agree on a route give the same answers about it. -/
theorem tells_perform_congr {op : Op} (hop : op.concerns net = true) (now : Instant) (h : AgreeOn net d d') :
    op.tells net (perform op now d).answer = op.tells net (perform op now d').answer := by
  obtain ⟨hconfig, hroute⟩ := h
  have hhistory : d.historyOf net now = d'.historyOf net now := by
    rw [historyOf, historyOf, hroute]
  have hquery : ∀ {α : Type} (ask : History R → α), (d.query now net ask).answer = (d'.query now net ask).answer := by
    intro α ask
    rw [answer_query, answer_query, hconfig, hroute]
  cases op with
  | withdraw n =>
    obtain rfl : n = net := (Op.concerns_iff rfl).mp hop
    have hanswer : (d.withdraw now n).answer = (d'.withdraw now n).answer := by
      simp only [withdraw, onRoute, hconfig, hhistory]
      rfl
    exact congrArg (fun b => Op.tells n (.withdraw n) (.flag b)) hanswer
  | announce n attributeChanged =>
    obtain rfl : n = net := (Op.concerns_iff rfl).mp hop
    have hanswer : (d.announce now n attributeChanged).answer = (d'.announce now n attributeChanged).answer := by
      simp only [announce, onRoute, hconfig, hhistory]
      rfl
    exact congrArg (fun b => Op.tells n (.announce n attributeChanged) (.flag b)) hanswer
  | clear n => rfl
  | penalty n =>
    obtain rfl : n = net := (Op.concerns_iff rfl).mp hop
    exact congrArg (fun p => Op.tells n (.penalty n) (.penalty (p.getD (PenaltyArithmetic.ofNat 0))))
      (hquery History.penalty)
  | isSuppressed n =>
    obtain rfl : n = net := (Op.concerns_iff rfl).mp hop
    exact congrArg (fun b => Op.tells n (.isSuppressed n) (.flag (b.getD false))) (hquery History.suppressed)
  | reuseTime n =>
    obtain rfl : n = net := (Op.concerns_iff rfl).mp hop
    have hseconds : (d.reuseSeconds now n).answer = (d'.reuseSeconds now n).answer := by
      simp only [reuseSeconds, hconfig]
      exact congrArg Option.join (hquery _)
    simp only [perform, reuseTime, Outcome.map, hseconds]
  | routeStats n =>
    obtain rfl : n = net := (Op.concerns_iff rfl).mp hop
    exact congrArg (fun stats => Op.tells n (.routeStats n) (.routeStats stats)) (hquery _)
  | purge => rfl
  | totals => rfl
  | suppressedRoutes =>
    have hmem : net ∈ (d.suppressedRoutes now).answer ↔ net ∈ (d'.suppressedRoutes now).answer := by
      rw [mem_answer_suppressedRoutes, mem_answer_suppressedRoutes, hconfig, hroute]
    exact congrArg (fun b => some (Answer.flag b)) (decide_eq_decide.mpr hmem)

/-! ## What an operation does -/

/-- an operation that is about another route leaves a route alone -/
theorem effect_of_not_concerns {op : Op} (hop : op.concerns net = false) (c : Config R) (now : Instant)
    (h? : Option (History R)) : op.effect c now net h? = h? := by
  cases op with
  | withdraw n | announce n b | clear n | penalty n | isSuppressed n | reuseTime n | routeStats n =>
    have hne : n ≠ net := (Op.concerns_eq_false_iff rfl).mp hop
    exact if_neg (Ne.symm hne)
  | purge | totals | suppressedRoutes => cases hop

/-- Engines that agree on a route agree on it after the same operation. -/
theorem AgreeOn.perform (h : AgreeOn net d d') (op : Op) (now : Instant) :
    AgreeOn net (Damper.perform op now d).state (Damper.perform op now d').state := by
  obtain ⟨hconfig, hroute⟩ := h
  refine ⟨?_, ?_⟩
  · rw [config_perform, config_perform, hconfig]
  · rw [find?_perform, find?_perform, hconfig, hroute]

/-- They still agree if only one of them is told something about another route. -/
theorem AgreeOn.skip (h : AgreeOn net d d') {op : Op} (hop : op.concerns net = false) (now : Instant) :
    AgreeOn net (Damper.perform op now d).state d' := by
  obtain ⟨hconfig, hroute⟩ := h
  refine ⟨(config_perform op now d).trans hconfig, ?_⟩
  rw [find?_perform, effect_of_not_concerns hop]
  exact hroute

/-! ## Main result -/

/-- **Routes do not get into each other's way.** From whatever state a run of the engine starts and whatever its
parameters are, everything that the run says and asks about other routes can be left out: the route ends with the same
history, or without one, at the same instant, and all answers about it are the same, among them whether it is in the
lists of suppressed routes. -/
theorem routes_isolated (s : Timed (Damper R)) (turns : List (Turn Op)) (net : Network) :
    routeAccount net s turns = routeAccount net s (turns.filter (Turn.passes fun op => op.concerns net)) := by
  refine Timed.account_filter (P := fun s s' => s.now = s'.now ∧ AgreeOn net s.state s'.state) ?_ ?_ ?_ ?_
    ⟨rfl, rfl, rfl⟩ turns
  · rintro s s' ⟨hnow, -, hroute⟩
    exact ⟨hnow, Prod.ext hnow hroute⟩
  · rintro s s' now ⟨-, hagree⟩
    exact ⟨rfl, hagree⟩
  · rintro s s' op hop ⟨hnow, hagree⟩
    exact ⟨⟨hnow, hagree.skip hop s.now⟩, Op.tells_of_not_concerns hop _⟩
  · rintro s s' op hop ⟨hnow, hagree⟩
    rw [← hnow]
    exact ⟨⟨rfl, hagree.perform op s.now⟩, tells_perform_congr hop s.now hagree⟩

/-- A withdrawal of 10.0.0.1/24 is not about 10.0.0.0/24. -/
example : (Op.withdraw (.v4 ⟨.ofOctets 10 0 0 1, 24⟩)).concerns (.v4 ⟨.ofOctets 10 0 0 0, 24⟩) = false := by decide

end RoutingReplay.Damping.Damper
