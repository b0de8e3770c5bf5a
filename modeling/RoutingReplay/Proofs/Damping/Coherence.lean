/-
What queries say at one instant.

A query is not only a question: it brings one route or all of them up to date and leaves them so. But a history that is
up to date stays as it is when it is brought up to date again (`upToDate_refresh`). No time passes, so its penalty does
not decay, and the thresholds have just been compared with that penalty.

So at one instant all queries speak of the same damper, the one in which every route is up to date (`current`). A query
leaves that damper the same (`current_perform`), and its answer can be read off it (`answer_congr`). From this follow the
two halves of `queries_coherent`: queries get the same answers in any order and any number, and their answers agree.
-/
import RoutingReplay.Proofs.Damping.Isolation
import RoutingReplay.Proofs.Damping.Transparency

namespace RoutingReplay.Damping

open PenaltyArithmetic

variable {R : Type} [PenaltyArithmetic R]

/-! ## Histories that are up to date -/

namespace History

/-- bringing the history up to date changes nothing -/
def UpToDate (h : History R) (c : Config R) (now : Instant) : Prop := (h.refresh c now).state = h

variable [PenaltyOrder R] {c : Config R}

/-- a comparison with the thresholds leaves nothing for the same comparison to do -/
theorem settle_settle (hc : c.Accepted) (h : History R) (now : Instant) :
    ((h.settle c now).state.settle c now).state = (h.settle c now).state := by
  have hboth : c.suppressThreshold ≤ h.penalty → ¬ h.penalty < c.reuseThreshold := hc.not_both
  cases hs : h.suppressed with
  | true =>
    by_cases hlt : h.penalty < c.reuseThreshold
    · have hle : ¬ c.suppressThreshold ≤ h.penalty := fun hle => hboth hle hlt
      simp [settle, hs, hlt, hle, Outcome.silent]
    · simp [settle, hs, hlt, Outcome.silent]
  | false =>
    by_cases hle : c.suppressThreshold ≤ h.penalty
    · simp [settle, hs, hle, hboth hle, Outcome.silent]
    · simp [settle, hs, hle, Outcome.silent]

/-- A history that has been brought up to date is up to date. -/
theorem upToDate_refresh [IdleDecay R] (hc : c.Accepted) (h : History R) (now : Instant) :
    (h.refresh c now).state.UpToDate c now := by
  rw [UpToDate, refresh, Damper.decayed_refresh hc]
  exact settle_settle hc _ now

end History

namespace Damper

variable {c : Config R} {d d' : Damper R} {now : Instant} {net : Network}

omit [PenaltyArithmetic R] in
/-- two dampers are equal if they have the same parameters and the same look-ups -/
theorem eq_of_find? (hconfig : d.config = d'.config) (hfind : ∀ net, d.routes.find? net = d'.routes.find? net) :
    d = d' := by
  cases d
  cases d'
  simp only [mk.injEq]
  exact ⟨hconfig, SortedMap.ext_find? hfind⟩

/-! ## The damper with all routes up to date -/

/-- the damper after all its routes have been brought up to date -/
def current (d : Damper R) (now : Instant) : Damper R := (d.refreshAll now).state

theorem config_eq_of_current_eq (h : d.current now = d'.current now) : d.config = d'.config := by
  have hconfig : (d.current now).config = (d'.current now).config := congrArg Damper.config h
  exact hconfig

theorem find?_current (d : Damper R) (now : Instant) (net : Network) :
    (d.current now).routes.find? net = (d.routes.find? net).map fun h => (h.refresh d.config now).state :=
  find?_refreshAll d now net

/-- what is asked of a route is asked of it once it is up to date -/
theorem answer_query_current {α : Type} (d : Damper R) (now : Instant) (net : Network) (ask : History R → α) :
    (d.query now net ask).answer = ((d.current now).routes.find? net).map ask := by
  rw [answer_query, find?_current, Option.map_map]
  rfl

/-- **The answer of a query can be read off the damper with all routes up to date.** -/
theorem answer_congr {query : Op} (hquery : query.isQuery = true) (h : d.current now = d'.current now) :
    (perform query now d).answer = (perform query now d').answer := by
  have hconfig : d.config = d'.config := config_eq_of_current_eq h
  have hask : ∀ {α : Type} (net : Network) (ask : History R → α),
      (d.query now net ask).answer = (d'.query now net ask).answer := by
    intro α net ask
    rw [answer_query_current, answer_query_current, h]
  cases query with
  | withdraw n | announce n b | clear n | purge => cases hquery
  | penalty n => exact congrArg (fun p => Answer.penalty (p.getD (ofNat 0))) (hask n History.penalty)
  | isSuppressed n => exact congrArg (fun s => Answer.flag (s.getD false)) (hask n History.suppressed)
  | reuseTime n =>
    have hseconds : (d.reuseSeconds now n).answer = (d'.reuseSeconds now n).answer := by
      simp only [reuseSeconds, hconfig]
      exact congrArg Option.join (hask n _)
    have htime : (d.reuseTime now n).answer = (d'.reuseTime now n).answer := by
      rw [answer_reuseTime, answer_reuseTime, hseconds]
    exact congrArg Answer.reuseTime htime
  | routeStats n => exact congrArg Answer.routeStats (hask n _)
  | totals => exact congrArg (fun d : Damper R => Answer.totals {
      flaps := d.routes.values.foldr (fun h sum => h.flaps.toNat + sum) 0
      tracked := d.routes.size
      suppressed := d.routes.values.countP History.suppressed }) h
  | suppressedRoutes =>
    exact congrArg (fun d : Damper R => Answer.routes (d.routes.filter fun _ h => h.suppressed).keys) h

section

variable [PenaltyOrder R] [IdleDecay R]

/-- **A query leaves the damper with all routes up to date the same.** -/
theorem current_perform (hc : d.config.Accepted) {query : Op} (hquery : query.isQuery = true) (now : Instant) :
    (perform query now d).state.current now = d.current now := by
  refine eq_of_find? (config_perform query now d) fun net => ?_
  rw [find?_current, find?_current, config_perform, find?_perform, effect_query hquery]
  split_ifs
  · rw [Option.map_map]
    exact Option.map_congr fun h _ => h.upToDate_refresh hc now
  · rfl

/-! ## Sequences of queries -/

/-- the routes that a query accesses are up to date -/
def Asked (query : Op) (now : Instant) (d : Damper R) : Prop :=
  ∀ net, query.touches net = true → ∀ h ∈ d.routes.find? net, h.UpToDate d.config now

/-- a query leaves the routes that it accesses up to date -/
theorem asked_perform (hc : d.config.Accepted) {query : Op} (hquery : query.isQuery = true) (now : Instant) :
    Asked query now (perform query now d).state := by
  intro net htouches h hstored
  rw [find?_perform, effect_query hquery, if_pos htouches] at hstored
  obtain ⟨old, -, rfl⟩ := Option.mem_map.mp hstored
  rw [config_perform]
  exact old.upToDate_refresh hc now

/-- and they stay so when something else is asked -/
theorem Asked.perform (hc : d.config.Accepted) {query other : Op} (h : Asked query now d)
    (hother : other.isQuery = true) : Asked query now (Damper.perform other now d).state := by
  intro net htouches g hstored
  rw [find?_perform, effect_query hother] at hstored
  rw [config_perform]
  split_ifs at hstored
  · obtain ⟨old, -, rfl⟩ := Option.mem_map.mp hstored
    exact old.upToDate_refresh hc now
  · exact h net htouches g hstored

omit [PenaltyOrder R] [IdleDecay R] in
/-- to ask again changes nothing -/
theorem Asked.perform_eq {query : Op} (h : Asked query now d) (hquery : query.isQuery = true) :
    (Damper.perform query now d).state = d := by
  refine eq_of_find? (config_perform query now d) fun net => ?_
  rw [find?_perform, effect_query hquery]
  split_ifs with htouches
  · cases hstored : d.routes.find? net with
    | none => rfl
    | some g => exact congrArg some (h net htouches g hstored)
  · rfl

/-- Queries at one instant get the answers that each would get at once, and in the end all of them have been asked. The
run may have begun with other queries, of which only those in `past` are remembered. -/
theorem exists_run_queries {s : Timed (Damper R)} (hc : s.state.config.Accepted) (past : List Op) {queries : List Op}
    (hqueries : ∀ query ∈ queries, query.isQuery = true) {t : Timed (Damper R)} (hnow : t.now = s.now)
    (hsame : t.state.current s.now = s.state.current s.now) (hpast : ∀ query ∈ past, Asked query s.now t.state) :
    ∃ out, run t (queries.map .perform) = .ok out ∧ out.state.now = s.now ∧
      out.answer = queries.map (fun query => (perform query s.now s.state).answer) ∧
        ∀ query ∈ past ++ queries, Asked query s.now out.state.state := by
  have hconfig : t.state.config.Accepted := (config_eq_of_current_eq hsame).symm ▸ hc
  induction queries generalizing t past with
  | nil => exact ⟨_, rfl, hnow, rfl, (List.append_nil past).symm ▸ hpast⟩
  | cons query rest ih =>
    have hquery := hqueries query List.mem_cons_self
    have hrest : ∀ other ∈ rest, other.isQuery = true := fun other h => hqueries other (List.mem_cons_of_mem _ h)
    have hnext : (perform query s.now t.state).state.current s.now = s.state.current s.now :=
      (current_perform hconfig hquery s.now).trans hsame
    have hasked : ∀ other ∈ past ++ [query], Asked other s.now (perform query s.now t.state).state := by
      intro other hother
      rcases List.mem_append.mp hother with hold | hnew
      · exact (hpast other hold).perform hconfig hquery
      · rw [List.mem_singleton.mp hnew]
        exact asked_perform hconfig hquery s.now
    obtain ⟨out, hrun, hend, hanswers, hall⟩ := ih (past ++ [query]) hrest
      (t := { t with state := (perform query s.now t.state).state }) hnow hnext hasked
      ((config_perform query s.now t.state).symm ▸ hconfig)
    have hanswer : (perform query s.now t.state).answer = (perform query s.now s.state).answer :=
      answer_congr hquery hsame
    refine ⟨⟨out.state, (perform query s.now t.state).journal ++ out.journal,
      (perform query s.now t.state).answer :: out.answer⟩, ?_, hend, ?_, ?_⟩
    · simp only [run, List.map_cons, Timed.run, Timed.turn, hnow] at hrun ⊢
      rw [hrun]
      rfl
    · rw [hanswers, hanswer, List.map_cons]
    · simpa using hall

end

/-! ## Answers that agree -/

theorem answer_isSuppressed_iff (d : Damper R) (now : Instant) (net : Network) :
    (d.isSuppressed now net).answer = true ↔ ∃ h ∈ (d.current now).routes.find? net, h.suppressed = true := by
  have hanswer : (d.isSuppressed now net).answer = ((d.query now net History.suppressed).answer).getD false := rfl
  rw [hanswer, answer_query_current]
  cases (d.current now).routes.find? net <;> simp

/-- how a route is reported -/
theorem answer_routeStats (d : Damper R) (now : Instant) (net : Network) :
    (d.routeStats now net).answer = ((d.current now).routes.find? net).map fun h =>
      ⟨h.flaps, h.withdrawals, h.penalty, h.suppressed, h.suppressedSince.map now.since⟩ :=
  answer_query_current d now net _

/-- there is something to be said about the reuse time of suppressed routes only -/
theorem answer_reuseTime_eq_none_iff (d : Damper R) (now : Instant) (net : Network) :
    (d.reuseTime now net).answer = .ok none ↔ (d.isSuppressed now net).answer = false := by
  rw [← Bool.not_eq_true, answer_isSuppressed_iff]
  have hseconds : (d.reuseSeconds now net).answer = (((d.current now).routes.find? net).map fun h =>
      if h.suppressed then some (h.reuseSeconds d.config) else none).join :=
    congrArg Option.join (answer_query_current d now net _)
  rw [answer_reuseTime, hseconds]
  cases (d.current now).routes.find? net with
  | none => simp
  | some h =>
    cases hs : h.suppressed with
    | false => simp [hs]
    | true =>
      cases hn : nanoseconds? (h.reuseSeconds d.config) <;> simp [hs, hn]

/-- what the queries say about a state, at its instant -/
structure Coherent (s : Timed (Damper R)) : Prop where
  /-- wherever a query stands among others it gets the answer that it would get at once, and to ask it again changes
  nothing -/
  steady : ∀ queries : List Op, (∀ query ∈ queries, query.isQuery = true) →
    ∃ out, run s (queries.map .perform) = .ok out ∧
      out.answer = queries.map (fun query => (perform query s.now s.state).answer) ∧
        ∀ query ∈ queries, next query out.state = out.state
  /-- the suppressed routes are listed, each once and in their order -/
  listed_iff : ∀ net, net ∈ (s.state.suppressedRoutes s.now).answer ↔ (s.state.isSuppressed s.now net).answer = true
  ascending : (s.state.suppressedRoutes s.now).answer.Pairwise (· < ·) ∧ (s.state.suppressedRoutes s.now).answer.Nodup
  /-- they are reported as suppressed, and since when -/
  reported_iff : ∀ net, (∃ stats ∈ (s.state.routeStats s.now net).answer, stats.suppressed = true) ↔
    (s.state.isSuppressed s.now net).answer = true
  dated_iff : ∀ net, (∃ stats ∈ (s.state.routeStats s.now net).answer, stats.suppressedFor.isSome = true) ↔
    (s.state.isSuppressed s.now net).answer = true
  /-- a reuse time is named for them alone, unless it is too long to be named -/
  timed_iff : ∀ net t, (s.state.reuseTime s.now net).answer = .ok t →
    (t.isSome = true ↔ (s.state.isSuppressed s.now net).answer = true)
  suppressed_of_fault : ∀ net fault, (s.state.reuseTime s.now net).answer = .error fault →
    (s.state.isSuppressed s.now net).answer = true
  /-- what is tracked is reported, with its penalty; anything else has none -/
  tracked_iff : ∀ net, (s.state.routeStats s.now net).answer.isSome = s.state.routes.contains net
  penalty_eq : ∀ net, (s.state.penalty s.now net).answer =
    ((s.state.routeStats s.now net).answer.map RouteStats.penalty).getD (ofNat 0)
  /-- the totals count the suppressed routes, the routes with a report, and the flaps in these reports -/
  suppressed_eq : (s.state.totals s.now).answer.suppressed = (s.state.suppressedRoutes s.now).answer.length
  totals_eq : ∃ nets : List Network, nets.Pairwise (· < ·) ∧
    (∀ net, net ∈ nets ↔ (s.state.routeStats s.now net).answer.isSome = true) ∧
      (s.state.totals s.now).answer.tracked = nets.length ∧
        (s.state.totals s.now).answer.flaps =
          ((nets.filterMap fun net => (s.state.routeStats s.now net).answer).map fun stats => stats.flaps.toNat).sum

/-- the list of the suppressed routes is told apart by asking for each route -/
theorem mem_suppressedRoutes_iff (d : Damper R) (now : Instant) (net : Network) :
    net ∈ (d.suppressedRoutes now).answer ↔ (d.isSuppressed now net).answer = true := by
  rw [mem_answer_suppressedRoutes, answer_isSuppressed]
  cases d.routes.find? net <;> simp

theorem keys_current (d : Damper R) (now : Instant) : (d.current now).routes.keys = d.routes.keys :=
  SortedMap.keys_mapValues _ _

/-- the reports on the tracked routes are about the histories that are kept, in their order -/
theorem reports_of_keys (d : Damper R) (now : Instant) :
    (d.routes.keys.filterMap fun net => (d.routeStats now net).answer) =
      (d.current now).routes.values.map fun h =>
        ⟨h.flaps, h.withdrawals, h.penalty, h.suppressed, h.suppressedSince.map now.since⟩ := by
  simp only [answer_routeStats]
  rw [← List.map_filterMap, ← keys_current d now, SortedMap.filterMap_find?_keys]

/-- The totals count the reports and the flaps in them. -/
theorem totals_of_reports (d : Damper R) (now : Instant) :
    (d.totals now).answer.tracked = d.routes.keys.length ∧
      (d.totals now).answer.flaps =
        ((d.routes.keys.filterMap fun net => (d.routeStats now net).answer).map fun stats => stats.flaps.toNat).sum := by
  have htracked : (d.totals now).answer.tracked = (d.current now).routes.size := rfl
  have hflaps : (d.totals now).answer.flaps =
      (d.current now).routes.values.foldr (fun h sum => h.flaps.toNat + sum) 0 := rfl
  refine ⟨?_, ?_⟩
  · rw [htracked, ← SortedMap.length_keys, keys_current]
  · rw [hflaps, reports_of_keys, List.map_map, List.sum_eq_foldr, List.foldr_map]
    rfl

/-- as many routes are counted as suppressed as are listed -/
theorem totals_suppressed_eq (d : Damper R) (now : Instant) :
    (d.totals now).answer.suppressed = (d.suppressedRoutes now).answer.length := by
  have htotals : (d.totals now).answer.suppressed = (d.current now).routes.values.countP History.suppressed := rfl
  have hlisted : (d.suppressedRoutes now).answer = ((d.current now).routes.filter fun _ h => h.suppressed).keys := rfl
  rw [htotals, hlisted, SortedMap.length_keys, SortedMap.values, List.countP_map, SortedMap.size, SortedMap.filter,
    ← List.countP_eq_length_filter]
  rfl

/-- a route that is up to date is suppressed if and only if it is known since when -/
theorem isSome_suppressedSince_current [PenaltyOrder R] {s : Timed (Damper R)} (hs : Reachable c s) {h : History R}
    (hstored : h ∈ (s.state.current s.now).routes.find? net) : h.suppressedSince.isSome = h.suppressed := by
  rw [find?_current] at hstored
  obtain ⟨old, hold, rfl⟩ := Option.mem_map.mp hstored
  have hsince := isSome_suppressedSince_of_reachable hs hold
  rw [suppressedSince_refresh, suppressed_refresh]
  split_ifs with hcrossed hsuppressed
  · simp [hsuppressed]
  · simp [hsuppressed]
  · exact hsince

/-- **Queries are coherent at one instant.** -/
theorem queries_coherent [PenaltyOrder R] [IdleDecay R] {s : Timed (Damper R)} (hs : Reachable c s) : Coherent s := by
  have hc : s.state.config.Accepted := (config_of_reachable hs).symm ▸ accepted_of_reachable hs
  have hascending : (s.state.suppressedRoutes s.now).answer.Pairwise (· < ·) := SortedMap.pairwise_keys _
  obtain ⟨htracked, hflaps⟩ := totals_of_reports s.state s.now
  constructor
  case steady =>
    intro queries hqueries
    obtain ⟨out, hrun, hnow, hanswers, hasked⟩ := exists_run_queries hc [] hqueries rfl rfl (by simp)
    refine ⟨out, hrun, hanswers, fun query hquery => ?_⟩
    have hsame := (hasked query hquery).perform_eq (hqueries query hquery)
    rw [next, hnow, hsame, ← hnow]
  case listed_iff => exact mem_suppressedRoutes_iff s.state s.now
  case ascending => exact ⟨hascending, hascending.imp KeyOrder.ne_of_lt⟩
  case reported_iff =>
    intro net
    rw [answer_routeStats, answer_isSuppressed_iff]
    cases (s.state.current s.now).routes.find? net <;> simp
  case dated_iff =>
    intro net
    rw [answer_routeStats, answer_isSuppressed_iff]
    cases hstored : (s.state.current s.now).routes.find? net with
    | none => simp
    | some h => simp [isSome_suppressedSince_current hs hstored]
  case timed_iff =>
    intro net t ht
    have hnone := answer_reuseTime_eq_none_iff s.state s.now net
    rw [ht] at hnone
    cases t <;> simp_all
  case suppressed_of_fault =>
    intro net fault hfault
    have hnone := answer_reuseTime_eq_none_iff s.state s.now net
    rw [hfault] at hnone
    simpa using hnone
  case tracked_iff =>
    intro net
    rw [answer_routeStats, find?_current, SortedMap.contains]
    simp
  case penalty_eq =>
    intro net
    have hanswer : (s.state.penalty s.now net).answer =
      ((s.state.query s.now net History.penalty).answer).getD (ofNat 0) := rfl
    rw [hanswer, answer_query_current, answer_routeStats]
    cases (s.state.current s.now).routes.find? net <;> rfl
  case suppressed_eq => exact totals_suppressed_eq s.state s.now
  case totals_eq =>
    refine ⟨s.state.routes.keys, SortedMap.pairwise_keys _, fun net => ?_, htracked, hflaps⟩
    rw [answer_routeStats, find?_current, SortedMap.mem_keys_iff]
    simp

/-- Three withdrawals suppress one route, a single one does not suppress another. After half a half-life the queries
about the two still agree. -/
theorem queries_coherent_two_routes :
    let net : Network := .v4 ⟨⟨0x0a000000⟩, 24⟩
    let other : Network := .v4 ⟨⟨0x0a000100⟩, 24⟩
    ∃ s : Timed (Damper Float), Reachable .default s ∧ (s.state.isSuppressed s.now net).answer = true ∧
      (s.state.isSuppressed s.now other).answer = false ∧ s.state.routes.contains other = true ∧ Coherent s := by
  intro net other
  obtain ⟨s, hs, hanswers⟩ := exists_reachable_of_run (c := (.default : Config Float)) (by decide +kernel)
    (List.replicate 3 (.perform (.withdraw net)) ++ [.perform (.withdraw other), .wait (.ofSeconds 450)])
    (fun s => (s.state.isSuppressed s.now net).answer && !(s.state.isSuppressed s.now other).answer &&
      s.state.routes.contains other) (by decide +kernel)
  simp only [Bool.and_eq_true, Bool.not_eq_true'] at hanswers
  exact ⟨s, hs, hanswers.1.1, hanswers.1.2, hanswers.2, queries_coherent hs⟩

end Damper

end RoutingReplay.Damping
