/-
Queries, and what a flap makes of them.

A query brings a route up to date and compares its penalty with the thresholds. A flap brings the route up to date too,
but compares only after it has raised the penalty. So if the penalty of a suppressed route has dropped below the reuse
threshold and a flap lifts it back above, the suppression ends when somebody asked just before and goes on when nobody
did (`query_not_transparent`). `query_transparency` says exactly when a query makes a difference to the history of the
route and when it makes one to the later answers about its suppression.

Later answers depend on the history through its standing: the penalty, the last access and whether the route is
suppressed. Histories of the same standing keep it under every operation (`standing_effect_congr`), so the later answers
of two runs agree once the standings do (`suppressedAfter_congr`).
-/
import RoutingReplay.Proofs.Binary64.Exact
import RoutingReplay.Proofs.Damping.Hysteresis

namespace RoutingReplay.Damping

open PenaltyArithmetic

variable {R : Type} [PenaltyArithmetic R]

/-! ## Standings -/

/-- what decides about a route from now on: neither its counters nor since when it is suppressed -/
structure Standing (R : Type) where
  penalty : R
  lastUpdate : Instant
  suppressed : Bool

namespace History

def standing (h : History R) : Standing R := ⟨h.penalty, h.lastUpdate, h.suppressed⟩

omit [PenaltyArithmetic R] in
theorem standing_eq_iff {h h' : History R} :
    h.standing = h'.standing ↔ h.penalty = h'.penalty ∧ h.lastUpdate = h'.lastUpdate ∧ h.suppressed = h'.suppressed :=
  Standing.mk.injEq _ _ _ _ _ _ ▸ Iff.rfl

variable {h h' : History R} (c : Config R) (now : Instant)

theorem standing_decayed_congr (e : h.standing = h'.standing) :
    (h.decayed c now).standing = (h'.decayed c now).standing := by
  obtain ⟨hp, ht, hs⟩ := standing_eq_iff.mp e
  simp only [standing, decayed, hp, ht, hs]

theorem standing_settle_congr (e : h.standing = h'.standing) :
    (h.settle c now).state.standing = (h'.settle c now).state.standing := by
  obtain ⟨hp, ht, hs⟩ := standing_eq_iff.mp e
  simp only [standing, penalty_settle, lastUpdate_settle, suppressed_settle, hp, ht, hs]

theorem isLive_congr (e : h.standing = h'.standing) : h.isLive c = h'.isLive c := by
  obtain ⟨hp, ht, hs⟩ := standing_eq_iff.mp e
  simp only [isLive, Damper.isLive, hp, hs]

end History

namespace Damper

variable {c : Config R} {d : Damper R} {now : Instant} {net : Network} {h? h?' : Option (History R)}

theorem standing_raise_congr {h h' : History R} (op : Op) (c : Config R) (e : h.standing = h'.standing) :
    (op.raise c h).standing = (op.raise c h').standing := by
  obtain ⟨hp, ht, hs⟩ := History.standing_eq_iff.mp e
  unfold Op.raise
  split
  · simp only [History.standing, History.penalize, hp, ht, hs]
  · simp only [History.standing, History.penalize, hp, ht, hs]
  · exact e

theorem standing_access_congr {h h' : History R} (op : Op) (c : Config R) (now : Instant)
    (e : h.standing = h'.standing) :
    (op.access c now h).standing = (op.access c now h').standing :=
  History.standing_settle_congr c now (standing_raise_congr op c (History.standing_decayed_congr c now e))

/-- Histories of the same standing keep it under every operation. -/
theorem standing_effect_congr (op : Op) (e : h?.map History.standing = h?'.map History.standing) :
    (op.effect c now net h?).map History.standing = (op.effect c now net h?').map History.standing := by
  cases h? with
  | none =>
    cases h?' with
    | none => rfl
    | some h' => cases e
  | some h =>
    cases h?' with
    | none => cases e
    | some h' =>
      have hsame : h.standing = h'.standing := Option.some.inj e
      have haccess := standing_access_congr op c now hsame
      have hmapped := congrArg some haccess
      cases op with
      | withdraw n | announce n b | penalty n | isSuppressed n | reuseTime n | routeStats n =>
        simp only [Op.effect]
        split_ifs
        · exact hmapped
        · exact e
      | clear n =>
        simp only [Op.effect]
        split_ifs
        · rfl
        · exact e
      | totals | suppressedRoutes => exact hmapped
      | purge =>
        have hlive := History.isLive_congr c haccess
        simp only [Op.effect, Option.map_some, Option.filter_some, hlive]
        split_ifs
        · exact hmapped
        · rfl

/-! ## Later answers -/

/-- what the answer is when somebody asks whether a route is suppressed, after some more turns -/
def suppressedAfter (net : Network) (s : Timed (Damper R)) (turns : List (Turn Op)) : Except Fault Bool :=
  (run s turns).map fun out => (out.state.state.isSuppressed out.state.now net).answer

theorem answer_isSuppressed (d : Damper R) (now : Instant) (net : Network) :
    (d.isSuppressed now net).answer =
      ((d.routes.find? net).map fun h => (h.refresh d.config now).state.suppressed).getD false := by
  unfold isSuppressed query
  cases d.routes.find? net <;> rfl

theorem answer_reuseSeconds (d : Damper R) (now : Instant) (net : Network) :
    (d.reuseSeconds now net).answer = (d.routes.find? net).bind fun h =>
      if (h.refresh d.config now).state.suppressed then some ((h.refresh d.config now).state.reuseSeconds d.config)
      else none := by
  unfold reuseSeconds query
  cases d.routes.find? net <;> rfl

theorem answer_reuseTime (d : Damper R) (now : Instant) (net : Network) :
    (d.reuseTime now net).answer =
      match (d.reuseSeconds now net).answer with
      | none => .ok none
      | some s =>
        match nanoseconds? s with
        | some n => .ok (some ⟨n⟩)
        | none => .error .timeOutOfRange := by
  cases hseconds : (d.reuseSeconds now net).answer with
  | none => simp only [reuseTime, Outcome.map, hseconds]
  | some s => cases hnanos : nanoseconds? s <;> simp only [reuseTime, Outcome.map, hseconds, hnanos]

theorem suppressedAfter_nil {g : History R} (hconfig : d.config = c) (hstored : d.routes.find? net = some g) :
    suppressedAfter net ⟨now, d⟩ [] = .ok (g.refresh c now).state.suppressed := by
  change Except.ok (d.isSuppressed now net).answer = _
  rw [answer_isSuppressed, hstored, hconfig]
  rfl

/-- the same standing of a route in two dampers at the same time -/
def SameStanding (net : Network) (s s' : Timed (Damper R)) : Prop :=
  s.now = s'.now ∧ s.state.config = s'.state.config ∧
    (s.state.routes.find? net).map History.standing = (s'.state.routes.find? net).map History.standing

theorem answer_isSuppressed_congr {s s' : Timed (Damper R)} (hs : SameStanding net s s') :
    (s.state.isSuppressed s.now net).answer = (s'.state.isSuppressed s'.now net).answer := by
  obtain ⟨hnow, hconfig, hstanding⟩ := hs
  have hasked : ∀ h? : Option (History R), (h?.map fun h => (h.refresh s.state.config s.now).state.suppressed) =
      (((Op.isSuppressed net).effect s.state.config s.now net h?).map History.standing).map Standing.suppressed := by
    intro h?
    simp only [Op.effect, if_true, Option.map_map]
    rfl
  rw [answer_isSuppressed, answer_isSuppressed, ← hnow, ← hconfig, hasked, hasked,
    standing_effect_congr (.isSuppressed net) hstanding]

/-- Routes of the same standing get the same answers, whatever happens. -/
theorem suppressedAfter_congr {s s' : Timed (Damper R)} (hs : SameStanding net s s') (turns : List (Turn Op)) :
    suppressedAfter net s turns = suppressedAfter net s' turns := by
  have hrelated := Timed.run_related perform (P := SameStanding net) (fun s s' h => h.1)
    (fun s s' now h => ⟨rfl, h.2⟩)
    (fun s s' op h => by
      obtain ⟨hnow, hconfig, hstanding⟩ := h
      refine ⟨hnow, by rw [config_perform, config_perform, hconfig], ?_⟩
      rw [find?_perform, find?_perform, hnow, hconfig]
      exact standing_effect_congr op hstanding)
    hs turns
  unfold suppressedAfter run
  revert hrelated
  cases Timed.run perform s turns with
  | error fault =>
    cases Timed.run perform s' turns with
    | error fault' => exact congrArg Except.error
    | ok out' => exact False.elim
  | ok out =>
    cases Timed.run perform s' turns with
    | error fault' => exact False.elim
    | ok out' => exact fun h => congrArg Except.ok (answer_isSuppressed_congr h)

/-! ## A query just before a flap -/

/-- the damper after one more operation -/
def next (op : Op) (s : Timed (Damper R)) : Timed (Damper R) := { s with state := (perform op s.now s.state).state }

theorem config_next (op : Op) (s : Timed (Damper R)) : (next op s).state.config = s.state.config :=
  config_perform op s.now s.state

/-- the operations that only ask -/
def Op.isQuery : Op → Bool
  | .penalty _ | .isSuppressed _ | .reuseTime _ | .routeStats _ | .totals | .suppressedRoutes => true
  | .withdraw _ | .announce _ _ | .clear _ | .purge => false

/-- the operations that report a change of a route -/
def Op.isFlapOf (op : Op) (net : Network) : Bool :=
  match op with
  | .withdraw n | .announce n _ => n = net
  | _ => false

/-- the penalty that a flap takes a route to -/
def Op.raised (flap : Op) (c : Config R) (now : Instant) (h : History R) : R := (flap.raise c (h.decayed c now)).penalty

/-- the route has crossed a threshold since its last access -/
def Crossed (c : Config R) (now : Instant) (h : History R) : Prop :=
  if h.suppressed then (h.decayed c now).penalty < c.reuseThreshold
  else c.suppressThreshold ≤ (h.decayed c now).penalty

instance (c : Config R) (now : Instant) (h : History R) : Decidable (Crossed c now h) :=
  inferInstanceAs (Decidable (if h.suppressed then (h.decayed c now).penalty < c.reuseThreshold
    else c.suppressThreshold ≤ (h.decayed c now).penalty))

/-- the route has crossed a threshold since its last access, and a flap takes it back between the two -/
def Missed (flap : Op) (c : Config R) (now : Instant) (h : History R) : Prop :=
  Crossed c now h ∧ c.reuseThreshold ≤ flap.raised c now h ∧ flap.raised c now h < c.suppressThreshold

instance (flap : Op) (c : Config R) (now : Instant) (h : History R) : Decidable (Missed flap c now h) :=
  inferInstanceAs (Decidable (_ ∧ _ ∧ _))

/-- the route has dropped below the reuse threshold since its last access, and a flap takes it straight to the suppress
threshold, so that one suppression ends and another begins -/
def Merged (flap : Op) (c : Config R) (now : Instant) (h : History R) : Prop :=
  Crossed c now h ∧ c.suppressThreshold ≤ flap.raised c now h ∧ h.suppressed = true ∧ h.suppressedSince ≠ some now

theorem effect_query {query : Op} (hquery : query.isQuery = true) (c : Config R) (now : Instant) (net : Network)
    (h? : Option (History R)) :
    query.effect c now net h? = if query.touches net then h?.map fun h => (h.refresh c now).state else h? := by
  cases query with
  | withdraw n | announce n b | clear n | purge => cases hquery
  | penalty n | isSuppressed n | reuseTime n | routeStats n =>
    by_cases hnet : net = n
    · simp only [Op.effect, Op.touches, hnet, decide_true, if_true]
      rfl
    · simp [Op.effect, Op.touches, hnet, Ne.symm hnet]
  | totals | suppressedRoutes => rfl

theorem effect_flap {flap : Op} (hflap : flap.isFlapOf net = true) (c : Config R) (now : Instant)
    (h? : Option (History R)) : flap.effect c now net h? = some (flap.access c now (h?.getD (.fresh now))) := by
  cases flap with
  | withdraw n | announce n b =>
    have hnet : n = net := by simpa [Op.isFlapOf] using hflap
    simp [Op.effect, hnet]
  | clear n | penalty n | isSuppressed n | reuseTime n | routeStats n | purge | totals | suppressedRoutes => cases hflap

/-- what a flap leaves of a route when a query comes first -/
theorem find?_flap_query (hconfig : d.config = c) (now : Instant) {query flap : Op} (hquery : query.isQuery = true)
    (hflap : flap.isFlapOf net = true) :
    (perform flap now (perform query now d).state).state.routes.find? net =
      some (flap.access c now
        (((if query.touches net then (d.routes.find? net).map fun h => (h.refresh c now).state
          else d.routes.find? net)).getD (.fresh now))) := by
  rw [find?_perform, config_perform, hconfig, effect_flap hflap, find?_perform, hconfig, effect_query hquery]

theorem find?_flap (hconfig : d.config = c) (now : Instant) {flap : Op} (hflap : flap.isFlapOf net = true) :
    (perform flap now d).state.routes.find? net =
      some (flap.access c now ((d.routes.find? net).getD (.fresh now))) := by
  rw [find?_perform, hconfig, effect_flap hflap]

/-- a history that is up to date does not decay -/
theorem decayed_eq_self {g : History R} (hlast : g.lastUpdate = now)
    (hidle : decay g.penalty ⟨0⟩ c.halfLife = g.penalty) : g.decayed c now = g := by
  have hsince : now.since now = ⟨0⟩ := congrArg Duration.mk (Nat.sub_self _)
  subst hlast
  simp only [History.decayed, hsince, hidle]

theorem decayed_refresh [PenaltyOrder R] [IdleDecay R] (hc : c.Accepted) (now : Instant) (h : History R) :
    (h.refresh c now).state.decayed c now = (h.refresh c now).state := by
  refine decayed_eq_self (History.lastUpdate_settle _ _ _) ?_
  have hpenalty : (h.refresh c now).state.penalty = (h.decayed c now).penalty := History.penalty_settle _ _ _
  rw [hpenalty]
  exact decay_again hc.halfLife_ne _ _

/-- a comparison with the thresholds changes nothing that a flap raises -/
theorem raise_settle (op : Op) (c : Config R) (now : Instant) (g : History R) :
    op.raise c (g.settle c now).state =
      { op.raise c g with
        suppressed := (g.settle c now).state.suppressed
        suppressedSince := (g.settle c now).state.suppressedSince } := by
  have hsettled : (g.settle c now).state =
      { g with
        suppressed := (g.settle c now).state.suppressed
        suppressedSince := (g.settle c now).state.suppressedSince } := by
    unfold History.settle
    split_ifs <;> rfl
  rw [hsettled]
  unfold Op.raise
  split <;> rfl

/-! ### The difference that a query makes -/

theorem suppressed_access (flap : Op) (h : History R) :
    (flap.access c now h).suppressed =
      if h.suppressed then !decide (flap.raised c now h < c.reuseThreshold)
      else decide (c.suppressThreshold ≤ flap.raised c now h) := by
  rw [Op.access, History.suppressed_settle, Op.suppressed_raise]
  rfl

theorem suppressed_refresh (c : Config R) (now : Instant) (h : History R) :
    (h.refresh c now).state.suppressed = if Crossed c now h then !h.suppressed else h.suppressed := by
  rw [History.refresh, History.suppressed_settle]
  have hkept : (h.decayed c now).suppressed = h.suppressed := rfl
  cases hs : h.suppressed <;> simp [Crossed, hkept, hs]

theorem suppressedSince_access (flap : Op) (h : History R) :
    (flap.access c now h).suppressedSince =
      if h.suppressed then if flap.raised c now h < c.reuseThreshold then none else h.suppressedSince
      else if c.suppressThreshold ≤ flap.raised c now h then some now else h.suppressedSince := by
  rw [Op.access, History.suppressedSince_settle, Op.suppressed_raise, Op.suppressedSince_raise]
  rfl

theorem suppressedSince_refresh (c : Config R) (now : Instant) (h : History R) :
    (h.refresh c now).state.suppressedSince =
      if Crossed c now h then if h.suppressed then none else some now else h.suppressedSince := by
  rw [History.refresh, History.suppressedSince_settle]
  have hkept : (h.decayed c now).suppressed = h.suppressed ∧ (h.decayed c now).suppressedSince = h.suppressedSince :=
    ⟨rfl, rfl⟩
  cases hs : h.suppressed <;> simp [Crossed, hkept, hs]

theorem missed_iff [PenaltyOrder R] (hc : c.Accepted) (flap : Op) (h : History R) :
    Missed flap c now h ↔ Crossed c now h ∧ ¬ flap.raised c now h < c.reuseThreshold ∧
      ¬ c.suppressThreshold ≤ flap.raised c now h := by
  have hself := flap.penalty_raise_self hc now h
  rw [Missed, Op.raised, PenaltyOrder.not_lt_iff hself hc.reuse_self, PenaltyOrder.not_le_iff hc.suppress_self hself]

/-- what a query just before a flap changes, and what not -/
structure Transparency (c : Config R) (s : Timed (Damper R)) (query flap : Op) (net : Network) : Prop where
  /-- never the penalty and the counters -/
  counters : ∃ h h', (next flap (next query s)).state.routes.find? net = some h ∧
    (next flap s).state.routes.find? net = some h' ∧ h.penalty = h'.penalty ∧ h.lastUpdate = h'.lastUpdate ∧
      h.flaps = h'.flaps ∧ h.withdrawals = h'.withdrawals
  /-- the later answers about the suppression of the route, if the flap would miss a crossing -/
  answers : (∀ turns, suppressedAfter net (next flap (next query s)) turns = suppressedAfter net (next flap s) turns) ↔
    ∀ h, s.state.routes.find? net = some h → query.touches net = true → ¬ Missed flap c s.now h
  /-- the rest of the history, if the flap would miss a crossing or merge two suppressions -/
  history : (next flap (next query s)).state.routes.find? net = (next flap s).state.routes.find? net ↔
    ∀ h, s.state.routes.find? net = some h → query.touches net = true →
      ¬ Missed flap c s.now h ∧ ¬ Merged flap c s.now h

/-- nothing is different if the route is not touched, or has no history -/
theorem Transparency.of_untouched {s : Timed (Damper R)} {query flap : Op}
    (hequal : (next flap (next query s)).state.routes.find? net = (next flap s).state.routes.find? net)
    (hconfig : s.state.config = c) (hflap : flap.isFlapOf net = true)
    (hnone : ∀ h, s.state.routes.find? net = some h → query.touches net = true → False) :
    Transparency c s query flap net := by
  have hstored : (next flap s).state.routes.find? net = _ := find?_flap hconfig s.now hflap
  have hstanding : SameStanding net (next flap (next query s)) (next flap s) :=
    ⟨rfl, by simp only [config_next], congrArg _ hequal⟩
  refine ⟨⟨_, _, hequal.trans hstored, hstored, rfl, rfl, rfl, rfl⟩, ?_, ?_⟩
  · exact ⟨fun _ h hh htouches => (hnone h hh htouches).elim, fun _ turns => suppressedAfter_congr hstanding turns⟩
  · exact ⟨fun _ h hh htouches => (hnone h hh htouches).elim, fun _ => hequal⟩

section

variable [PenaltyOrder R] [IdleDecay R]

/-- a flap right after a query compares the same penalty, but with what the query has decided -/
theorem access_refresh (hc : c.Accepted) (flap : Op) (now : Instant) (h : History R) :
    flap.access c now (h.refresh c now).state =
      ({ flap.raise c (h.decayed c now) with
          suppressed := (h.refresh c now).state.suppressed
          suppressedSince := (h.refresh c now).state.suppressedSince }.settle c now).state := by
  rw [Op.access, decayed_refresh hc, History.refresh, raise_settle]

theorem suppressed_access_refresh (hc : c.Accepted) (flap : Op) (h : History R) :
    (flap.access c now (h.refresh c now).state).suppressed =
      if (h.refresh c now).state.suppressed then !decide (flap.raised c now h < c.reuseThreshold)
      else decide (c.suppressThreshold ≤ flap.raised c now h) := by
  rw [access_refresh hc, History.suppressed_settle]
  rfl

/-- A query changes whether a flap leaves the route suppressed exactly if the flap misses a crossing. -/
theorem suppressed_access_refresh_eq_iff (hc : c.Accepted) (flap : Op) (now : Instant) (h : History R) :
    (flap.access c now (h.refresh c now).state).suppressed = (flap.access c now h).suppressed ↔
      ¬ Missed flap c now h := by
  have hboth : c.suppressThreshold ≤ flap.raised c now h → ¬ flap.raised c now h < c.reuseThreshold := hc.not_both
  rw [suppressed_access_refresh hc, suppressed_access, suppressed_refresh, missed_iff hc]
  by_cases hcrossed : Crossed c now h
  · cases hs : h.suppressed <;> by_cases hle : c.suppressThreshold ≤ flap.raised c now h <;>
      by_cases hlt : flap.raised c now h < c.reuseThreshold <;> simp_all
  · simp [hcrossed]

theorem suppressedSince_access_refresh (hc : c.Accepted) (flap : Op) (h : History R) :
    (flap.access c now (h.refresh c now).state).suppressedSince =
      if (h.refresh c now).state.suppressed then
        if flap.raised c now h < c.reuseThreshold then none else (h.refresh c now).state.suppressedSince
      else if c.suppressThreshold ≤ flap.raised c now h then some now else (h.refresh c now).state.suppressedSince := by
  rw [access_refresh hc, History.suppressedSince_settle]
  rfl

/-- The penalty and the counters never depend on a query. -/
theorem counters_access_refresh (hc : c.Accepted) (flap : Op) (now : Instant) (h : History R) :
    (flap.access c now (h.refresh c now).state).penalty = (flap.access c now h).penalty ∧
      (flap.access c now (h.refresh c now).state).lastUpdate = (flap.access c now h).lastUpdate ∧
        (flap.access c now (h.refresh c now).state).flaps = (flap.access c now h).flaps ∧
          (flap.access c now (h.refresh c now).state).withdrawals = (flap.access c now h).withdrawals := by
  rw [access_refresh hc, Op.access]
  simp only [History.penalty_settle, History.lastUpdate_settle, History.flaps_settle, History.withdrawals_settle,
    and_self]

/-- A query changes the history that a flap leaves exactly if the flap misses a crossing or merges two suppressions. -/
theorem access_refresh_eq_iff (hc : c.Accepted) (flap : Op) {h : History R}
    (hsince : h.suppressedSince.isSome = h.suppressed) :
    flap.access c now (h.refresh c now).state = flap.access c now h ↔
      ¬ Missed flap c now h ∧ ¬ Merged flap c now h := by
  have hboth : c.suppressThreshold ≤ flap.raised c now h → ¬ flap.raised c now h < c.reuseThreshold := hc.not_both
  have hmissed := suppressed_access_refresh_eq_iff hc flap now h
  obtain ⟨hpenalty, hlast, hflaps, hwithdrawals⟩ := counters_access_refresh hc flap now h
  rw [History.ext_iff, ← hmissed]
  simp only [hpenalty, hlast, hflaps, hwithdrawals, true_and]
  refine and_congr_right fun hsame => ?_
  rw [hmissed, missed_iff hc] at hsame
  rw [suppressedSince_access_refresh hc, suppressedSince_access, suppressed_refresh, suppressedSince_refresh, Merged]
  by_cases hcrossed : Crossed c now h
  · cases hs : h.suppressed with
    | true =>
      -- the query ends the suppression, and the flap starts another or does not even reach the reuse threshold
      by_cases hle : c.suppressThreshold ≤ flap.raised c now h
      · simp [hcrossed, hle, hboth hle, eq_comm]
      · have hlt : flap.raised c now h < c.reuseThreshold := by
          by_contra hlt
          exact hsame ⟨hcrossed, hlt, hle⟩
        simp [hcrossed, hle, hlt]
    | false =>
      -- the query starts a suppression, which the flap would start itself or ends at once
      have hnone : h.suppressedSince = none := by simpa [hs] using hsince
      by_cases hlt : flap.raised c now h < c.reuseThreshold
      · have hle : ¬ c.suppressThreshold ≤ flap.raised c now h := fun hle => hboth hle hlt
        simp [hcrossed, hlt, hle, hnone]
      · have hle : c.suppressThreshold ≤ flap.raised c now h := by
          by_contra hle
          exact hsame ⟨hcrossed, hlt, hle⟩
        simp [hcrossed, hlt, hle]
  · simp [hcrossed]

/-- somebody who asks while the penalty is between the thresholds hears what was decided before -/
theorem suppressed_refresh_between (hc : c.Accepted) {g : History R} (hlast : g.lastUpdate = now)
    (hlow : c.reuseThreshold ≤ g.penalty) (hhigh : g.penalty < c.suppressThreshold) :
    (g.refresh c now).state.suppressed = g.suppressed := by
  have hidle : decay g.penalty ⟨0⟩ c.halfLife = g.penalty :=
    IdleDecay.decay_idle hc.halfLife_ne (Or.inr (PenaltyOrder.lt_of_lt_of_le hc.reuseThreshold_pos hlow))
  have hcrossed : ¬ Crossed c now g := by
    rw [Crossed, decayed_eq_self hlast hidle]
    split_ifs
    · exact PenaltyOrder.not_lt_of_le hlow
    · exact (PenaltyOrder.lt_iff.mp hhigh).2
  rw [suppressed_refresh, if_neg hcrossed]

/-- a missed crossing shows when somebody asks at once -/
theorem not_missed_of_answer (hc : c.Accepted) (flap : Op) {h : History R}
    (hsame : ((flap.access c now (h.refresh c now).state).refresh c now).state.suppressed =
      ((flap.access c now h).refresh c now).state.suppressed) : ¬ Missed flap c now h := by
  intro hmissed
  have hlow := hmissed.2.1
  have hhigh := hmissed.2.2
  obtain ⟨hpenalty, hlast, -, -⟩ := counters_access_refresh hc flap now h
  have hraised : (flap.access c now h).penalty = flap.raised c now h := History.penalty_settle _ _ _
  have hnow : (flap.access c now h).lastUpdate = now := flap.lastUpdate_access c now h
  rw [← hraised] at hlow hhigh
  rw [suppressed_refresh_between hc hnow hlow hhigh,
    suppressed_refresh_between hc (hlast.trans hnow) (hpenalty ▸ hlow) (hpenalty ▸ hhigh)] at hsame
  exact (suppressed_access_refresh_eq_iff hc flap _ h).mp hsame hmissed

theorem Transparency.of_touched (hc : c.Accepted) {s : Timed (Damper R)} {query flap : Op} {h : History R}
    (hconfig : s.state.config = c) (hquery : query.isQuery = true) (hflap : flap.isFlapOf net = true)
    (htouches : query.touches net = true) (hstored : s.state.routes.find? net = some h)
    (hsince : h.suppressedSince.isSome = h.suppressed) : Transparency c s query flap net := by
  have hasked : (next flap (next query s)).state.routes.find? net =
      some (flap.access c s.now (h.refresh c s.now).state) := by
    have hfind := find?_flap_query hconfig s.now hquery hflap
    rwa [if_pos htouches, hstored] at hfind
  have hunasked : (next flap s).state.routes.find? net = some (flap.access c s.now h) := by
    have hfind := find?_flap hconfig s.now hflap
    rwa [hstored] at hfind
  have hcounters := counters_access_refresh hc flap s.now h
  refine ⟨⟨_, _, hasked, hunasked, hcounters⟩, ?_, ?_⟩
  · simp only [hstored, Option.some.injEq, forall_eq', htouches, true_implies]
    constructor
    · intro hall
      have hnow := hall []
      rw [suppressedAfter_nil (c := c) (by simp only [config_next, hconfig]) hasked,
        suppressedAfter_nil (c := c) (by simp only [config_next, hconfig]) hunasked] at hnow
      exact not_missed_of_answer hc flap (Except.ok.inj hnow)
    · intro hnot turns
      have hsuppressed := (suppressed_access_refresh_eq_iff hc flap _ h).mpr hnot
      have hstanding : SameStanding net (next flap (next query s)) (next flap s) := by
        refine ⟨rfl, by simp only [config_next], ?_⟩
        rw [hasked, hunasked, Option.map_some, Option.map_some,
          History.standing_eq_iff.mpr ⟨hcounters.1, hcounters.2.1, hsuppressed⟩]
      exact suppressedAfter_congr hstanding turns
  · simp only [hstored, Option.some.injEq, forall_eq', htouches, true_implies, hasked, hunasked]
    exact access_refresh_eq_iff hc flap hsince

/-- **When a query just before a flap makes a difference.** It never changes the penalty and the counters. It changes
the later answers about the suppression of the route exactly if it touches the route and the flap would miss a crossing,
and the rest of the history exactly if the flap would miss a crossing or merge two suppressions. -/
theorem query_transparency {s : Timed (Damper R)} (hs : Reachable c s) {query flap : Op} (hquery : query.isQuery = true)
    (hflap : flap.isFlapOf net = true) : Transparency c s query flap net := by
  have hc := accepted_of_reachable hs
  have hconfig := config_of_reachable hs
  by_cases htouched : query.touches net = true ∧ ∃ h, s.state.routes.find? net = some h
  · obtain ⟨htouches, h, hstored⟩ := htouched
    exact .of_touched hc hconfig hquery hflap htouches hstored (isSome_suppressedSince_of_reachable hs hstored)
  · have hequal : (if query.touches net then (s.state.routes.find? net).map fun h => (h.refresh c s.now).state
        else s.state.routes.find? net) = s.state.routes.find? net := by
      split_ifs with htouches
      · cases hstored : s.state.routes.find? net with
        | none => rfl
        | some h => exact absurd ⟨htouches, h, hstored⟩ htouched
      · rfl
    refine .of_untouched ?_ hconfig hflap fun h hstored htouches => htouched ⟨htouches, h, hstored⟩
    have hasked := find?_flap_query hconfig s.now hquery hflap
    rw [hequal] at hasked
    exact hasked.trans (find?_flap hconfig s.now hflap).symm

end

/-- Four withdrawals suppress a route. Three half-lives later its penalty is below the reuse threshold, and a withdrawal
takes it back above without reaching the suppress threshold. -/
theorem query_transparency_withdrawal :
    let net : Network := .v4 ⟨⟨0x0a000000⟩, 24⟩
    ∃ s : Timed (Damper Float), Reachable .default s ∧
      (∃ h, s.state.routes.find? net = some h ∧ Missed (.withdraw net) .default s.now h) ∧
        Transparency .default s (.isSuppressed net) (.withdraw net) net := by
  intro net
  obtain ⟨s, hs, hmissed⟩ := exists_reachable_of_run (c := (.default : Config Float)) (by decide +kernel)
    (List.replicate 4 (.perform (.withdraw net)) ++ [.wait (.ofSeconds 2700)])
    (fun s => (s.state.routes.find? net).any fun h => decide (Missed (.withdraw net) .default s.now h))
    (by decide +kernel)
  obtain ⟨h, hstored, hdecided⟩ := (Option.any_eq_true _ _).mp hmissed
  exact ⟨s, hs, ⟨h, hstored, of_decide_eq_true hdecided⟩, query_transparency hs rfl (by decide)⟩

/-- In that state it makes a difference whether somebody asks before the withdrawal. -/
theorem query_not_transparent :
    let net : Network := .v4 ⟨⟨0x0a000000⟩, 24⟩
    ∃ s : Timed (Damper Float), Reachable .default s ∧
      suppressedAfter net (next (.withdraw net) (next (.isSuppressed net) s)) [] = .ok false ∧
        suppressedAfter net (next (.withdraw net) s) [] = .ok true := by
  intro net
  obtain ⟨s, hs, hanswers⟩ := exists_reachable_of_run (c := (.default : Config Float)) (by decide +kernel)
    (List.replicate 4 (.perform (.withdraw net)) ++ [.wait (.ofSeconds 2700)])
    (fun s => !((next (.withdraw net) (next (.isSuppressed net) s)).state.isSuppressed s.now net).answer &&
      ((next (.withdraw net) s).state.isSuppressed s.now net).answer)
    (by decide +kernel)
  obtain ⟨hasked, hunasked⟩ := (Bool.and_eq_true _ _).mp hanswers
  exact ⟨s, hs, congrArg Except.ok (Bool.not_eq_true' _ |>.mp hasked), congrArg Except.ok hunasked⟩

end Damper

end RoutingReplay.Damping
