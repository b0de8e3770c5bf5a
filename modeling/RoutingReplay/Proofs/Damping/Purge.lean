/-
What is lost when stale histories are forgotten: nothing that anybody could hear.

A purge brings all routes up to date and releases those that are neither suppressed nor near it (`Stale`). Two answers
tell whether a route is held back, and both can be read off the damper with all routes up to date: whether the route is
suppressed (`answer_isSuppressed_iff`), and whether it would be held back if it were announced again
(`answer_announce_iff`). A stale route gives neither of these answers, and a route without a history gives neither. So
it makes no difference to them whether there was a purge (`exists_current_purge_iff`).

Half the reuse threshold is not above the threshold: this is all that `PenaltyHalves` asks of the arithmetic. It has to
be asked, as quotients are rounded.
-/
import RoutingReplay.Proofs.Binary64.Functions
import RoutingReplay.Proofs.Damping.Coherence

namespace RoutingReplay

namespace Damping

open PenaltyArithmetic

/-- half of a positive number is at most that number -/
class PenaltyHalves (R : Type) [PenaltyArithmetic R] : Prop where
  half_le : ∀ {a : R}, isFinite a = true → ofNat 0 < a → a / ofNat 2 ≤ a

end Damping

namespace Binary64

/-- the exact half rounds to a number that is no larger -/
instance : Damping.PenaltyHalves Float where
  half_le := by
    intro a hfinite hpos
    obtain ⟨v, hv⟩ := exists_magnitude hfinite (Damping.PenaltyOrder.lt_iff.mp hpos).1
    have hhalf : v / 2 ≤ v := half_le_self hv.nonneg
    obtain ⟨w, hw, hrounded⟩ := (hv.div magnitude_two two_pos).exists_le hv hhalf
    exact (hrounded.le_iff hv).mpr hw

end Binary64

namespace Damping

open PenaltyArithmetic

variable {R : Type} [PenaltyArithmetic R] {c : Config R}

/-! ## Stale histories -/

/-- the route is not suppressed, and its penalty is below half the reuse threshold -/
def History.Stale (h : History R) (c : Config R) : Prop :=
  h.suppressed = false ∧ h.penalty < c.reuseThreshold / ofNat 2

theorem History.penalty_refresh (h : History R) (c : Config R) (now : Instant) :
    (h.refresh c now).state.penalty = decay h.penalty (now.since h.lastUpdate) c.halfLife :=
  penalty_settle _ _ _

section

variable [PenaltyOrder R] [PenaltyHalves R]

theorem Config.Accepted.half_le_reuse (hc : c.Accepted) : c.reuseThreshold / ofNat 2 ≤ c.reuseThreshold :=
  PenaltyHalves.half_le hc.reuseThreshold_finite hc.reuseThreshold_pos

namespace History

variable {h : History R}

/-- a history is worth keeping or stale, if its penalty is a number -/
theorem isLive_eq_false_iff (hc : c.Accepted) (hnumber : h.penalty ≤ h.penalty) : h.isLive c = false ↔ h.Stale c := by
  have hhalf : c.reuseThreshold / ofNat 2 ≤ c.reuseThreshold / ofNat 2 := (PenaltyOrder.self_of_le hc.half_le_reuse).1
  simp only [isLive, Damper.isLive, Stale, Bool.or_eq_false_iff, decide_eq_false_iff_not]
  rw [PenaltyOrder.not_le_iff hhalf hnumber]

/-- a stale route is not held back -/
theorem Stale.not_held (hstale : h.Stale c) (hc : c.Accepted) : ¬ c.reuseThreshold ≤ h.penalty :=
  (PenaltyOrder.lt_iff.mp (PenaltyOrder.lt_of_lt_of_le hstale.2 hc.half_le_reuse)).2

end History

end

namespace Damper

variable {d : Damper R} {now : Instant} {net : Network}

/-! ## The routes that a purge releases -/

/-- the routes that are not worth keeping once they are up to date -/
def released (d : Damper R) (now : Instant) : List Network :=
  ((d.current now).routes.filter fun _ h => !h.isLive d.config).keys

/-- a purge answers how many routes it has released -/
theorem answer_purge (d : Damper R) (now : Instant) : (d.purge now).answer = (d.released now).length := by
  have hanswer : (d.purge now).answer =
      (d.current now).routes.size - ((d.current now).routes.filter fun _ h => h.isLive d.config).size := by
    simp only [purge]
    split_ifs <;> rfl
  have hsplit := (d.current now).routes.size_filter_add_size_filter_not fun _ h => h.isLive d.config
  rw [hanswer, released, SortedMap.length_keys]
  omega

/-- A purge releases these routes and brings the others up to date. -/
theorem find?_purge_eq (d : Damper R) (now : Instant) (net : Network) : (d.purge now).state.routes.find? net =
    if net ∈ d.released now then none else (d.current now).routes.find? net := by
  rw [find?_purge, ← find?_current]
  simp only [released, SortedMap.mem_keys_iff, SortedMap.find?_filter]
  cases (d.current now).routes.find? net with
  | none => rfl
  | some h => cases hlive : h.isLive d.config <;> simp [Option.filter, hlive]

/-- what a purge leaves is up to date -/
theorem find?_current_purge [PenaltyOrder R] [IdleDecay R] (hc : d.config.Accepted) (now : Instant) (net : Network) :
    ((d.purge now).state.current now).routes.find? net =
      if net ∈ d.released now then none else (d.current now).routes.find? net := by
  have hconfig : (d.purge now).state.config = d.config := config_perform .purge now d
  rw [find?_current, hconfig, find?_purge_eq]
  split_ifs
  · rfl
  · rw [find?_current, Option.map_map]
    exact Option.map_congr fun h _ => h.upToDate_refresh hc now

section

variable [PenaltyOrder R]

/-- what is up to date has a penalty -/
theorem penalty_self_of_current {h : History R} (hstored : h ∈ (d.current now).routes.find? net) :
    h.penalty ≤ h.penalty := by
  rw [find?_current] at hstored
  obtain ⟨old, -, rfl⟩ := Option.mem_map.mp hstored
  rw [History.penalty_refresh]
  exact decay_self _ _ _

variable [PenaltyHalves R]

theorem mem_released_iff (hc : d.config.Accepted) :
    net ∈ d.released now ↔ ∃ h ∈ (d.current now).routes.find? net, h.Stale d.config := by
  rw [released, SortedMap.mem_keys_iff, SortedMap.find?_filter, Option.isSome_iff_exists]
  refine exists_congr fun h => ?_
  rw [Option.filter_eq_some_iff, Bool.not_eq_true']
  exact and_congr_right fun hstored => h.isLive_eq_false_iff hc (penalty_self_of_current hstored)

variable [IdleDecay R]

/-- a second purge finds nothing to release -/
theorem released_purge (hc : d.config.Accepted) (now : Instant) : (d.purge now).state.released now = [] := by
  have hconfig : (d.purge now).state.config = d.config := config_perform .purge now d
  refine List.eq_nil_iff_forall_not_mem.mpr fun net hmem => ?_
  rw [mem_released_iff (hconfig.symm ▸ hc), hconfig, find?_current_purge hc] at hmem
  split_ifs at hmem with hreleased
  · simp at hmem
  · exact hreleased ((mem_released_iff hc).mpr hmem)

/-! ## What can be heard of a purge -/

omit [PenaltyOrder R] [PenaltyHalves R] in
/-- a route that is announced again without a change is held back if its penalty is not below the reuse threshold -/
theorem answer_announce_iff (hc : d.config.Accepted) (now : Instant) (net : Network) :
    (d.announce now net false).answer = true ↔
      ∃ h ∈ (d.current now).routes.find? net, d.config.reuseThreshold ≤ h.penalty := by
  have hanswer : (d.announce now net false).answer =
      decide (d.config.reuseThreshold ≤ ((d.historyOf net now).decayed d.config now).penalty) := rfl
  rw [hanswer, decide_eq_true_eq, historyOf, find?_current]
  cases d.routes.find? net with
  | none =>
    -- a new history starts without a penalty, and stays so
    have hfresh : ((History.fresh now : History R).decayed d.config now).penalty = ofNat 0 :=
      congrArg History.penalty (decayed_eq_self rfl (IdleDecay.decay_idle hc.halfLife_ne (Or.inl rfl)))
    simp [hfresh, hc.reuse_pos]
  | some h => simp [History.penalty_refresh, History.decayed]

/-- **What does not hold of stale histories holds of a route whether or not there was a purge.** -/
theorem exists_current_purge_iff (hc : d.config.Accepted) {P : History R → Prop}
    (hP : ∀ h : History R, h.Stale d.config → ¬ P h) : (∃ h ∈ ((d.purge now).state.current now).routes.find? net, P h) ↔
      ∃ h ∈ (d.current now).routes.find? net, P h := by
  rw [find?_current_purge hc]
  split_ifs with hreleased
  · obtain ⟨stale, hstored, hstale⟩ := (mem_released_iff hc).mp hreleased
    have hnot : ¬ ∃ h ∈ (d.current now).routes.find? net, P h := by
      rintro ⟨h, hh, hholds⟩
      obtain rfl : stale = h := Option.mem_unique hstored hh
      exact hP stale hstale hholds
    exact iff_of_false (by rintro ⟨h, hh, -⟩; cases hh) hnot
  · rfl

/-! ## Main result -/

/-- what a purge does -/
structure PurgeSafe (c : Config R) (s : Timed (Damper R)) : Prop where
  /-- it releases the routes that are stale once they are up to date, answers their number, and brings the others up to
  date -/
  released : ∃ nets : List Network, nets.Pairwise (· < ·) ∧
    (∀ net, net ∈ nets ↔ ∃ h, s.state.routes.find? net = some h ∧ (h.refresh c s.now).state.Stale c) ∧
      (s.state.purge s.now).answer = nets.length ∧
        ∀ net, (s.state.purge s.now).state.routes.find? net =
          if net ∈ nets then none else (s.state.routes.find? net).map fun h => (h.refresh c s.now).state
  /-- that is, their penalties decay, and no more -/
  decayed : ∀ net h g, s.state.routes.find? net = some h → (s.state.purge s.now).state.routes.find? net = some g →
    g.penalty = decay h.penalty (s.now.since h.lastUpdate) c.halfLife ∧ g.flaps = h.flaps ∧ g.withdrawals = h.withdrawals
  /-- no suppressed route is released -/
  suppressed_kept : ∀ net, (s.state.isSuppressed s.now net).answer = true →
    (s.state.purge s.now).state.routes.contains net = true
  /-- neither of the answers that hold a route back tells that there was a purge -/
  suppression_unnoticed : ∀ net,
    ((next .purge s).state.isSuppressed s.now net).answer = (s.state.isSuppressed s.now net).answer
  announcement_unnoticed : ∀ net,
    ((next .purge s).state.announce s.now net false).answer = (s.state.announce s.now net false).answer
  /-- and another purge at once releases nothing -/
  again : ((next .purge s).state.purge s.now).answer = 0

/-- **A purge is safe.** -/
theorem purge_safe {s : Timed (Damper R)} (hs : Reachable c s) : PurgeSafe c s := by
  have hconfig := config_of_reachable hs
  have hc : s.state.config.Accepted := hconfig.symm ▸ accepted_of_reachable hs
  have hpurged : (next .purge s).state = (s.state.purge s.now).state := rfl
  have hpurgedConfig : (s.state.purge s.now).state.config = s.state.config := config_perform .purge s.now s.state
  have hsafe : (s.state.purge s.now).state.config.Accepted := hpurgedConfig.symm ▸ hc
  have hunnoticed : ∀ net,
      ((next .purge s).state.isSuppressed s.now net).answer = (s.state.isSuppressed s.now net).answer := by
    intro net
    rw [hpurged, Bool.eq_iff_iff, answer_isSuppressed_iff, answer_isSuppressed_iff]
    exact exists_current_purge_iff hc fun h hstale => by simp [hstale.1]
  constructor
  case released =>
    refine ⟨s.state.released s.now, SortedMap.pairwise_keys _, fun net => ?_, answer_purge _ _, fun net => ?_⟩
    · rw [mem_released_iff hc, find?_current, hconfig]
      simp
    · rw [find?_purge_eq, find?_current, hconfig]
  case decayed =>
    intro net h g hstored hkept
    rw [find?_purge_eq, find?_current, hstored, hconfig] at hkept
    split_ifs at hkept
    obtain rfl := Option.some.inj hkept
    exact ⟨h.penalty_refresh c s.now, History.flaps_settle _ _ _, History.withdrawals_settle _ _ _⟩
  case suppressed_kept =>
    intro net hsuppressed
    -- it is still suppressed after the purge
    obtain ⟨h, hstored, -⟩ := (answer_isSuppressed_iff _ _ _).mp ((hunnoticed net).trans hsuppressed)
    rw [find?_current] at hstored
    obtain ⟨kept, hkept, -⟩ := Option.mem_map.mp hstored
    exact Option.isSome_of_mem hkept
  case suppression_unnoticed => exact hunnoticed
  case announcement_unnoticed =>
    intro net
    rw [hpurged, Bool.eq_iff_iff, answer_announce_iff hsafe, answer_announce_iff hc, hpurgedConfig]
    exact exists_current_purge_iff hc fun h hstale => hstale.not_held hc
  case again => rw [hpurged, answer_purge, released_purge hc, List.length_nil]

end

/-- One withdrawal of a route, and four of another. Two half-lives later a purge releases the former and keeps the
latter, which is still suppressed. -/
theorem purge_safe_two_routes :
    let stable : Network := .v4 ⟨⟨0x0a000100⟩, 24⟩
    let flapping : Network := .v4 ⟨⟨0x0a000200⟩, 24⟩
    ∃ s : Timed (Damper Float), Reachable .default s ∧ (s.state.purge s.now).answer = 1 ∧
      s.state.routes.contains stable = true ∧ (s.state.purge s.now).state.routes.contains stable = false ∧
        (s.state.isSuppressed s.now flapping).answer = true ∧ PurgeSafe .default s := by
  intro stable flapping
  obtain ⟨s, hs, hpurge⟩ := exists_reachable_of_run (c := (.default : Config Float)) (by decide +kernel)
    (.perform (.withdraw stable) :: List.replicate 4 (.perform (.withdraw flapping)) ++ [.wait (.ofSeconds 1800)])
    (fun s => decide ((s.state.purge s.now).answer = 1) && s.state.routes.contains stable &&
      !(s.state.purge s.now).state.routes.contains stable && (s.state.isSuppressed s.now flapping).answer)
    (by decide +kernel)
  simp only [Bool.and_eq_true, Bool.not_eq_true', decide_eq_true_eq] at hpurge
  obtain ⟨⟨⟨hone, hbefore⟩, hafter⟩, hsuppressed⟩ := hpurge
  exact ⟨s, hs, hone, hbefore, hafter, hsuppressed, purge_safe hs⟩

end Damper

end Damping

end RoutingReplay
