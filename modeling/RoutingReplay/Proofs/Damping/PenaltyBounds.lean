/-
The bounds on penalties.

Every stored penalty is a number between zero and the ceiling, and nothing but a flap raises one (`penalty_bounds`). The
bounds survive numbers that overflow: a ceiling may be infinite, so that a penalty may be, and the product of an infinite
penalty and a factor that has vanished is no number at all (`penalty_bounds_overflow`).
-/
import RoutingReplay.Proofs.Damping.ReuseRange

namespace RoutingReplay.Damping

open PenaltyArithmetic

namespace Damper

variable {R : Type} [PenaltyArithmetic R]

/-- the penalty in a history; without one there is none to speak of -/
def penaltyIn (h? : Option (History R)) : R := (h?.map History.penalty).getD (ofNat 0)

/-- the stored penalty of a route -/
def storedPenalty (d : Damper R) (net : Network) : R := penaltyIn (d.routes.find? net)

/-- the operations that add to the penalty of a route: withdrawals, and announcements with other attributes -/
def Op.raises (op : Op) (net : Network) : Bool :=
  match op with
  | .withdraw n => n = net
  | .announce n attributeChanged => n = net && attributeChanged
  | _ => false

/-- a history that is dropped leaves no penalty -/
theorem penaltyIn_filter_le {h? : Option (History R)} {p : R} (hzero : ofNat 0 ≤ p) (hle : penaltyIn h? ≤ p)
    (keep : History R → Bool) : penaltyIn (h?.filter keep) ≤ p := by
  cases hkept : h?.filter keep with
  | none => exact hzero
  | some h =>
    rw [(Option.filter_eq_some_iff.mp hkept).1] at hle
    exact hle

variable [PenaltyOrder R] [PenaltySigns R] {c : Config R} {net : Network}

/-- an access that adds nothing lowers a penalty or leaves it as it is -/
theorem penalty_access_le (hc : c.Accepted) {op : Op} {now : Instant} {h : History R} (hnonneg : ofNat 0 ≤ h.penalty)
    (hraise : op.raise c (h.decayed c now) = h.decayed c now) : (op.access c now h).penalty ≤ h.penalty := by
  have hpenalty : (op.access c now h).penalty = decay h.penalty (now.since h.lastUpdate) c.halfLife := by
    rw [Op.access, History.penalty_settle, hraise]
    rfl
  rw [hpenalty]
  exact decay_le _ hc.halfLife_ne hnonneg

theorem penaltyIn_map_access_le (hc : c.Accepted) {op : Op} {now : Instant} (hraise : ∀ h : History R, op.raise c h = h)
    {h? : Option (History R)} (hstored : ∀ h ∈ h?, ofNat 0 ≤ h.penalty) :
    penaltyIn (h?.map (op.access c now)) ≤ penaltyIn h? := by
  cases h? with
  | none => exact PenaltyOrder.zero_le_zero
  | some h => exact penalty_access_le hc (hstored h rfl) (hraise _)

/-- An operation that does not raise the penalty of a route lowers it or leaves it as it is. -/
theorem penaltyIn_effect_le (hc : c.Accepted) {op : Op} (hop : op.raises net = false) (now : Instant)
    {h? : Option (History R)} (hstored : ∀ h ∈ h?, ofNat 0 ≤ h.penalty) :
    penaltyIn (op.effect c now net h?) ≤ penaltyIn h? := by
  have hnonneg : ofNat 0 ≤ penaltyIn h? := by
    cases h? with
    | none => exact PenaltyOrder.zero_le_zero
    | some h => exact hstored h rfl
  have hkept : penaltyIn h? ≤ penaltyIn h? := (PenaltyOrder.self_of_le hnonneg).2
  cases op with
  | withdraw n =>
    have hne : n ≠ net := by simpa [Op.raises] using hop
    rw [Op.effect, if_neg (Ne.symm hne)]
    exact hkept
  | announce n attributeChanged =>
    simp only [Op.effect]
    split_ifs with hn
    · obtain rfl : attributeChanged = false := by simpa [Op.raises, hn] using hop
      -- a new history starts without a penalty
      cases h? with
      | none => exact penalty_access_le (h := .fresh now) hc PenaltyOrder.zero_le_zero rfl
      | some h => exact penalty_access_le hc (hstored h rfl) rfl
    · exact hkept
  | clear n =>
    simp only [Op.effect]
    split_ifs
    · exact hnonneg
    · exact hkept
  | penalty n | isSuppressed n | reuseTime n | routeStats n =>
    simp only [Op.effect]
    split_ifs
    · exact penaltyIn_map_access_le hc (fun _ => rfl) hstored
    · exact hkept
  | totals | suppressedRoutes => exact penaltyIn_map_access_le hc (fun _ => rfl) hstored
  | purge => exact penaltyIn_filter_le hnonneg (penaltyIn_map_access_le hc (fun _ => rfl) hstored) _

/-! ## Main result -/

/-- what is known of penalties in a state -/
structure PenaltyBounds (c : Config R) (s : Timed (Damper R)) : Prop where
  thresholds : ofNat 0 < c.reuseThreshold ∧ c.reuseThreshold < c.suppressThreshold ∧ c.suppressThreshold ≤ c.ceiling
  /-- every stored penalty is a number, which NaN is not, and lies between zero and the ceiling -/
  stored : ∀ net h, s.state.routes.find? net = some h →
    h.penalty ≤ h.penalty ∧ ofNat 0 ≤ h.penalty ∧ h.penalty ≤ c.ceiling
  /-- an operation that is no flap with a penalty raises none -/
  lowered : ∀ op net, op.raises net = false →
    (perform op s.now s.state).state.storedPenalty net ≤ s.state.storedPenalty net

/-- **Penalties are numbers between zero and the ceiling, and only flaps raise them.** It holds in every reachable state,
for accepted parameters, in any arithmetic with the usual order and signs, whether or not the ceiling is finite. The
ceiling is at least the suppress threshold, which is above the reuse threshold, which is above zero. -/
theorem penalty_bounds {s : Timed (Damper R)} (hs : Reachable c s) : PenaltyBounds c s := by
  have hc := accepted_of_reachable hs
  have hconfig := config_of_reachable hs
  have := boundedDecay (R := R)
  have hcapped : ∀ net h, s.state.routes.find? net = some h → Capped c h := fun net h hstored =>
    capped_of_reachable hc.ceiling_isNumber hs hstored
  refine ⟨⟨hc.reuseThreshold_pos, ?_, ?_⟩, ?_, ?_⟩
  · exact PenaltyOrder.lt_of_not_le hc.suppress_self hc.reuse_self hc.thresholds
  · exact PenaltyOrder.le_of_not_lt hc.ceiling_isNumber hc.suppress_self hc.ceiling
  · intro net h hstored
    obtain ⟨hnonneg, hle⟩ := hcapped net h hstored
    exact ⟨(PenaltyOrder.self_of_le hle).1, hnonneg, hle⟩
  · intro op net hop
    rw [storedPenalty, storedPenalty, find?_perform, hconfig]
    exact penaltyIn_effect_le hc hop s.now fun h hstored => (hcapped net h hstored).nonneg

/-- Two withdrawals take a route to an infinite penalty, under an infinite ceiling. After more than half an hour, in
which the factor of the decay vanishes, the next question leaves it at zero. -/
theorem penalty_bounds_overflow :
    let net : Network := .v4 ⟨⟨0x0a000000⟩, 24⟩
    ∃ s : Timed (Damper Float), Reachable unbounded s ∧ PenaltyBounds unbounded s ∧
      isFinite (s.state.storedPenalty net) = false ∧
        (perform (.penalty net) s.now s.state).state.storedPenalty net ≤ ofNat 0 := by
  intro net
  obtain ⟨s, hs, hpenalties⟩ := exists_reachable_of_run (c := unbounded) (by decide +kernel)
    (List.replicate 2 (.perform (.withdraw net)) ++ [.wait (.ofSeconds 2000)])
    (fun s => !isFinite (s.state.storedPenalty net) &&
      decide ((perform (.penalty net) s.now s.state).state.storedPenalty net ≤ ofNat 0)) (by decide +kernel)
  rw [Bool.and_eq_true, Bool.not_eq_true', decide_eq_true_eq] at hpenalties
  exact ⟨s, hs, penalty_bounds hs, hpenalties.1, hpenalties.2⟩

end Damper

end RoutingReplay.Damping
