/-
Penalties stay between zero and the ceiling.

A flap caps the penalty at the ceiling, and time only lowers it. `BoundedDecay` is what the arithmetic has to grant for
that; the bound itself is an invariant of the engine for every arithmetic that does.
-/
import RoutingReplay.Proofs.Damping.RouteView

namespace RoutingReplay.Damping

open PenaltyArithmetic

/-- penalties do not grow while time passes, and they do not turn negative by adding to them -/
class BoundedDecay (R : Type) [PenaltyArithmetic R] : Prop where
  decay_le : ∀ {p : R} {halfLife : UInt32} (d : Duration), halfLife ≠ 0 → ofNat 0 ≤ p → decay p d halfLife ≤ p
  add_nonneg : ∀ {a b : R}, ofNat 0 ≤ a → ofNat 0 ≤ b → ofNat 0 ≤ a + b

variable {R : Type} [PenaltyArithmetic R]

/-- the smaller of two is at most the second, if that is a number -/
theorem smaller_le_right {a b : R} (hb : b ≤ b) : smaller a b ≤ b := by
  unfold smaller
  split_ifs with hab
  · exact hab
  · exact hb

/-- the smaller of two is not negative if neither of them is -/
theorem smaller_nonneg {a b : R} (ha : ofNat 0 ≤ a) (hb : ofNat 0 ≤ b) : ofNat 0 ≤ smaller a b := by
  unfold smaller
  split_ifs
  · exact ha
  · exact hb
  · exact ha

variable [PenaltyOrder R]

theorem decay_nonneg (p : R) (d : Duration) (halfLife : UInt32) : ofNat 0 ≤ decay p d halfLife := by
  rcases larger_zero_cases (p * exp2 (-seconds d / ofNat halfLife.toNat)) with hzero | hpos
  · rw [decay, hzero]
    exact PenaltyOrder.zero_le_zero
  · exact (PenaltyOrder.lt_iff.mp hpos).1

namespace Config.Accepted

variable {c : Config R}

theorem nonneg_of_mem (h : c.Accepted) {p : Parameter × R} (hp : p ∈ c.parameters) : ofNat 0 ≤ p.2 :=
  have hparameter := h.parameters p hp
  PenaltyOrder.le_of_not_lt (PenaltyOrder.self_of_isFinite hparameter.1) PenaltyOrder.zero_le_zero hparameter.2

theorem withdrawalPenalty_nonneg (h : c.Accepted) : ofNat 0 ≤ c.withdrawalPenalty :=
  h.nonneg_of_mem (p := (.withdrawalPenalty, c.withdrawalPenalty)) (by simp [Config.parameters])

theorem attributeChangePenalty_nonneg (h : c.Accepted) : ofNat 0 ≤ c.attributeChangePenalty :=
  h.nonneg_of_mem (p := (.attributeChangePenalty, c.attributeChangePenalty)) (by simp [Config.parameters])

/-- a ceiling that is a number is not negative -/
theorem ceiling_nonneg (h : c.Accepted) (hceiling : c.ceiling ≤ c.ceiling) : ofNat 0 ≤ c.ceiling := by
  have hsuppress : ofNat 0 ≤ c.suppressThreshold :=
    h.nonneg_of_mem (p := (.suppressThreshold, c.suppressThreshold)) (by simp [Config.parameters])
  exact PenaltyOrder.le_trans hsuppress (PenaltyOrder.le_of_not_lt hceiling h.suppress_self h.ceiling)

end Config.Accepted

/-! ## The bound -/

/-- a history whose penalty lies between zero and the ceiling -/
structure Capped (c : Config R) (h : History R) : Prop where
  nonneg : ofNat 0 ≤ h.penalty
  le_ceiling : h.penalty ≤ c.ceiling

namespace Capped

variable {c : Config R} {h : History R}

theorem fresh (hceiling : ofNat 0 ≤ c.ceiling) (now : Instant) : Capped c (.fresh now) :=
  ⟨PenaltyOrder.zero_le_zero, hceiling⟩

variable [BoundedDecay R]

theorem decayed (hc : c.Accepted) (hcapped : Capped c h) (now : Instant) : Capped c (h.decayed c now) where
  nonneg := decay_nonneg _ _ _
  le_ceiling := PenaltyOrder.le_trans (BoundedDecay.decay_le _ hc.halfLife_ne hcapped.nonneg) hcapped.le_ceiling

theorem penalize (hcapped : Capped c h) (hceiling : ofNat 0 ≤ c.ceiling) {p : R} (hp : ofNat 0 ≤ p) :
    Capped c (h.penalize c p) where
  nonneg := smaller_nonneg (BoundedDecay.add_nonneg hcapped.nonneg hp) hceiling
  le_ceiling := smaller_le_right (PenaltyOrder.self_of_le hceiling).2

/-- Every access keeps the penalty between zero and the ceiling. -/
theorem access (hc : c.Accepted) (hceiling : ofNat 0 ≤ c.ceiling) (hcapped : Capped c h) (op : Damper.Op)
    (now : Instant) : Capped c (op.access c now h) := by
  have hdecayed : Capped c (h.decayed c now) := hcapped.decayed hc now
  have hraised : Capped c (op.raise c (h.decayed c now)) := by
    unfold Damper.Op.raise
    split
    · have hpenalized := hdecayed.penalize hceiling hc.withdrawalPenalty_nonneg
      exact ⟨hpenalized.nonneg, hpenalized.le_ceiling⟩
    · have hpenalized := hdecayed.penalize hceiling hc.attributeChangePenalty_nonneg
      exact ⟨hpenalized.nonneg, hpenalized.le_ceiling⟩
    · exact hdecayed
  constructor
  · rw [Damper.Op.access, History.penalty_settle]
    exact hraised.nonneg
  · rw [Damper.Op.access, History.penalty_settle]
    exact hraised.le_ceiling

end Capped

/-- **Penalties stay between zero and the ceiling**, in every reachable state and for every route, if the ceiling is a
number. -/
theorem Damper.capped_of_reachable [BoundedDecay R] {c : Config R} (hceiling : c.ceiling ≤ c.ceiling)
    {s : Timed (Damper R)} (hs : Reachable c s) {net : Network} {h : History R}
    (hstored : s.state.routes.find? net = some h) : Capped c h := by
  have hc := accepted_of_reachable hs
  have hnonneg := hc.ceiling_nonneg hceiling
  have hall : s.state.config = c ∧ ∀ net, ∀ h ∈ s.state.routes.find? net, Capped c h := by
    refine reachable_invariant (P := fun s => s.state.config = c ∧ ∀ net, ∀ h ∈ s.state.routes.find? net, Capped c h)
      ?_ ?_ ?_ hs
    · intro start
      exact ⟨rfl, fun net h hmem => by cases hmem⟩
    · intro s d now hs hnow
      exact hs
    · intro s op hs
      obtain ⟨hconfig, hcapped⟩ := hs
      refine ⟨(config_perform op s.now s.state).trans hconfig, ?_⟩
      intro net h hmem
      rw [find?_perform, hconfig] at hmem
      rcases Op.mem_effect hmem with hold | ⟨h₀, hold | rfl, rfl⟩
      · exact hcapped net h hold
      · exact (hcapped net h₀ hold).access hc hnonneg op s.now
      · exact (Capped.fresh hnonneg s.now).access hc hnonneg op s.now
  exact hall.2 net h hstored

end RoutingReplay.Damping
