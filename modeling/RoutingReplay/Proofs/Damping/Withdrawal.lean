/-
What the answer to a withdrawal tells.

The engine answers a withdrawal by comparing the raised penalty with the suppress threshold alone. Whether the route is
suppressed afterwards is decided by both thresholds and by what was decided before: a suppressed route stays so until its
penalty has dropped below the reuse threshold. So the two differ for a route that has been suppressed and that the
withdrawal takes between the thresholds (`Lingers`), and for no other (`withdrawal_reported`).

The question is put right after the withdrawal, so it finds what the withdrawal has stored: no time passes, and the
thresholds have just been compared with that penalty (`suppressed_refresh_access`).
-/
import RoutingReplay.Proofs.Damping.Coherence
import RoutingReplay.Proofs.Damping.PenaltyBounds

namespace RoutingReplay.Damping.Damper

open PenaltyArithmetic

variable {R : Type} [PenaltyArithmetic R] {c : Config R} {now : Instant} {net : Network}

/-- a withdrawal takes the suppressed route between the thresholds -/
def Lingers (c : Config R) (now : Instant) (net : Network) (h : History R) : Prop :=
  h.suppressed = true ∧ c.reuseThreshold ≤ (Op.withdraw net).raised c now h ∧
    (Op.withdraw net).raised c now h < c.suppressThreshold

instance (c : Config R) (now : Instant) (net : Network) (h : History R) : Decidable (Lingers c now net h) :=
  inferInstanceAs (Decidable (_ ∧ _ ∧ _))

theorem answer_withdraw (d : Damper R) (now : Instant) (net : Network) :
    (d.withdraw now net).answer =
      decide (d.config.suppressThreshold ≤ (Op.withdraw net).raised d.config now (d.historyOf net now)) := rfl

section

variable [PenaltyOrder R]

/-- the answer to a withdrawal and what the withdrawal decides agree exactly if the route does not linger -/
theorem suppressed_access_withdraw_iff (hc : c.Accepted) (now : Instant) (net : Network) (h : History R) :
    decide (c.suppressThreshold ≤ (Op.withdraw net).raised c now h) = ((Op.withdraw net).access c now h).suppressed ↔
      ¬ Lingers c now net h := by
  have hnumber : (Op.withdraw net).raised c now h ≤ (Op.withdraw net).raised c now h :=
    (Op.withdraw net).penalty_raise_self hc now h
  rw [suppressed_access, Lingers]
  cases hsuppressed : h.suppressed with
  | false => simp
  | true =>
    by_cases hhigh : c.suppressThreshold ≤ (Op.withdraw net).raised c now h
    · have hlow : ¬ (Op.withdraw net).raised c now h < c.reuseThreshold := hc.not_both hhigh
      simp [hhigh, hlow, PenaltyOrder.not_lt_of_le hhigh]
    · have hbelow := (PenaltyOrder.not_le_iff hc.suppress_self hnumber).mp hhigh
      simp [hhigh, hbelow, ← PenaltyOrder.not_lt_iff hnumber hc.reuse_self]

/-- a withdrawal that takes a route to the suppress threshold leaves it suppressed -/
theorem suppressed_access_of_reached (hc : c.Accepted) (flap : Op) {h : History R}
    (hreached : c.suppressThreshold ≤ flap.raised c now h) : (flap.access c now h).suppressed = true := by
  rw [suppressed_access]
  split_ifs <;> simp [hreached, hc.not_both hreached]

variable [PenaltySigns R] [IdleDecay R]

/-- **What an access decides is what somebody hears who asks right after it.** -/
theorem suppressed_refresh_access (hc : c.Accepted) (op : Op) (now : Instant) {h : History R}
    (hnonneg : ofNat 0 ≤ (op.access c now h).penalty) :
    ((op.access c now h).refresh c now).state.suppressed = (op.access c now h).suppressed := by
  have hraised : (op.access c now h).penalty = op.raised c now h := History.penalty_settle _ _ _
  have hnumber : op.raised c now h ≤ op.raised c now h := op.penalty_raise_self hc now h
  by_cases hlow : op.raised c now h < c.reuseThreshold
  · -- the route is not suppressed, and no penalty grows while time passes
    have hfree : (op.access c now h).suppressed = false := by
      have hbelow : ¬ c.suppressThreshold ≤ op.raised c now h := fun hle => hc.not_both hle hlow
      rw [suppressed_access]
      split_ifs <;> simp [hlow, hbelow]
    have hdecayed : ((op.access c now h).decayed c now).penalty ≤ op.raised c now h :=
      hraised ▸ decay_le _ hc.halfLife_ne hnonneg
    have hcrossed : ¬ Crossed c now (op.access c now h) := by
      intro hle
      rw [Crossed, hfree, if_neg Bool.false_ne_true] at hle
      exact hc.not_both (PenaltyOrder.le_trans hle hdecayed) hlow
    rw [suppressed_refresh, if_neg hcrossed]
  · have hpos : ofNat 0 < op.raised c now h :=
      PenaltyOrder.lt_of_lt_of_le hc.reuseThreshold_pos (PenaltyOrder.le_of_not_lt hnumber hc.reuse_self hlow)
    have hidle : decay (op.access c now h).penalty ⟨0⟩ c.halfLife = (op.access c now h).penalty :=
      IdleDecay.decay_idle hc.halfLife_ne (Or.inr (hraised ▸ hpos))
    rw [History.refresh, decayed_eq_self (op.lastUpdate_access c now h) hidle, Op.access, History.settle_settle hc]

/-- what the answer to a withdrawal of a route tells -/
structure WithdrawalReported (c : Config R) (s : Timed (Damper R)) (net : Network) : Prop where
  /-- it is what a question right afterwards says, exactly if the route does not linger -/
  agrees_iff : (s.state.withdraw s.now net).answer = ((next (.withdraw net) s).state.isSuppressed s.now net).answer ↔
    ∀ h, s.state.routes.find? net = some h → ¬ Lingers c s.now net h
  /-- and a route that is called suppressed is -/
  suppressed_of_answer : (s.state.withdraw s.now net).answer = true →
    ((next (.withdraw net) s).state.isSuppressed s.now net).answer = true

/-- **When a withdrawal answers whether the route is suppressed.** In every reachable state the answer is what a question
at the same instant says, unless the route was suppressed before and its raised penalty lies between the thresholds; then
the answer denies a suppression that goes on. -/
theorem withdrawal_reported {s : Timed (Damper R)} (hs : Reachable c s) (net : Network) :
    WithdrawalReported c s net := by
  have hc := accepted_of_reachable hs
  have hconfig := config_of_reachable hs
  have := boundedDecay (R := R)
  have hstored : ∃ h, s.state.historyOf net s.now = h ∧ Capped c h ∧
      ((∀ h, s.state.routes.find? net = some h → ¬ Lingers c s.now net h) ↔ ¬ Lingers c s.now net h) := by
    refine ⟨_, rfl, ?_⟩
    rw [historyOf]
    cases hfind : s.state.routes.find? net with
    | none => exact ⟨.fresh (hc.ceiling_nonneg hc.ceiling_isNumber) s.now, by simp [Lingers, History.fresh]⟩
    | some h => exact ⟨capped_of_reachable hc.ceiling_isNumber hs hfind, by simp⟩
  obtain ⟨h, hhistory, hcapped, hlingers⟩ := hstored
  have haccessed : Capped c ((Op.withdraw net).access c s.now h) :=
    hcapped.access hc (hc.ceiling_nonneg hc.ceiling_isNumber) _ s.now
  have hasked : ((next (.withdraw net) s).state.isSuppressed s.now net).answer =
      ((Op.withdraw net).access c s.now h).suppressed := by
    rw [answer_isSuppressed, config_next, next, find?_flap hconfig s.now (by simp [Op.isFlapOf]), hconfig,
      ← suppressed_refresh_access hc _ s.now haccessed.nonneg, ← hhistory]
    rfl
  have hanswer : (s.state.withdraw s.now net).answer =
      decide (c.suppressThreshold ≤ (Op.withdraw net).raised c s.now h) := by
    rw [answer_withdraw, hconfig, hhistory]
  refine ⟨?_, ?_⟩
  · rw [hasked, hanswer, hlingers]
    exact suppressed_access_withdraw_iff hc s.now net h
  · rw [hasked, hanswer, decide_eq_true_eq]
    exact suppressed_access_of_reached hc _

end

/-- Three withdrawals suppress a route. A half-life later its penalty is half the suppress threshold, and one more
withdrawal takes it to five sixths of that. -/
theorem withdrawal_reported_between :
    let net : Network := .v4 ⟨⟨0x0a000000⟩, 24⟩
    ∃ s : Timed (Damper Float), Reachable .default s ∧
      (∃ h, s.state.routes.find? net = some h ∧ Lingers .default s.now net h) ∧ WithdrawalReported .default s net := by
  intro net
  obtain ⟨s, hs, hlingers⟩ := exists_reachable_of_run (c := (.default : Config Float)) (by decide +kernel)
    (List.replicate 3 (.perform (.withdraw net)) ++ [.wait (.ofSeconds 900)])
    (fun s => (s.state.routes.find? net).any fun h => decide (Lingers .default s.now net h)) (by decide +kernel)
  obtain ⟨h, hstored, hdecided⟩ := (Option.any_eq_true _ _).mp hlingers
  exact ⟨s, hs, ⟨h, hstored, of_decide_eq_true hdecided⟩, withdrawal_reported hs net⟩

/-- That withdrawal answers that the route is not suppressed; whoever asks right afterwards hears that it is. -/
theorem withdrawal_denies_suppression :
    let net : Network := .v4 ⟨⟨0x0a000000⟩, 24⟩
    ∃ s : Timed (Damper Float), Reachable .default s ∧ (s.state.withdraw s.now net).answer = false ∧
      ((next (.withdraw net) s).state.isSuppressed s.now net).answer = true := by
  intro net
  obtain ⟨s, hs, hanswers⟩ := exists_reachable_of_run (c := (.default : Config Float)) (by decide +kernel)
    (List.replicate 3 (.perform (.withdraw net)) ++ [.wait (.ofSeconds 900)])
    (fun s => !(s.state.withdraw s.now net).answer && ((next (.withdraw net) s).state.isSuppressed s.now net).answer)
    (by decide +kernel)
  obtain ⟨hdenied, hasked⟩ := (Bool.and_eq_true _ _).mp hanswers
  exact ⟨s, hs, Bool.not_eq_true' _ |>.mp hdenied, hasked⟩

end RoutingReplay.Damping.Damper
