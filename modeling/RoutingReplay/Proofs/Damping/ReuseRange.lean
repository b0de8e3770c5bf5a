/-
When a reuse time can be named.

The time until a route is reusable is a logarithm of its penalty, and a duration cannot hold an infinite one. The
configured numbers are finite, but the ceiling is computed from them and may overflow. If it does, penalties have no
bound, and one that is too large to be divided by the reuse threshold has no reuse time (`reuse_time_overflows`). If the
ceiling is finite, every suppressed route has one.

The argument is about one division. A penalty is at most the ceiling, which is the reuse threshold times a finite power,
rounded; and that product divided by the threshold again is still finite (`exists_ratio`).
-/
import RoutingReplay.Proofs.Binary64.Functions
import RoutingReplay.Proofs.Damping.Transparency
import RoutingReplay.Proofs.Damping.Signs

namespace RoutingReplay.Damping

open PenaltyArithmetic (ofNat seconds isFinite larger)
open Binary64
open Float.Model.UnpackedFloat (Sign)

variable {c : Config Float} {now : Instant} {h : History Float}

/-! ## Decay lowers penalties -/

/-- a whole number other than zero is finite and positive -/
theorem finite_ofNat {n : ℕ} (hn : n ≠ 0) (hle : n ≤ 2 ^ 64) : Finite .positive (ofNat n : Float).toModel.unpack := by
  have hle' : n ≤ 1 * 2 ^ 64 := by rwa [Nat.one_mul]
  obtain ⟨q, -, hq⟩ := exists_nearest_le Nat.one_pos hle' (by norm_num)
  rcases hq.zero_or_fits with ⟨s, hu, -⟩ | ⟨m, e, hm, hu, -, -⟩
  · rcases nonzero_nearest hn with ⟨t, hu'⟩ | ⟨t, m, e, hm, hu'⟩
    · cases hu.symm.trans hu'
    · cases hu.symm.trans hu'
  · exact ⟨m, e, hm, hu⟩

theorem finite_halfLife {halfLife : UInt32} (hlife : halfLife ≠ 0) :
    Finite .positive (ofNat halfLife.toNat : Float).toModel.unpack := by
  have hlt : halfLife.toNat < 2 ^ 32 := halfLife.toNat_lt
  exact finite_ofNat (fun h => hlife (UInt32.toNat_inj.mp h)) (by omega)

theorem exists_halfLife_le (halfLife : UInt32) : ∃ q ≤ 2 ^ 32, Magnitude (ofNat halfLife.toNat) q := by
  refine exists_nearest_le Nat.one_pos ?_ (by norm_num)
  rw [Nat.one_mul]
  exact halfLife.toNat_lt.le

/-- a factor between zero and one makes no number larger; without the premise the product may be infinity times zero -/
theorem mul_le_left {a x : Float} (ha : ofNat 0 ≤ a) (hx : ofNat 0 ≤ x) (hone : x ≤ ofNat 1) (hself : a * x ≤ a * x) :
    a * x ≤ a := by
  cases hfinite : isFinite a with
  | true =>
    obtain ⟨v, hv⟩ := exists_magnitude hfinite ha
    obtain ⟨q, hq, hfactor⟩ := exists_magnitude_of_le hx hone magnitude_one
    have hproduct : v * q ≤ v := mul_le_of_le_one_right hv.nonneg hq
    obtain ⟨w, hw, hrounded⟩ := (hv.mul hfactor).exists_le hv hproduct
    exact (hrounded.le_iff hv).mpr hw
  | false => exact le_infinity hself (infinity_of_signed (zero_le_iff.mp ha) hfinite)

instance : PenaltySigns Float where
  ofNat_nonneg n := zero_le_iff.mpr (signed_nearest n 1)
  ofNat_pos := by
    intro n hn hlt
    obtain ⟨m, e, hm, hu⟩ := finite_ofNat hn hlt.le
    refine ⟨isFinite_iff.mpr (Or.inr ⟨_, m, e, hm, hu⟩), PenaltyOrder.lt_iff.mpr ⟨zero_le_iff.mpr ?_, ?_⟩⟩
    · rw [hu]
      rfl
    · rw [le_zero_iff, hu]
      rintro ⟨⟩
  neg_nonpos := fun ha => le_zero_iff.mpr (signed_neg_float (zero_le_iff.mp ha))
  add_nonneg := fun ha hb => zero_le_iff.mpr (signed_add_float (zero_le_iff.mp ha) (zero_le_iff.mp hb))
  div_nonneg := fun ha hfinite hpos => zero_le_iff.mpr (signed_div_float (zero_le_iff.mp ha) (finite_of_pos hfinite hpos))
  div_nonpos := fun ha hfinite hpos => le_zero_iff.mpr (signed_div_float (le_zero_iff.mp ha) (finite_of_pos hfinite hpos))
  mul_nonneg := fun hfinite hpos hb =>
    zero_le_iff.mpr (signed_mul_float (finite_of_pos hfinite hpos) (zero_le_iff.mp hb))
  mul_le_left := mul_le_left
  exp2_nonneg := fun hx => zero_le_iff.mpr (signed_exp2 (zero_le_iff.mp hx))
  exp2_le_one := by
    intro x hx
    obtain ⟨q, hq, hpower⟩ := exists_exp2_le_one (le_zero_iff.mp hx)
    exact ⟨hpower.zero_le, (hpower.le_iff magnitude_one).mpr hq⟩

instance : BoundedDecay Float := boundedDecay

/-! ## The ceiling and the reuse threshold -/

theorem Config.Accepted.signed_power (hc : c.Accepted) :
    Signed .positive (exp2 (ofNat c.maxSuppressTime.toNat / ofNat c.halfLife.toNat)).toModel.unpack :=
  signed_exp2 (signed_div_float (signed_nearest _ _) (finite_halfLife hc.halfLife_ne))

/-- **A penalty up to a finite ceiling can be divided by the reuse threshold.** -/
theorem exists_ratio (hc : c.Accepted) (hceiling : isFinite c.ceiling = true) (hcapped : Capped c h) :
    ∃ q, Magnitude (h.penalty / c.reuseThreshold) q := by
  have hreuse := finite_of_pos hc.reuseThreshold_finite hc.reuseThreshold_pos
  obtain ⟨v, hv⟩ := exists_magnitude hceiling (hc.ceiling_nonneg hc.ceiling_isNumber)
  obtain ⟨p, hp, hpenalty⟩ := exists_magnitude_of_le hcapped.nonneg hcapped.le_ceiling hv
  obtain ⟨r, hr⟩ := exists_magnitude hc.reuseThreshold_finite (PenaltyOrder.lt_iff.mp hc.reuseThreshold_pos).1
  have hpos : 0 < r := by
    have hnot : ¬ r ≤ 0 := (hr.le_iff magnitude_zero).not.mp hc.reuse_pos
    exact not_le.mp hnot
  -- an infinite power would have made the ceiling infinite
  obtain ⟨q, hq⟩ : ∃ q, Magnitude (exp2 (ofNat c.maxSuppressTime.toNat / ofNat c.halfLife.toNat)) q := by
    have hsigned := hc.signed_power
    cases hfinite : isFinite (exp2 (ofNat c.maxSuppressTime.toNat / ofNat c.halfLife.toNat)) with
    | true => exact exists_magnitude hfinite (zero_le_iff.mpr hsigned)
    | false =>
      have hinfinite := infinity_mul hreuse (infinity_of_signed hsigned hfinite)
      rcases isFinite_iff.mp hceiling with ⟨s, hu⟩ | ⟨s, m, e, hm, hu⟩
      · cases hu.symm.trans hinfinite
      · cases hu.symm.trans hinfinite
  have hle : p / r ≤ largest := by
    rw [div_le_iff₀ hpos, mul_comm]
    exact hp.trans (hr.mul_le_largest hq hv)
  exact (hpenalty.div hr hpos).exists_of_le_largest hle

/-! ## The reuse time -/

/-- what the time until a route is reusable is computed from -/
theorem reuseSeconds_eq (h : History Float) (c : Config Float) :
    h.reuseSeconds c = larger (ofNat c.halfLife.toNat * log2 (h.penalty / c.reuseThreshold)) (ofNat 0) := rfl

/-- a penalty that can be divided by the reuse threshold has a reuse time -/
theorem exists_nanoseconds_reuseSeconds (hc : c.Accepted) {q : ℚ} (hq : Magnitude (h.penalty / c.reuseThreshold) q) :
    ∃ n, PenaltyArithmetic.nanoseconds? (h.reuseSeconds c) = some n := by
  have hzero : ∃ n, nanoseconds? (ofNat 0 : Float) = some n := exists_nanoseconds magnitude_zero (by norm_num)
  rw [reuseSeconds_eq]
  rcases larger_eq_or (ofNat c.halfLife.toNat * log2 (h.penalty / c.reuseThreshold)) (ofNat 0) with hlarger | hlarger
  · rw [hlarger]
    exact hzero
  · rw [hlarger]
    rcases exists_log2_le hq with ⟨w, hw, hlog⟩ | hnegative
    · obtain ⟨t, ht, hhalfLife⟩ := exists_halfLife_le c.halfLife
      have hfits : Fits (2 ^ 52) (-10) := by
        right
        norm_num
      have hproduct : t * w ≤ ((2 ^ 52 : ℕ) : ℚ) * 2 ^ (-10 : ℤ) := by
        calc t * w ≤ 2 ^ 32 * 2 ^ 10 := mul_le_mul ht hw hlog.nonneg (by norm_num)
          _ = ((2 ^ 52 : ℕ) : ℚ) * 2 ^ (-10 : ℤ) := by norm_num
      obtain ⟨v, hv, hseconds⟩ := (hhalfLife.mul hlog).exists_le_of_fits hfits hproduct
      exact exists_nanoseconds hseconds (hv.trans_lt (by norm_num))
    · -- a negative logarithm: the larger of the product and zero is zero
      have hsigned : Signed .negative (ofNat c.halfLife.toNat * log2 (h.penalty / c.reuseThreshold)).toModel.unpack :=
        signed_mul_float (finite_halfLife hc.halfLife_ne) hnegative
      have hle := le_zero_iff.mpr hsigned
      rw [← hlarger, larger, if_pos hle]
      exact hzero

/-- a penalty that is too large to be divided by the reuse threshold has none -/
theorem nanoseconds_reuseSeconds_eq_none (hc : c.Accepted)
    (hratio : (h.penalty / c.reuseThreshold).toModel.unpack = .infinity .positive) :
    PenaltyArithmetic.nanoseconds? (h.reuseSeconds c) = none := by
  have hproduct : (ofNat c.halfLife.toNat * log2 (h.penalty / c.reuseThreshold)).toModel.unpack =
      .infinity .positive := by
    rw [log2_infinity hratio]
    exact infinity_mul (finite_halfLife hc.halfLife_ne) hratio
  have hself : larger (ofNat c.halfLife.toNat * log2 (h.penalty / c.reuseThreshold)) (ofNat 0) =
      ofNat c.halfLife.toNat * log2 (h.penalty / c.reuseThreshold) := by
    have hnonneg : ofNat 0 ≤ ofNat c.halfLife.toNat * log2 (h.penalty / c.reuseThreshold) := by
      rw [zero_le_iff, hproduct]
      rfl
    have hpos : ¬ ofNat c.halfLife.toNat * log2 (h.penalty / c.reuseThreshold) ≤ ofNat 0 := by
      rw [le_zero_iff, hproduct]
      rintro ⟨⟩
    exact larger_zero_eq_self (Or.inr (PenaltyOrder.lt_iff.mpr ⟨hnonneg, hpos⟩))
  rw [reuseSeconds_eq, hself]
  exact nanoseconds_infinity hproduct

namespace Damper

/-- a suppressed route whose penalty is too large to be divided by the reuse threshold -/
def Overflows (c : Config Float) (h : History Float) : Prop :=
  h.suppressed = true ∧ isFinite (h.penalty / c.reuseThreshold) = false

/-- what an engine says about the reuse time of a route -/
structure ReuseRange (c : Config Float) (s : Timed (Damper Float)) (net : Network) : Prop where
  /-- it names one, or says that there is none, unless the penalty that it finds is too large -/
  named_iff : (∃ t, (s.state.reuseTime s.now net).answer = .ok t) ↔
    ∀ h, s.state.routes.find? net = some h → ¬ Overflows c (h.refresh c s.now).state
  /-- no penalty is too large if the ceiling is finite -/
  named_of_ceiling : isFinite c.ceiling = true → ∃ t, (s.state.reuseTime s.now net).answer = .ok t

/-- the answer about a route that is tracked -/
theorem exists_answer_reuseTime_iff (hc : c.Accepted) {d : Damper Float} (hconfig : d.config = c) {net : Network}
    (hstored : d.routes.find? net = some h) (hcapped : ofNat 0 ≤ (h.refresh c now).state.penalty) :
    (∃ t, (d.reuseTime now net).answer = .ok t) ↔ ¬ Overflows c (h.refresh c now).state := by
  set g := (h.refresh c now).state with hg
  have hanswer := answer_reuseTime d now net
  rw [answer_reuseSeconds, hstored, hconfig, Option.bind_some, ← hg] at hanswer
  cases hsuppressed : g.suppressed with
  | false =>
    simp only [hsuppressed, Bool.false_eq_true, if_false] at hanswer
    refine ⟨fun _ hoverflows => ?_, fun _ => ⟨none, hanswer⟩⟩
    cases hsuppressed.symm.trans hoverflows.1
  | true =>
    simp only [hsuppressed, if_true] at hanswer
    have hreuse := finite_of_pos hc.reuseThreshold_finite hc.reuseThreshold_pos
    have hsigned : Signed .positive (g.penalty / c.reuseThreshold).toModel.unpack :=
      signed_div_float (zero_le_iff.mp hcapped) hreuse
    cases hfinite : isFinite (g.penalty / c.reuseThreshold) with
    | true =>
      obtain ⟨q, hq⟩ := exists_magnitude hfinite (zero_le_iff.mpr hsigned)
      obtain ⟨n, hn⟩ := exists_nanoseconds_reuseSeconds hc hq
      simp only [hn] at hanswer
      refine ⟨fun _ hoverflows => ?_, fun _ => ⟨_, hanswer⟩⟩
      cases hfinite.symm.trans hoverflows.2
    | false =>
      have hnone := nanoseconds_reuseSeconds_eq_none hc (infinity_of_signed hsigned hfinite)
      simp only [hnone] at hanswer
      refine ⟨?_, fun hnot => absurd ⟨hsuppressed, hfinite⟩ hnot⟩
      rintro ⟨t, ht⟩
      cases hanswer.symm.trans ht

/-- **When a reuse time can be named.** In every reachable state and for every route, asking for the reuse time is a
fault just if the route is suppressed and its penalty is too large to be divided by the reuse threshold. If the ceiling
is finite, that never happens. -/
theorem reuse_time_in_range {s : Timed (Damper Float)} (hs : Reachable c s) (net : Network) : ReuseRange c s net := by
  have hc := accepted_of_reachable hs
  have hconfig := config_of_reachable hs
  cases hstored : s.state.routes.find? net with
  | none =>
    have hanswer : (s.state.reuseTime s.now net).answer = .ok none := by
      rw [answer_reuseTime, answer_reuseSeconds, hstored]
      rfl
    refine ⟨⟨fun _ h hh => ?_, fun _ => ⟨none, hanswer⟩⟩, fun _ => ⟨none, hanswer⟩⟩
    cases hstored.symm.trans hh
  | some h =>
    have hcapped : Capped c (h.refresh c s.now).state :=
      (capped_of_reachable hc.ceiling_isNumber hs hstored).access hc (hc.ceiling_nonneg hc.ceiling_isNumber) .totals s.now
    have hiff := exists_answer_reuseTime_iff hc hconfig hstored hcapped.nonneg
    refine ⟨?_, fun hceiling => ?_⟩
    · rw [hiff]
      simp only [hstored, Option.some.injEq, forall_eq']
    · refine hiff.mpr fun hoverflows => ?_
      obtain ⟨q, hq⟩ := exists_ratio hc hceiling hcapped
      have hfinite := hoverflows.2
      rw [hq.isFinite] at hfinite
      cases hfinite

/-- With the default parameters, whose ceiling is finite, a route is suppressed after three withdrawals. -/
theorem reuse_time_in_range_suppressed :
    let net : Network := .v4 ⟨⟨0x0a000000⟩, 24⟩
    ∃ s : Timed (Damper Float), Reachable .default s ∧ (s.state.isSuppressed s.now net).answer = true ∧
      isFinite (Config.default : Config Float).ceiling = true ∧ ReuseRange .default s net := by
  intro net
  obtain ⟨s, hs, hsuppressed⟩ := exists_reachable_of_run (c := (.default : Config Float)) (by decide +kernel)
    (List.replicate 3 (.perform (.withdraw net)) ++ [.wait (.ofSeconds 450)])
    (fun s => (s.state.isSuppressed s.now net).answer) (by decide +kernel)
  exact ⟨s, hs, hsuppressed, by decide +kernel, reuse_time_in_range hs net⟩

/-- parameters that are accepted although their ceiling is infinite: each number is finite, but between the longest time
of suppression and the half-life there is a factor of 3600 -/
def unbounded : Config Float :=
  { Config.default with withdrawalPenalty := Binary64.nearest (10 ^ 308) 1, halfLife := 1 }

/-- Nothing bounds its penalties, and the second withdrawal at once takes a route to an infinite one. -/
theorem reuse_time_overflows :
    let net : Network := .v4 ⟨⟨0x0a000000⟩, 24⟩
    ∃ s : Timed (Damper Float), Reachable unbounded s ∧ isFinite unbounded.ceiling = false ∧
      (s.state.reuseTime s.now net).answer = .error .timeOutOfRange := by
  intro net
  obtain ⟨s, hs, hanswer⟩ := exists_reachable_of_run (c := unbounded) (by decide +kernel)
    (List.replicate 2 (.perform (.withdraw net)))
    (fun s => decide ((s.state.reuseTime s.now net).answer = .error .timeOutOfRange)) (by decide +kernel)
  exact ⟨s, hs, by decide +kernel, of_decide_eq_true hanswer⟩

end Damper

end RoutingReplay.Damping
