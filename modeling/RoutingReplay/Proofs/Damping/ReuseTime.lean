/-
The reuse time is exact.

The engine names the time until a suppressed route is reusable from one logarithm, and then takes the penalty down
little by little, at whatever instants somebody asks. Over the real numbers both agree: unless the route flaps or its
history is cleared, it stays suppressed for just that time (`reuse_time_exact`), which is never longer than the longest
time for which a route may stay suppressed. What is handed out is that time in whole nanoseconds.

The induction is on the run after the reuse time was named. What carries it is `Cooling`: whatever was asked so far, the
penalty is what the penalty at the start decays to in one step, and a route that is no longer suppressed, or no longer
has a history, is one whose penalty has dropped below the reuse threshold.
-/
import RoutingReplay.Proofs.Damping.ExactArithmetic
import RoutingReplay.Proofs.Damping.Transparency

namespace RoutingReplay.Damping.Damper

open PenaltyArithmetic

variable {c : Config ℝ} {net : Network} {h? : Option (History ℝ)}

/-! ## Operations that let a route cool down -/

/-- the operation is no flap of a route and does not clear its history -/
def Op.spares (op : Op) (net : Network) : Bool :=
  match op with
  | .withdraw n | .announce n _ | .clear n => n ≠ net
  | .penalty _ | .isSuppressed _ | .reuseTime _ | .routeStats _ | .purge | .totals | .suppressedRoutes => true

/-- nothing in a turn is a flap of a route or clears its history -/
def Spares (net : Network) : Turn Op → Prop
  | .wait _ => True
  | .perform op => op.spares net = true

/-- an operation that spares a route leaves it alone, or it refreshes the route and forgets it at most if it is not
suppressed -/
theorem effect_of_spares {op : Op} (hspares : op.spares net = true) (c : Config ℝ) (now : Instant)
    (h? : Option (History ℝ)) :
    op.effect c now net h? = h? ∨ ∃ keep : History ℝ → Bool, (∀ h, h.suppressed = true → keep h = true) ∧
      op.effect c now net h? = (h?.map fun h => (h.refresh c now).state).filter keep := by
  have hrefreshed : (h?.map fun h => (h.refresh c now).state) =
      (h?.map fun h => (h.refresh c now).state).filter fun _ => true := by
    cases h? <;> rfl
  cases op with
  | withdraw n | announce n attributeChanged | clear n =>
    have hne : n ≠ net := of_decide_eq_true hspares
    exact Or.inl (if_neg hne.symm)
  | penalty n | isSuppressed n | reuseTime n | routeStats n =>
    simp only [Op.effect]
    split_ifs
    · exact Or.inr ⟨_, fun _ _ => rfl, hrefreshed⟩
    · exact Or.inl rfl
  | totals | suppressedRoutes => exact Or.inr ⟨_, fun _ _ => rfl, hrefreshed⟩
  | purge =>
    refine Or.inr ⟨(·.isLive c), ?_, rfl⟩
    intro h hsuppressed
    simp [History.isLive, isLive, hsuppressed]

/-! ## Cooling down -/

theorem since_add {a b t : Instant} (hab : a ≤ b) (hbt : b ≤ t) :
    (⟨(b.since a).nanos + (t.since b).nanos⟩ : Duration) = t.since a := by
  have hab' : a.sinceStart.nanos ≤ b.sinceStart.nanos := hab
  have hbt' : b.sinceStart.nanos ≤ t.sinceStart.nanos := hbt
  simp only [Instant.since, Duration.mk.injEq]
  omega

/-- the penalty `p` at the instant `asked`, some time later -/
noncomputable def cooled (c : Config ℝ) (p : ℝ) (asked now : Instant) : ℝ := decay p (now.since asked) c.halfLife

/-- a route that had the penalty `p` at the instant `asked`, and then nothing but queries -/
structure Cooling (c : Config ℝ) (p : ℝ) (asked now : Instant) (h? : Option (History ℝ)) : Prop where
  asked_le : asked ≤ now
  penalty : ∀ h ∈ h?, ∀ t, now ≤ t → (h.decayed c t).penalty = cooled c p asked t
  suppressed : (∃ h ∈ h?, h.suppressed = true) ∨ cooled c p asked now < c.reuseThreshold

variable {p : ℝ} {asked now t : Instant}

theorem cooled_le_cooled (hc : c.Accepted) (hp : 0 ≤ p) (hasked : asked ≤ now) (hle : now ≤ t) :
    cooled c p asked t ≤ cooled c p asked now := by
  have hstep : cooled c p asked t = decay (cooled c p asked now) (t.since now) c.halfLife := by
    rw [cooled, cooled, decay_decay hp, since_add hasked hle]
  have hnonneg : ofNat 0 ≤ cooled c p asked now := decay_nonneg _ _ _
  rw [hstep]
  exact BoundedDecay.decay_le _ hc.halfLife_ne hnonneg

/-- a route goes on cooling down while time passes -/
theorem Cooling.wait (hp : 0 ≤ p) (hc : c.Accepted) (h : Cooling c p asked now h?) (hle : now ≤ t) :
    Cooling c p asked t h? where
  asked_le := Instant.le_trans h.asked_le hle
  penalty := fun g hg t' hle' => h.penalty g hg t' (Instant.le_trans hle hle')
  suppressed := by
    rcases h.suppressed with hsuppressed | hbelow
    · exact Or.inl hsuppressed
    · exact Or.inr (lt_of_le_of_lt (cooled_le_cooled hc hp h.asked_le hle) hbelow)

/-- whoever asks about a cooling route is told that it is suppressed until its penalty drops below the reuse
threshold -/
theorem Cooling.suppressed_refresh_iff (hc : c.Accepted) (h : Cooling c p asked now h?) :
    ((h?.map fun h => (h.refresh c now).state.suppressed).getD false) = true ↔
      ¬ cooled c p asked now < c.reuseThreshold := by
  cases h? with
  | none =>
    rcases h.suppressed with ⟨g, hg, -⟩ | hbelow
    · cases hg
    · simp [hbelow]
  | some g =>
    have hpenalty : (g.decayed c now).penalty = cooled c p asked now := h.penalty g rfl now (Instant.le_refl now)
    have hkept : (g.decayed c now).suppressed = g.suppressed := rfl
    simp only [Option.map_some, Option.getD_some, History.refresh, History.suppressed_settle, hpenalty, hkept]
    rcases h.suppressed with ⟨g', hg', hsuppressed⟩ | hbelow
    · obtain rfl := Option.some.inj hg'
      simp [hsuppressed]
    · have hnot : ¬ c.suppressThreshold ≤ cooled c p asked now := fun hle => hc.not_both hle hbelow
      simp [hbelow, hnot]

/-- a query does not change how a route cools down -/
theorem Cooling.refresh (hp : 0 ≤ p) (hc : c.Accepted) (h : Cooling c p asked now h?) {keep : History ℝ → Bool}
    (hkeep : ∀ h, h.suppressed = true → keep h = true) :
    Cooling c p asked now ((h?.map fun h => (h.refresh c now).state).filter keep) := by
  have hanswer := h.suppressed_refresh_iff hc
  refine ⟨h.asked_le, ?_, ?_⟩
  · intro g hg t hle
    obtain ⟨g₀, hold, rfl⟩ := Option.mem_map.mp (Option.mem_filter_iff.mp hg).1
    have hlast : (g₀.refresh c now).state.lastUpdate = now := History.lastUpdate_settle _ _ _
    have hpenalty : (g₀.refresh c now).state.penalty = cooled c p asked now := by
      rw [History.refresh, History.penalty_settle]
      exact h.penalty g₀ hold now (Instant.le_refl now)
    calc ((g₀.refresh c now).state.decayed c t).penalty
        = decay (decay p (now.since asked) c.halfLife) (t.since now) c.halfLife := by
          simp only [History.decayed, hlast, hpenalty, cooled]
      _ = decay p (t.since asked) c.halfLife := by
          rw [decay_decay hp, since_add h.asked_le hle]
  · by_cases hbelow : cooled c p asked now < c.reuseThreshold
    · exact Or.inr hbelow
    · -- the refreshed route is suppressed, so that it is kept
      have hsuppressed := hanswer.mpr hbelow
      cases h? with
      | none => cases hsuppressed
      | some g₀ =>
        have hrefreshed : (g₀.refresh c now).state.suppressed = true := hsuppressed
        exact Or.inl ⟨_, Option.mem_filter_iff.mpr ⟨rfl, hkeep _ hrefreshed⟩, hrefreshed⟩

theorem Cooling.effect (hp : 0 ≤ p) (hc : c.Accepted) (h : Cooling c p asked now h?) {op : Op}
    (hspares : op.spares net = true) : Cooling c p asked now (op.effect c now net h?) := by
  rcases effect_of_spares hspares c now h? with hsame | ⟨keep, hkeep, hrefreshed⟩
  · rw [hsame]
    exact h
  · rw [hrefreshed]
    exact h.refresh hp hc hkeep

/-- Every run that spares a route lets it cool down. -/
theorem Cooling.run (hp : 0 ≤ p) (hc : c.Accepted) {s : Timed (Damper ℝ)} (hconfig : s.state.config = c)
    (h : Cooling c p asked s.now (s.state.routes.find? net)) (turns : List (Turn Op))
    (hspares : ∀ t ∈ turns, Spares net t) {out : Outcome (Timed (Damper ℝ)) (Notice ℝ) (List (Answer ℝ))}
    (hrun : run s turns = .ok out) :
    out.state.state.config = c ∧ Cooling c p asked out.state.now (out.state.state.routes.find? net) := by
  induction turns generalizing s out with
  | nil =>
    rw [Timed.run_nil hrun]
    exact ⟨hconfig, h⟩
  | cons turn rest ih =>
    have hrest : ∀ t ∈ rest, Spares net t := fun t ht => hspares t (List.mem_cons_of_mem _ ht)
    cases turn with
    | wait d =>
      obtain ⟨now, hnow, others, hothers, hstate, -⟩ := Timed.run_wait hrun
      rw [hstate]
      exact ih (s := { s with now }) hconfig (h.wait hp hc (Instant.le_of_advance hnow)) hrest hothers
    | perform op =>
      obtain ⟨others, hothers, hstate, -⟩ := Timed.run_perform hrun
      have hop : op.spares net = true := hspares (.perform op) List.mem_cons_self
      have hnext := h.effect hp hc hop
      rw [← hconfig, ← find?_perform, hconfig] at hnext
      rw [hstate]
      exact ih (s := { s with state := (perform op s.now s.state).state })
        ((config_perform op s.now s.state).trans hconfig) hnext hrest hothers

/-! ## The reuse time -/

/-- a suppressed route starts to cool down at the penalty that a query finds -/
theorem cooling_of_reachable {s : Timed (Damper ℝ)} (hs : Reachable c s) {h : History ℝ}
    (hstored : s.state.routes.find? net = some h) (hsuppressed : (h.refresh c s.now).state.suppressed = true) :
    Cooling c (h.decayed c s.now).penalty s.now s.now (some h) := by
  obtain ⟨log, htold⟩ := exists_log_of_reachable hs hstored
  have hcapped : Capped c h := capped_of_reachable le_rfl hs hstored
  have hnonneg : 0 ≤ h.penalty := ofNat_zero.symm.le.trans hcapped.nonneg
  refine ⟨Instant.le_refl _, ?_, Or.inl ⟨h, rfl, ?_⟩⟩
  · intro g hg t hle
    obtain rfl := Option.some.inj hg
    simp only [History.decayed, cooled]
    rw [decay_decay hnonneg, since_add htold.lastUpdate_le hle]
  · -- a route that is not suppressed does not get there by cooling down
    by_contra hnot
    have hfalse : h.suppressed = false := by simpa using hnot
    have hbelow : h.penalty < c.suppressThreshold := htold.lt_suppress hfalse
    have hdecayed : (h.decayed c s.now).penalty ≤ h.penalty :=
      BoundedDecay.decay_le _ (accepted_of_reachable hs).halfLife_ne hcapped.nonneg
    have hkept : (h.decayed c s.now).suppressed = h.suppressed := rfl
    rw [History.refresh, History.suppressed_settle, hkept, hfalse] at hsuppressed
    have hreach : c.suppressThreshold ≤ (h.decayed c s.now).penalty := by simpa using hsuppressed
    exact absurd (hreach.trans hdecayed) (not_le_of_gt hbelow)

/-- the engine names a logarithm of the penalty that it finds -/
theorem answer_reuseSeconds_of_suppressed {d : Damper ℝ} {h : History ℝ} (hconfig : d.config = c)
    (hstored : d.routes.find? net = some h) (hsuppressed : (h.refresh c now).state.suppressed = true)
    (hnonneg : 0 ≤ c.halfLife.toNat * Real.logb 2 ((h.decayed c now).penalty / c.reuseThreshold)) :
    (d.reuseSeconds now net).answer =
      some (c.halfLife.toNat * Real.logb 2 ((h.decayed c now).penalty / c.reuseThreshold)) := by
  have hpenalty : (h.refresh c now).state.penalty = (h.decayed c now).penalty := History.penalty_settle _ _ _
  rw [answer_reuseSeconds, hstored, hconfig, Option.bind_some, if_pos hsuppressed, History.reuseSeconds, hpenalty,
    larger_eq_max, ofNat_zero]
  exact congrArg some (max_eq_left hnonneg)

/-- a penalty up to the ceiling decays to the reuse threshold in the longest time of suppression at most -/
theorem reuse_le_maxSuppressTime (hc : c.Accepted) (hp : 0 < p) (hle : p ≤ c.ceiling) :
    c.halfLife.toNat * Real.logb 2 (p / c.reuseThreshold) ≤ c.maxSuppressTime.toNat := by
  have hlife : (0 : ℝ) < c.halfLife.toNat :=
    Nat.cast_pos.mpr (Nat.pos_of_ne_zero fun h => hc.halfLife_ne (UInt32.toNat_inj.mp h))
  have hreuse : 0 < c.reuseThreshold := ofNat_zero.symm.le.trans_lt hc.reuseThreshold_pos
  have hratio : p / c.reuseThreshold ≤ 2 ^ ((c.maxSuppressTime.toNat : ℝ) / c.halfLife.toNat) := by
    rw [div_le_iff₀ hreuse, mul_comm]
    exact hle
  have hlog : Real.logb 2 (p / c.reuseThreshold) ≤ (c.maxSuppressTime.toNat : ℝ) / c.halfLife.toNat :=
    (Real.logb_le_iff_le_rpow one_lt_two (div_pos hp hreuse)).mpr hratio
  calc c.halfLife.toNat * Real.logb 2 (p / c.reuseThreshold)
      ≤ c.halfLife.toNat * ((c.maxSuppressTime.toNat : ℝ) / c.halfLife.toNat) :=
        mul_le_mul_of_nonneg_left hlog hlife.le
    _ = c.maxSuppressTime.toNat := mul_div_cancel₀ _ hlife.ne'

/-- `n` is what is handed out for the reuse time `d`: the whole nanoseconds, and not more of them than a route may stay
suppressed -/
structure Named (s : Timed (Damper ℝ)) (net : Network) (d : ℝ) (n : ℕ) : Prop where
  answer : (s.state.reuseTime s.now net).answer = .ok (some ⟨n⟩)
  rounded : NearestEven (d * 10 ^ 9) n
  le_maxSuppressTime : n ≤ s.state.config.maxSuppressTime.toNat * 10 ^ 9

/-- a reuse time that is not longer than a route may stay suppressed can be handed out -/
theorem exists_named {s : Timed (Damper ℝ)} {d : ℝ} (hseconds : (s.state.reuseSeconds s.now net).answer = some d)
    (hnonneg : 0 ≤ d) (hle : d ≤ s.state.config.maxSuppressTime.toNat) : ∃ n, Named s net d n := by
  have hmax : (s.state.config.maxSuppressTime.toNat : ℝ) < 2 ^ 64 := by
    have hlt : s.state.config.maxSuppressTime.toNat < 2 ^ 64 :=
      s.state.config.maxSuppressTime.toNat_lt.trans (by norm_num)
    exact_mod_cast hlt
  have hnanoseconds : nanoseconds? d = some (nearestEven (d * 10 ^ 9)) := if_pos ⟨hnonneg, hle.trans_lt hmax⟩
  have hbillion : (0 : ℝ) ≤ 10 ^ 9 := by norm_num
  have hrounded : NearestEven (d * 10 ^ 9) (nearestEven (d * 10 ^ 9)) := nearestEven_spec (mul_nonneg hnonneg hbillion)
  refine ⟨nearestEven (d * 10 ^ 9), ?_, hrounded, hrounded.le_of_le ?_⟩
  · rw [answer_reuseTime, hseconds]
    simp only [hnanoseconds]
  · rw [Nat.cast_mul, Nat.cast_pow, Nat.cast_ofNat]
    exact mul_le_mul_of_nonneg_right hle hbillion

/-- the seconds for which a route stays suppressed from some state on, whatever is asked in the meantime -/
structure ReuseTime (s : Timed (Damper ℝ)) (net : Network) (d : ℝ) : Prop where
  answer : (s.state.reuseSeconds s.now net).answer = some d
  named : ∃ n, Named s net d n
  nonneg : 0 ≤ d
  le_maxSuppressTime : d ≤ s.state.config.maxSuppressTime.toNat
  exact : ∀ turns out, run s turns = .ok out → (∀ t ∈ turns, Spares net t) →
    ((out.state.state.isSuppressed out.state.now net).answer = true ↔ (seconds (out.state.now.since s.now) : ℝ) ≤ d)

/-- **The reuse time is exact, and bounded by the longest time of suppression.** In every reachable state, a suppressed
route has a reuse time, which is handed out in whole nanoseconds. From then on, without a flap of the route and as long
as its history is not cleared, the route is suppressed at an instant if and only if the time since then is at most the
reuse time, whatever was asked at whatever instants in between. -/
theorem reuse_time_exact {s : Timed (Damper ℝ)} (hs : Reachable c s) (net : Network)
    (hsuppressed : (s.state.isSuppressed s.now net).answer = true) : ∃ d, ReuseTime s net d := by
  have hc := accepted_of_reachable hs
  have hconfig := config_of_reachable hs
  rw [answer_isSuppressed, hconfig] at hsuppressed
  cases hstored : s.state.routes.find? net with
  | none =>
    rw [hstored] at hsuppressed
    cases hsuppressed
  | some h =>
    rw [hstored] at hsuppressed
    have hrefreshed : (h.refresh c s.now).state.suppressed = true := hsuppressed
    have hcooling := cooling_of_reachable hs hstored hrefreshed
    have hcapped : Capped c (h.decayed c s.now) := (capped_of_reachable le_rfl hs hstored).decayed hc s.now
    set p := (h.decayed c s.now).penalty with hp
    have hreuse : 0 < c.reuseThreshold := ofNat_zero.symm.le.trans_lt hc.reuseThreshold_pos
    have hat : cooled c p s.now s.now = p := (hcooling.penalty h rfl s.now (Instant.le_refl _)).symm
    have habove : c.reuseThreshold ≤ p := by
      have hiff := hcooling.suppressed_refresh_iff hc
      rw [hat] at hiff
      exact not_lt.mp (hiff.mp hrefreshed)
    have hpos : 0 < p := hreuse.trans_le habove
    set d : ℝ := c.halfLife.toNat * Real.logb 2 (p / c.reuseThreshold)
    have hnonneg : 0 ≤ d :=
      mul_nonneg (Nat.cast_nonneg _) (Real.logb_nonneg one_lt_two ((one_le_div hreuse).mpr habove))
    have hseconds : (s.state.reuseSeconds s.now net).answer = some d :=
      answer_reuseSeconds_of_suppressed hconfig hstored hrefreshed hnonneg
    have hbound : d ≤ s.state.config.maxSuppressTime.toNat := by
      rw [hconfig]
      exact reuse_le_maxSuppressTime hc hpos hcapped.le_ceiling
    refine ⟨d, hseconds, exists_named hseconds hnonneg hbound, hnonneg, hbound, ?_⟩
    intro turns out hrun hspares
    rw [← hstored] at hcooling
    obtain ⟨hconfig', hcooled⟩ := hcooling.run hpos.le hc hconfig turns hspares hrun
    calc (out.state.state.isSuppressed out.state.now net).answer = true
        ↔ ¬ cooled c p s.now out.state.now < c.reuseThreshold := by
          rw [answer_isSuppressed, hconfig']
          exact hcooled.suppressed_refresh_iff hc
      _ ↔ c.reuseThreshold ≤ cooled c p s.now out.state.now := not_lt
      _ ↔ (seconds (out.state.now.since s.now) : ℝ) ≤ d := le_decay_iff hreuse hpos hc.halfLife_ne _

/-! ### A route that one withdrawal suppresses -/

/-- parameters under which one withdrawal takes a route to the suppress threshold -/
noncomputable def strict : Config ℝ := { Config.default with withdrawalPenalty := 3000 }

theorem ceiling_strict : strict.ceiling = 12000 := by
  have hpower : (2 : ℝ) ^ ((3600 : ℝ) / 900) = 16 := by
    rw [show (3600 : ℝ) / 900 = (4 : ℕ) by norm_num, Real.rpow_natCast]
    norm_num
  change (750 : ℝ) * 2 ^ ((3600 : ℝ) / 900) = 12000
  rw [hpower]
  norm_num

theorem accepted_strict : strict.Accepted := by
  refine ⟨?_, ?_, by decide, ?_, by decide, ?_⟩
  · intro p hp
    refine ⟨rfl, not_lt.mpr ?_⟩
    simp only [Config.parameters, List.mem_cons, List.not_mem_nil, or_false] at hp
    rcases hp with rfl | rfl | rfl | rfl <;> simp [strict, Config.default, ofNat_eq]
  · change ¬ (750 : ℝ) ≤ (0 : ℕ)
    norm_num
  · change ¬ (3000 : ℝ) ≤ (750 : ℕ)
    norm_num
  · rw [ceiling_strict]
    change ¬ (12000 : ℝ) < (3000 : ℕ)
    norm_num

theorem raised_strict (net : Network) (now : Instant) :
    Op.raised (.withdraw net) strict now (.fresh now) = 3000 := by
  have hidle : (History.fresh now).decayed strict now = .fresh now :=
    decayed_eq_self rfl (IdleDecay.decay_idle accepted_strict.halfLife_ne (Or.inl rfl))
  have hfresh : ((History.fresh now).decayed strict now).penalty = (0 : ℝ) := by
    rw [hidle]
    exact ofNat_zero
  change smaller (((History.fresh now).decayed strict now).penalty + 3000) strict.ceiling = 3000
  rw [hfresh, ceiling_strict, zero_add, smaller, if_pos (by norm_num)]

/-- At its first withdrawal a route is suppressed, and from then on for its reuse time. -/
theorem reuse_time_exact_withdrawal :
    let net : Network := .v4 ⟨⟨0x0a000000⟩, 24⟩
    ∃ s : Timed (Damper ℝ), Reachable strict s ∧ (s.state.isSuppressed s.now net).answer = true ∧
      ∃ d, ReuseTime s net d := by
  intro net
  let s : Timed (Damper ℝ) := ⟨.start, (perform (.withdraw net) .start ⟨strict, .empty⟩).state⟩
  have hs : Reachable strict s :=
    ⟨_, .start, [.perform (.withdraw net)], _, create_eq_ok_iff.mpr ⟨accepted_strict, rfl⟩, rfl, rfl⟩
  set g := Op.access (.withdraw net) strict .start (.fresh .start) with hg
  have hstored : s.state.routes.find? net = some g := by
    rw [find?_perform]
    rfl
  have hpenalty : g.penalty = 3000 := (History.penalty_settle _ _ _).trans (raised_strict net .start)
  have hlast : g.lastUpdate = s.now := by
    rw [hg, Op.access, History.lastUpdate_settle, Op.lastUpdate_raise]
    rfl
  have hlatched : g.suppressed = true := by
    rw [hg, suppressed_access, raised_strict]
    change decide ((3000 : ℝ) ≤ (3000 : ℕ)) = true
    norm_num
  have hpos : ofNat 0 < g.penalty := by
    rw [hpenalty, ofNat_zero]
    norm_num
  have hcrossed : ¬ Crossed strict s.now g := by
    rw [Crossed, if_pos hlatched, decayed_eq_self hlast (IdleDecay.decay_idle accepted_strict.halfLife_ne (Or.inr hpos)),
      hpenalty]
    change ¬ (3000 : ℝ) < (750 : ℕ)
    norm_num
  have hsuppressed : (s.state.isSuppressed s.now net).answer = true := by
    rw [answer_isSuppressed, hstored, config_of_reachable hs, Option.map_some, Option.getD_some, suppressed_refresh,
      if_neg hcrossed]
    exact hlatched
  exact ⟨s, hs, hsuppressed, reuse_time_exact hs net hsuppressed⟩

end RoutingReplay.Damping.Damper
