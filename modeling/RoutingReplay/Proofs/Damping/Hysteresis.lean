/-
Suppression in closed form.

Whether a route is suppressed is computed step by step: every access compares the penalty with two thresholds and with
what was decided before. Over a whole run the decision has a closed form, which looks at the penalties alone. The log of
a route (`accesses`) holds the penalty that each access stored, since the history of the route was created. A route is
suppressed if some access reached the suppress threshold and none after it was below the reuse threshold, and it has
been suppressed since the first such access (`hysteresis`).

The induction is on the run. What carries it is that appending one access to the log does to the crossings of the log
what a comparison with the thresholds does to a history (`Latched.settle`).
-/
import RoutingReplay.Proofs.Binary64.Comparison
import RoutingReplay.Proofs.Damping.RouteView

namespace RoutingReplay.Damping

open PenaltyArithmetic

/-- an access to the history of a route: when it was and which penalty it stored -/
structure Access (R : Type) where
  time : Instant
  penalty : R

theorem getElem?_append_singleton_iff {α : Type} {log : List α} {a b : α} {j : Nat} :
    (log ++ [a])[j]? = some b ↔ log[j]? = some b ∨ j = log.length ∧ a = b := by
  rcases Nat.lt_trichotomy j log.length with hj | rfl | hj
  · simp [List.getElem?_append_left hj, hj.ne]
  · simp
  · have hout : (log ++ [a])[j]? = none := List.getElem?_eq_none (by simpa using hj)
    simp [hout, List.getElem?_eq_none hj.le, hj.ne']

variable {R : Type} [PenaltyArithmetic R]

/-! ## Crossings of the thresholds -/

/-- the access `j` of a log stored a penalty that reaches the suppress threshold -/
def Reaches (c : Config R) (log : List (Access R)) (j : Nat) : Prop :=
  ∃ a, log[j]? = some a ∧ c.suppressThreshold ≤ a.penalty

/-- the access `k` of a log stored a penalty below the reuse threshold -/
def Dips (c : Config R) (log : List (Access R)) (k : Nat) : Prop :=
  ∃ a, log[k]? = some a ∧ a.penalty < c.reuseThreshold

/-- the access `j` of a log reached the suppress threshold after the last one below the reuse threshold -/
def Crosses (c : Config R) (log : List (Access R)) (j : Nat) : Prop :=
  Reaches c log j ∧ ∀ k, Dips c log k → k < j

variable {c : Config R} {log : List (Access R)} {a : Access R} {j k : Nat}

theorem Reaches.lt_length (h : Reaches c log j) : j < log.length := by
  obtain ⟨a, ha, -⟩ := h
  exact (List.getElem?_eq_some_iff.mp ha).1

theorem Dips.lt_length (h : Dips c log k) : k < log.length := by
  obtain ⟨a, ha, -⟩ := h
  exact (List.getElem?_eq_some_iff.mp ha).1

theorem reaches_append_iff :
    Reaches c (log ++ [a]) j ↔ Reaches c log j ∨ j = log.length ∧ c.suppressThreshold ≤ a.penalty := by
  simp only [Reaches, getElem?_append_singleton_iff]
  constructor
  · rintro ⟨b, hb | ⟨hj, rfl⟩, hle⟩
    · exact Or.inl ⟨b, hb, hle⟩
    · exact Or.inr ⟨hj, hle⟩
  · rintro (⟨b, hb, hle⟩ | ⟨hj, hle⟩)
    · exact ⟨b, Or.inl hb, hle⟩
    · exact ⟨a, Or.inr ⟨hj, rfl⟩, hle⟩

theorem dips_append_iff :
    Dips c (log ++ [a]) k ↔ Dips c log k ∨ k = log.length ∧ a.penalty < c.reuseThreshold := by
  simp only [Dips, getElem?_append_singleton_iff]
  constructor
  · rintro ⟨b, hb | ⟨hk, rfl⟩, hlt⟩
    · exact Or.inl ⟨b, hb, hlt⟩
    · exact Or.inr ⟨hk, hlt⟩
  · rintro (⟨b, hb, hlt⟩ | ⟨hk, hlt⟩)
    · exact ⟨b, Or.inl hb, hlt⟩
    · exact ⟨a, Or.inr ⟨hk, rfl⟩, hlt⟩

/-- no access reaches the one threshold and dips below the other -/
theorem Reaches.not_dips [PenaltyOrder R] (hc : c.Accepted) (h : Reaches c log j) : ¬ Dips c log j := by
  rintro ⟨b, hb, hlt⟩
  obtain ⟨a, ha, hle⟩ := h
  obtain rfl : a = b := Option.some.inj (ha.symm.trans hb)
  exact hc.not_both hle hlt

theorem crosses_iff [PenaltyOrder R] (hc : c.Accepted) :
    Crosses c log j ↔ Reaches c log j ∧ ¬ ∃ k, j < k ∧ Dips c log k := by
  refine and_congr_right fun hreach => ⟨?_, ?_⟩
  · rintro hlast ⟨k, hjk, hdip⟩
    exact absurd (hlast k hdip) (Nat.lt_asymm hjk)
  · intro hnone k hdip
    have hne : k ≠ j := fun e => hreach.not_dips hc (e ▸ hdip)
    have hle : ¬ j < k := fun hjk => hnone ⟨k, hjk, hdip⟩
    omega

/-- an access below the reuse threshold leaves no crossing -/
theorem not_crosses_append_of_dip (hdip : a.penalty < c.reuseThreshold) : ¬ Crosses c (log ++ [a]) j := by
  rintro ⟨hreach, hlast⟩
  have hlt : j < log.length + 1 := by simpa using hreach.lt_length
  have hgt : log.length < j := hlast _ (dips_append_iff.mpr (Or.inr ⟨rfl, hdip⟩))
  omega

/-- any other access leaves the crossings that there are, and may be one itself -/
theorem crosses_append_iff (hdip : ¬ a.penalty < c.reuseThreshold) :
    Crosses c (log ++ [a]) j ↔ Crosses c log j ∨ j = log.length ∧ c.suppressThreshold ≤ a.penalty := by
  have hdips : ∀ k, Dips c (log ++ [a]) k ↔ Dips c log k := fun k => by simp [dips_append_iff, hdip]
  simp only [Crosses, reaches_append_iff, hdips]
  constructor
  · rintro ⟨hreach | hnew, hlast⟩
    · exact Or.inl ⟨hreach, hlast⟩
    · exact Or.inr hnew
  · rintro (⟨hreach, hlast⟩ | ⟨rfl, hle⟩)
    · exact ⟨Or.inl hreach, hlast⟩
    · exact ⟨Or.inr ⟨rfl, hle⟩, fun k hk => hk.lt_length⟩

/-- the first crossing stays the first -/
theorem isLeast_crosses_append_of_crosses (hdip : ¬ a.penalty < c.reuseThreshold) (h : ∃ j, Crosses c log j) :
    IsLeast {j | Crosses c (log ++ [a]) j} j ↔ IsLeast {j | Crosses c log j} j := by
  simp only [IsLeast, lowerBounds, Set.mem_ofPred_eq, crosses_append_iff hdip]
  obtain ⟨i, hi⟩ := h
  constructor
  · rintro ⟨hj | ⟨rfl, -⟩, hleast⟩
    · exact ⟨hj, fun k hk => hleast (Or.inl hk)⟩
    · exact absurd hi.1.lt_length (Nat.not_lt.mpr (hleast (Or.inl hi)))
  · rintro ⟨hj, hleast⟩
    refine ⟨Or.inl hj, ?_⟩
    rintro k (hk | ⟨rfl, -⟩)
    · exact hleast hk
    · exact hj.1.lt_length.le

/-- a crossing is the first if there was none before -/
theorem isLeast_crosses_append_of_not_crosses (hdip : ¬ a.penalty < c.reuseThreshold) (h : ¬ ∃ j, Crosses c log j) :
    IsLeast {j | Crosses c (log ++ [a]) j} j ↔ j = log.length ∧ c.suppressThreshold ≤ a.penalty := by
  have hnone : ∀ j, ¬ Crosses c log j := fun j hj => h ⟨j, hj⟩
  simp only [IsLeast, lowerBounds, Set.mem_ofPred_eq, crosses_append_iff hdip, hnone, false_or]
  refine ⟨fun hj => hj.1, fun hj => ⟨hj, ?_⟩⟩
  rintro k ⟨rfl, -⟩
  exact hj.1.le

/-! ## One access -/

/-- a history whose suppression is what the log says -/
structure Latched (c : Config R) (log : List (Access R)) (h : History R) : Prop where
  suppressed : h.suppressed = true ↔ ∃ j, Crosses c log j
  since : ∀ t, h.suppressedSince = some t ↔ ∃ j, IsLeast {j | Crosses c log j} j ∧ (log[j]?).map Access.time = some t

theorem Latched.fresh (c : Config R) (now : Instant) : Latched c [] (.fresh now) := by
  have hnone : ∀ j, ¬ Crosses c [] j := fun j hj => absurd hj.1.lt_length (Nat.not_lt_zero j)
  refine ⟨?_, fun t => ?_⟩
  · simp [History.fresh, hnone]
  · simp [History.fresh]

/-- An access does to the suppression of a history what it does to the crossings of its log. -/
theorem Latched.settle [PenaltyOrder R] (hc : c.Accepted) {h : History R} (hlatched : Latched c log h) (now : Instant) :
    Latched c (log ++ [⟨now, h.penalty⟩]) (h.settle c now).state := by
  by_cases hdip : h.penalty < c.reuseThreshold
  · -- below the reuse threshold: nothing is left of a suppression, and the penalty does not start one
    have hreach : ¬ c.suppressThreshold ≤ h.penalty := fun hle => hc.not_both hle hdip
    have hnone : ∀ j, ¬ Crosses c (log ++ [⟨now, h.penalty⟩]) j := fun j => not_crosses_append_of_dip hdip
    have hsince : h.suppressed = false → h.suppressedSince = none := fun hfalse => by
      refine Option.eq_none_iff_forall_ne_some.mpr fun t ht => ?_
      obtain ⟨j, hleast, -⟩ := (hlatched.since t).mp ht
      simp [hlatched.suppressed.mpr ⟨j, hleast.1⟩] at hfalse
    refine ⟨?_, fun t => ?_⟩
    · simp [History.suppressed_settle, hdip, hreach, hnone]
    · simp only [History.suppressedSince_settle, hdip, hreach, if_true, if_false, IsLeast, Set.mem_ofPred_eq, hnone,
        false_and, exists_false, iff_false]
      split_ifs with hs
      · exact id
      · simp [hsince (by simpa using hs)]
  · by_cases hs : h.suppressed = true
    · -- a suppression goes on
      have hcrossed := hlatched.suppressed.mp hs
      obtain ⟨i, hi⟩ := hcrossed
      refine ⟨?_, fun t => ?_⟩
      · simp only [History.suppressed_settle, hs, if_true, hdip, decide_false, Bool.not_false, true_iff]
        exact ⟨i, (crosses_append_iff hdip).mpr (Or.inl hi)⟩
      · simp only [History.suppressedSince_settle, hs, if_true, hdip, if_false, hlatched.since,
          isLeast_crosses_append_of_crosses (a := ⟨now, h.penalty⟩) hdip ⟨i, hi⟩]
        refine exists_congr fun j => and_congr_right fun hj => ?_
        rw [List.getElem?_append_left hj.1.1.lt_length]
    · -- a suppression starts here or not at all
      have hnot : ¬ ∃ j, Crosses c log j := fun h => hs (hlatched.suppressed.mpr h)
      have hnone : ∀ j, ¬ Crosses c log j := fun j hj => hnot ⟨j, hj⟩
      have hsince : h.suppressedSince = none := by
        refine Option.eq_none_iff_forall_ne_some.mpr fun t ht => ?_
        obtain ⟨j, hleast, -⟩ := (hlatched.since t).mp ht
        exact hnone j hleast.1
      refine ⟨?_, fun t => ?_⟩
      · simp [History.suppressed_settle, hs, crosses_append_iff (a := ⟨now, h.penalty⟩) hdip, hnone]
      · simp only [History.suppressedSince_settle, hs, hsince, if_false, Bool.false_eq_true,
          isLeast_crosses_append_of_not_crosses (a := ⟨now, h.penalty⟩) hdip hnot]
        split_ifs with hle
        · simp [hle]
        · simp [hle]

/-! ## Whole runs -/

namespace Damper

/-- the log of a route after one more operation: no history means no log -/
def logged (op : Op) (now : Instant) (net : Network) (h? : Option (History R)) (log : List (Access R)) :
    List (Access R) :=
  match h? with
  | none => []
  | some h => if op.touches net then log ++ [⟨now, h.penalty⟩] else log

/-- the accesses to a route in the rest of a run, after those in `log`, back to where its history was created -/
def accesses (net : Network) (s : Timed (Damper R)) (log : List (Access R)) : List (Turn Op) → List (Access R)
  | [] => log
  | .wait d :: rest =>
    match s.now.advance d with
    | .error _ => log
    | .ok now => accesses net { s with now } log rest
  | .perform op :: rest =>
    let state := (perform op s.now s.state).state
    accesses net { s with state } (logged op s.now net (state.routes.find? net) log) rest

/-- a history that is told by its log -/
structure Told (c : Config R) (now : Instant) (log : List (Access R)) (h : History R) : Prop where
  latched : Latched c log h
  number : h.penalty ≤ h.penalty
  last : log.getLast? = some ⟨h.lastUpdate, h.penalty⟩
  since_le : ∀ t, h.suppressedSince = some t → t ≤ h.lastUpdate
  lastUpdate_le : h.lastUpdate ≤ now

/-- the history of a route is told by its log, if there is one -/
def Told? (c : Config R) (now : Instant) (log : List (Access R)) (h? : Option (History R)) : Prop :=
  (h? = none → log = []) ∧ ∀ h ∈ h?, Told c now log h

theorem Told?.none (c : Config R) (now : Instant) : Told? c now [] (Option.none : Option (History R)) :=
  ⟨fun _ => rfl, fun _ h => by cases h⟩

/-! ### What an operation keeps -/

/-- the log and the history grow together -/
theorem told_access [PenaltyOrder R] (hc : c.Accepted) {now : Instant} {h : History R} (hlatched : Latched c log h)
    (hsince : ∀ t, h.suppressedSince = some t → t ≤ now) (op : Op) :
    Told c now (log ++ [⟨now, (op.access c now h).penalty⟩]) (op.access c now h) := by
  have hraised : Latched c log (op.raise c (h.decayed c now)) :=
    ⟨by rw [Op.suppressed_raise]; exact hlatched.suppressed,
      fun t => by rw [Op.suppressedSince_raise]; exact hlatched.since t⟩
  have hlast : (op.access c now h).lastUpdate = now := op.lastUpdate_access c now h
  refine ⟨?_, ?_, ?_, fun t ht => ?_, ?_⟩
  · have hsettled := hraised.settle hc now
    rwa [← History.penalty_settle _ c now] at hsettled
  · rw [Op.access, History.penalty_settle]
    exact op.penalty_raise_self hc now h
  · simp [hlast]
  · rw [hlast]
    rw [Op.access, History.suppressedSince_settle, Op.suppressedSince_raise] at ht
    split_ifs at ht
    · exact hsince t ht
    · exact Option.some.inj ht ▸ Instant.le_refl now
    · exact hsince t ht
  · rw [hlast]
    exact Instant.le_refl now

theorem Told.since_le_now {now : Instant} {h : History R} (htold : Told c now log h) :
    ∀ t, h.suppressedSince = some t → t ≤ now :=
  fun t ht => Instant.le_trans (htold.since_le t ht) htold.lastUpdate_le

variable {now : Instant} {net : Network} {h? : Option (History R)}

theorem Told?.touch [PenaltyOrder R] (hc : c.Accepted) (h : Told? c now log h?) {op : Op} (ht : op.touches net = true) :
    Told? c now (logged op now net (h?.map (op.access c now)) log) (h?.map (op.access c now)) := by
  cases h? with
  | none => exact .none c now
  | some h₀ =>
    have htold := h.2 h₀ rfl
    refine ⟨fun hnone => (by cases hnone), fun h' hh' => ?_⟩
    obtain rfl := Option.some.inj hh'
    simp only [logged, Option.map_some, ht, if_true]
    exact told_access hc htold.latched htold.since_le_now op

theorem Told?.create [PenaltyOrder R] (hc : c.Accepted) (h : Told? c now log h?) {op : Op}
    (ht : op.touches net = true) :
    Told? c now (logged op now net (some (op.access c now (h?.getD (.fresh now)))) log)
      (some (op.access c now (h?.getD (.fresh now)))) := by
  cases h? with
  | some h₀ => exact h.touch hc ht
  | none =>
    refine ⟨fun hnone => (by cases hnone), fun h' hh' => ?_⟩
    obtain rfl := Option.some.inj hh'
    simp only [logged, ht, if_true, h.1 rfl, Option.getD_none]
    exact told_access hc (.fresh c now) (fun t hfresh => by cases hfresh) op

theorem Told?.keep (h : Told? c now log h?) {op : Op} (ht : op.touches net = false) :
    Told? c now (logged op now net h? log) h? := by
  cases h? with
  | none => exact .none c now
  | some h₀ => simpa [logged, ht] using h

theorem Told?.filter {op : Op} (h : Told? c now (logged op now net h? log) h?) (p : History R → Bool) :
    Told? c now (logged op now net (h?.filter p) log) (h?.filter p) := by
  cases h? with
  | none => exact .none c now
  | some h₀ =>
    by_cases hp : p h₀ = true
    · rwa [Option.filter_some_pos hp]
    · rw [Option.filter_some_neg (by simpa using hp)]
      exact .none c now

/-- Every operation keeps the history told by the log. -/
theorem Told?.effect [PenaltyOrder R] (hc : c.Accepted) (net : Network) (h : Told? c now log h?) (op : Op) :
    Told? c now (logged op now net (op.effect c now net h?) log) (op.effect c now net h?) := by
  cases op with
  | withdraw n =>
    by_cases hnet : net = n
    · simp only [Op.effect, if_pos hnet]
      exact h.create hc (by simp [Op.touches, hnet])
    · simp only [Op.effect, if_neg hnet]
      exact h.keep (by simp [Op.touches, Ne.symm hnet])
  | announce n attributeChanged =>
    by_cases hnet : net = n
    · simp only [Op.effect, if_pos hnet]
      exact h.create hc (by simp [Op.touches, hnet])
    · simp only [Op.effect, if_neg hnet]
      exact h.keep (by simp [Op.touches, Ne.symm hnet])
  | clear n =>
    by_cases hnet : net = n
    · simp only [Op.effect, if_pos hnet]
      exact .none c now
    · simp only [Op.effect, if_neg hnet]
      exact h.keep rfl
  | penalty n | isSuppressed n | reuseTime n | routeStats n =>
    by_cases hnet : net = n
    · simp only [Op.effect, if_pos hnet]
      exact h.touch hc (by simp [Op.touches, hnet])
    · simp only [Op.effect, if_neg hnet]
      exact h.keep (by simp [Op.touches, Ne.symm hnet])
  | totals | suppressedRoutes => exact h.touch hc rfl
  | purge => exact (h.touch hc rfl).filter _

/-- Every run keeps the history told by the log. -/
theorem Told?.run [PenaltyOrder R] (hc : c.Accepted) (net : Network) {s : Timed (Damper R)}
    (hconfig : s.state.config = c) (h : Told? c s.now log (s.state.routes.find? net)) (turns : List (Turn Op))
    {out : Outcome (Timed (Damper R)) (Notice R) (List (Answer R))} (hrun : run s turns = .ok out) :
    Told? c out.state.now (accesses net s log turns) (out.state.state.routes.find? net) := by
  induction turns generalizing s log out with
  | nil => exact (Timed.run_nil hrun).symm ▸ h
  | cons t rest ih =>
    cases t with
    | wait d =>
      obtain ⟨now, hnow, others, hrest, hstate, -⟩ := Timed.run_wait hrun
      have hlater : Told? c now log (s.state.routes.find? net) :=
        ⟨h.1, fun h₀ hh₀ => { h.2 h₀ hh₀ with
          lastUpdate_le := Instant.le_trans (h.2 h₀ hh₀).lastUpdate_le (Instant.le_of_advance hnow) }⟩
      simp only [accesses, hnow, hstate]
      exact ih (s := { s with now }) hconfig hlater hrest
    | perform op =>
      obtain ⟨others, hrest, hstate, -⟩ := Timed.run_perform hrun
      have hnext := h.effect hc net op
      rw [← hconfig, ← find?_perform, hconfig] at hnext
      simp only [accesses, hstate]
      exact ih (s := { s with state := (perform op s.now s.state).state })
        ((config_perform op s.now s.state).trans hconfig) hnext hrest

/-! ### The closed form -/

/-- what the log of a route says about its history -/
structure Hysteresis (c : Config R) (now : Instant) (log : List (Access R)) (h : History R) : Prop where
  /-- the history is that of the last access -/
  last : log.getLast? = some ⟨h.lastUpdate, h.penalty⟩
  /-- some access reached the suppress threshold, and none after it was below the reuse threshold -/
  suppressed_iff : h.suppressed = true ↔ ∃ j, Reaches c log j ∧ ¬ ∃ k, j < k ∧ Dips c log k
  /-- the time of the first such access after the last one below the reuse threshold -/
  suppressedSince_iff : ∀ t, h.suppressedSince = some t ↔
    ∃ j, IsLeast {j | Reaches c log j ∧ ∀ k, Dips c log k → k < j} j ∧ (log[j]?).map Access.time = some t
  suppressedSince_isSome : h.suppressedSince.isSome = h.suppressed
  reuse_le : h.suppressed = true → c.reuseThreshold ≤ h.penalty
  lt_suppress : h.suppressed = false → h.penalty < c.suppressThreshold
  suppressedSince_le : ∀ t, h.suppressedSince = some t → t ≤ h.lastUpdate
  lastUpdate_le : h.lastUpdate ≤ now

/-- there is a first crossing if there is any, and it is an access of the log -/
theorem exists_isLeast_crosses (h : ∃ j, Crosses c log j) :
    ∃ j a, IsLeast {j | Crosses c log j} j ∧ log[j]? = some a := by
  classical
  obtain ⟨a, ha, -⟩ := (Nat.find_spec h).1
  exact ⟨Nat.find h, a, ⟨Nat.find_spec h, fun k hk => Nat.find_min' h hk⟩, ha⟩

theorem Told.closedForm [PenaltyOrder R] (hc : c.Accepted) {h : History R} (htold : Told c now log h) :
    Hysteresis c now log h := by
  have hlast : log[log.length - 1]? = some ⟨h.lastUpdate, h.penalty⟩ := by
    rw [← List.getLast?_eq_getElem?]
    exact htold.last
  refine ⟨htold.last, ?_, htold.latched.since, ?_, fun hs => ?_, fun hs => ?_, htold.since_le,
    htold.lastUpdate_le⟩
  · simp only [htold.latched.suppressed, crosses_iff hc]
  · rw [Bool.eq_iff_iff, Option.isSome_iff_exists, htold.latched.suppressed]
    constructor
    · rintro ⟨t, ht⟩
      obtain ⟨j, hleast, -⟩ := (htold.latched.since t).mp ht
      exact ⟨j, hleast.1⟩
    · intro hcrossed
      obtain ⟨j, a, hleast, ha⟩ := exists_isLeast_crosses hcrossed
      exact ⟨a.time, (htold.latched.since a.time).mpr ⟨j, hleast, by rw [ha]; rfl⟩⟩
  · -- otherwise the last access would be below the reuse threshold
    obtain ⟨j, hreach, hafter⟩ := htold.latched.suppressed.mp hs
    refine PenaltyOrder.le_of_not_lt htold.number hc.reuse_self fun hlt => ?_
    have := hafter _ ⟨_, hlast, hlt⟩
    have := hreach.lt_length
    omega
  · -- otherwise the last access would be a crossing
    refine PenaltyOrder.lt_of_not_le hc.suppress_self htold.number fun hle => ?_
    have hreach : Reaches c log (log.length - 1) := ⟨_, hlast, hle⟩
    have hcrosses : Crosses c log (log.length - 1) := by
      refine ⟨hreach, fun k hk => ?_⟩
      have hne : k ≠ log.length - 1 := fun e => hreach.not_dips hc (e ▸ hk)
      have := hk.lt_length
      omega
    simp [htold.latched.suppressed.mpr ⟨_, hcrosses⟩] at hs

/-- in every reachable state some log tells the history of a route -/
theorem exists_log_of_reachable [PenaltyOrder R] {s : Timed (Damper R)} (hs : Reachable c s) {h : History R}
    (hstored : s.state.routes.find? net = some h) : ∃ log, Hysteresis c s.now log h := by
  obtain ⟨d, start, turns, out, hcreate, hrun, rfl⟩ := hs
  obtain ⟨hc, rfl⟩ := create_eq_ok_iff.mp hcreate
  have htold := Told?.run (s := ⟨start, ⟨c, .empty⟩⟩) hc net rfl (.none c start) turns hrun
  exact ⟨_, (htold.2 h hstored).closedForm hc⟩

/-- in every reachable state a route is suppressed if and only if it is known since when -/
theorem isSome_suppressedSince_of_reachable [PenaltyOrder R] {s : Timed (Damper R)} (hs : Reachable c s) {h : History R}
    (hstored : s.state.routes.find? net = some h) : h.suppressedSince.isSome = h.suppressed := by
  obtain ⟨log, htold⟩ := exists_log_of_reachable hs hstored
  exact htold.suppressedSince_isSome

/-- **Suppression in closed form.** After every run of a new damper, the log of a route tells whether the route is
suppressed and since when; a suppressed route has not dropped below the reuse threshold, any other has not reached the
suppress threshold. -/
theorem hysteresis [PenaltyOrder R] {d : Damper R} (hcreate : (create c).answer = .ok d) (start : Instant)
    (turns : List (Turn Op)) {out : Outcome (Timed (Damper R)) (Notice R) (List (Answer R))}
    (hrun : run ⟨start, d⟩ turns = .ok out) (net : Network) {h : History R}
    (hstored : out.state.state.routes.find? net = some h) :
    Hysteresis c out.state.now (accesses net ⟨start, d⟩ [] turns) h := by
  obtain ⟨hc, rfl⟩ := create_eq_ok_iff.mp hcreate
  have htold := Told?.run (s := ⟨start, ⟨c, .empty⟩⟩) hc net rfl (.none c start) turns hrun
  exact (htold.2 h hstored).closedForm hc

/-- Three withdrawals suppress a route; after half a half-life it still is. -/
theorem hysteresis_three_withdrawals :
    let net : Network := .v4 ⟨⟨0x0a000000⟩, 24⟩
    let turns : List (Turn Op) :=
      [.perform (.withdraw net), .perform (.withdraw net), .perform (.withdraw net), .wait (.ofSeconds 450),
        .perform (.isSuppressed net)]
    ∃ (d : Damper Float) (out : Outcome (Timed (Damper Float)) (Notice Float) (List (Answer Float)))
      (h : History Float), (create .default).answer = .ok d ∧ run ⟨.start, d⟩ turns = .ok out ∧
        out.state.state.routes.find? net = some h ∧ h.suppressed = true ∧ h.suppressedSince = some .start ∧
          Hysteresis .default out.state.now (accesses net ⟨.start, d⟩ [] turns) h := by
  intro net turns
  have hcreate : (create (.default : Config Float)).answer = .ok ⟨.default, .empty⟩ :=
    create_eq_ok_iff.mpr ⟨by decide +kernel, rfl⟩
  have hend : ((run ⟨.start, ⟨(.default : Config Float), .empty⟩⟩ turns).toOption.bind
      fun out => out.state.state.routes.find? net).any
        (fun h => h.suppressed && decide (h.suppressedSince = some .start)) = true := by decide +kernel
  cases hrun : run ⟨.start, ⟨(.default : Config Float), .empty⟩⟩ turns with
  | error fault =>
    rw [hrun] at hend
    cases hend
  | ok out =>
    rw [hrun] at hend
    obtain ⟨h, hstored, hsuppressed⟩ := (Option.any_eq_true _ _).mp hend
    simp only [Bool.and_eq_true, decide_eq_true_eq] at hsuppressed
    exact ⟨_, out, h, hcreate, hrun, hstored, hsuppressed.1, hsuppressed.2,
      hysteresis hcreate .start turns hrun net hstored⟩

end Damper

end RoutingReplay.Damping
