/-
Traces: the operations of a run, each with the state that it found.

`Timed.trace` lists the calls of a run in order. What is to hold of every operation of a run is said of the members of
its trace, what is to hold of a stretch of a run is said of an infix of the trace. An invariant of a run may look back at
the calls that came before: `history_of_run` carries it to the end of a run, `history_of_trace` to the state that a call
found.
-/
import RoutingReplay.Run

namespace RoutingReplay.Timed

variable {σ ε α κ : Type}

/-- an operation of a run and the state that it found -/
structure Call (σ κ : Type) where
  before : Timed σ
  op : κ

/-- the calls of a run, in order; if a fault ends the run, those before it -/
def trace (act : κ → Instant → σ → Outcome σ ε α) (s : Timed σ) : List (Turn κ) → List (Call σ κ)
  | [] => []
  | .wait d :: rest =>
    match s.now.advance d with
    | .error _ => []
    | .ok now => trace act { s with now } rest
  | .perform op :: rest => ⟨s, op⟩ :: trace act { s with state := (act op s.now s.state).state } rest

theorem length_trace_le (act : κ → Instant → σ → Outcome σ ε α) (s : Timed σ) (turns : List (Turn κ)) :
    (trace act s turns).length ≤ turns.length := by
  induction turns generalizing s with
  | nil => exact Nat.le_refl 0
  | cons t rest ih =>
    cases t with
    | wait d =>
      rw [trace]
      cases s.now.advance d with
      | error fault => exact Nat.zero_le _
      | ok now => exact Nat.le_succ_of_le (ih _)
    | perform op => exact Nat.succ_le_succ (ih _)

/-- What a run reports is what its calls report, one after another. -/
theorem journal_of_run {act : κ → Instant → σ → Outcome σ ε α} {s : Timed σ} {turns : List (Turn κ)}
    {out : Outcome (Timed σ) ε (List α)} (h : run act s turns = .ok out) :
    out.journal = (trace act s turns).flatMap fun call => (act call.op call.before.now call.before.state).journal := by
  induction turns generalizing s out with
  | nil =>
    cases h
    rfl
  | cons t rest ih =>
    cases t with
    | wait d =>
      simp only [run, turn] at h
      cases hnow : s.now.advance d with
      | error fault => simp [hnow] at h
      | ok now =>
        simp only [hnow, Outcome.silent] at h
        cases hrest : run act { s with now } rest with
        | error fault => simp [hrest] at h
        | ok others =>
          simp only [hrest, Except.ok.injEq, List.nil_append] at h
          rw [← h, trace, hnow]
          exact ih hrest
    | perform op =>
      simp only [run, turn] at h
      cases hrest : run act { s with state := (act op s.now s.state).state } rest with
      | error fault => simp [hrest] at h
      | ok others =>
        simp only [hrest, Except.ok.injEq] at h
        rw [← h, trace, List.flatMap_cons, ← ih hrest]

section

variable {act : κ → Instant → σ → Outcome σ ε α} {P : List (Call σ κ) → Timed σ → Prop}
  (wait : ∀ past s d now, P past s → s.now.advance d = .ok now → P past { s with now })
  (perform : ∀ past s op, P past s → P (past ++ [⟨s, op⟩]) { s with state := (act op s.now s.state).state })
  (past : List (Call σ κ)) {s : Timed σ}

include wait perform

/-- What holds of a state and the calls before it, if time and every operation keep it, holds after every run. -/
theorem history_of_run (hs : P past s) (turns : List (Turn κ)) {out : Outcome (Timed σ) ε (List α)}
    (h : run act s turns = .ok out) : P (past ++ trace act s turns) out.state := by
  induction turns generalizing past s out with
  | nil =>
    rw [run_nil h, trace, List.append_nil]
    exact hs
  | cons t rest ih =>
    cases t with
    | wait d =>
      obtain ⟨now, hnow, others, hrest, hstate, -⟩ := run_wait h
      simp only [trace, hnow, hstate]
      exact ih past (wait past s d now hs hnow) hrest
    | perform op =>
      obtain ⟨others, hrest, hstate, -⟩ := run_perform h
      simp only [trace, hstate]
      rw [List.append_cons]
      exact ih (past ++ [⟨s, op⟩]) (perform past s op hs) hrest

/-- It holds of the state that any call of the run finds, and of the calls before that. -/
theorem history_of_trace (hs : P past s) {turns : List (Turn κ)} {before after : List (Call σ κ)} {call : Call σ κ}
    (h : trace act s turns = before ++ call :: after) : P (past ++ before) call.before := by
  induction turns generalizing past s before with
  | nil =>
    rw [trace] at h
    exact absurd h (by simp)
  | cons t rest ih =>
    cases t with
    | wait d =>
      rw [trace] at h
      cases hnow : s.now.advance d with
      | error fault =>
        rw [hnow] at h
        exact absurd h (by simp)
      | ok now =>
        rw [hnow] at h
        exact ih past (wait past s d now hs hnow) h
    | perform op =>
      rw [trace] at h
      cases before with
      | nil =>
        rw [List.nil_append, List.cons.injEq] at h
        rw [← h.1, List.append_nil]
        exact hs
      | cons first others =>
        rw [List.cons_append, List.cons.injEq] at h
        rw [← h.1, List.append_cons]
        exact ih (past ++ [⟨s, op⟩]) (perform past s op hs) h.2

end

end RoutingReplay.Timed
