/-
Runs: operations on an engine, one after another, with time passing between them.

An engine takes part through `act`, which says what one of its operations results in at an instant. A run is a list of
turns. Each turn is an operation or a wait, and the engine does nothing while time passes. Only a wait that takes the
clock out of its range ends a run early.

`run_append` splits a run in two, `run_wait` and `run_perform` take its first turn off. What holds after every run
follows from what a single turn keeps (`run_invariant`), and so does what holds between two runs of the same turns
(`run_related`).
-/
import RoutingReplay.Clock
import RoutingReplay.Journal

namespace RoutingReplay

/-- a state at an instant -/
structure Timed (σ : Type) where
  now : Instant
  state : σ
  deriving DecidableEq

/-- one thing that happens in a run -/
inductive Turn (κ : Type) where
  | wait (d : Duration)
  | perform (op : κ)
  deriving DecidableEq

namespace Timed

variable {σ ε α κ : Type}

/-- one turn; an operation answers, a wait does not -/
def turn (act : κ → Instant → σ → Outcome σ ε α) (s : Timed σ) :
    Turn κ → Except Fault (Outcome (Timed σ) ε (List α))
  | .wait d =>
    match s.now.advance d with
    | .error fault => .error fault
    | .ok now => .ok (.silent { s with now } [])
  | .perform op =>
    let out := act op s.now s.state
    .ok ⟨{ s with state := out.state }, out.journal, [out.answer]⟩

/-- a whole run, with the answers in order -/
def run (act : κ → Instant → σ → Outcome σ ε α) (s : Timed σ) :
    List (Turn κ) → Except Fault (Outcome (Timed σ) ε (List α))
  | [] => .ok (.silent s [])
  | t :: rest =>
    match turn act s t with
    | .error fault => .error fault
    | .ok first =>
      match run act first.state rest with
      | .error fault => .error fault
      | .ok others => .ok ⟨others.state, first.journal ++ others.journal, first.answer ++ others.answer⟩

/-- A run in two parts is the second part after the first. -/
theorem run_append (act : κ → Instant → σ → Outcome σ ε α) (s : Timed σ) (ts ts' : List (Turn κ)) :
    run act s (ts ++ ts') =
      match run act s ts with
      | .error fault => .error fault
      | .ok first =>
        match run act first.state ts' with
        | .error fault => .error fault
        | .ok others => .ok ⟨others.state, first.journal ++ others.journal, first.answer ++ others.answer⟩ := by
  induction ts generalizing s with
  | nil =>
    simp only [List.nil_append, run, Outcome.silent]
    cases run act s ts' <;> rfl
  | cons t rest ih =>
    simp only [List.cons_append, run]
    cases turn act s t with
    | error fault => rfl
    | ok first =>
      simp only [ih]
      cases run act first.state rest with
      | error fault => rfl
      | ok middle =>
        simp only
        cases run act middle.state ts' with
        | error fault => rfl
        | ok others => simp only [List.append_assoc]

/-- A run goes on with one more turn. -/
theorem run_concat {act : κ → Instant → σ → Outcome σ ε α} {s : Timed σ} {ts : List (Turn κ)} {t : Turn κ}
    {out last : Outcome (Timed σ) ε (List α)} (h : run act s ts = .ok out) (ht : turn act out.state t = .ok last) :
    ∃ longer, run act s (ts ++ [t]) = .ok longer ∧ longer.state = last.state := by
  rw [run_append]
  simp only [h, run, ht, Outcome.silent]
  exact ⟨_, rfl, rfl⟩

/-- A run that starts with a wait goes on from the later instant. -/
theorem run_wait {act : κ → Instant → σ → Outcome σ ε α} {s : Timed σ} {d : Duration} {rest : List (Turn κ)}
    {out : Outcome (Timed σ) ε (List α)} (h : run act s (.wait d :: rest) = .ok out) :
    ∃ now, s.now.advance d = .ok now ∧ ∃ others, run act { s with now } rest = .ok others ∧
      out.state = others.state ∧ out.answer = others.answer := by
  simp only [run, turn] at h
  cases hnow : s.now.advance d with
  | error fault => simp [hnow] at h
  | ok now =>
    simp only [hnow] at h
    cases hrest : run act { s with now } rest with
    | error fault => simp [Outcome.silent, hrest] at h
    | ok others =>
      simp only [Outcome.silent, hrest, Except.ok.injEq] at h
      subst h
      exact ⟨now, rfl, others, hrest, rfl, rfl⟩

/-- A run that starts with an operation goes on from the state that it results in. -/
theorem run_perform {act : κ → Instant → σ → Outcome σ ε α} {s : Timed σ} {op : κ} {rest : List (Turn κ)}
    {out : Outcome (Timed σ) ε (List α)} (h : run act s (.perform op :: rest) = .ok out) :
    ∃ others, run act { s with state := (act op s.now s.state).state } rest = .ok others ∧
      out.state = others.state ∧ out.answer = (act op s.now s.state).answer :: others.answer := by
  simp only [run, turn] at h
  cases hrest : run act { s with state := (act op s.now s.state).state } rest with
  | error fault => simp [hrest] at h
  | ok others =>
    simp only [hrest, Except.ok.injEq] at h
    subst h
    exact ⟨others, rfl, rfl, rfl⟩

/-- A run may start with a wait that the clock can make. -/
theorem exists_run_wait {act : κ → Instant → σ → Outcome σ ε α} {s : Timed σ} {d : Duration} {now : Instant}
    {rest : List (Turn κ)} {others : Outcome (Timed σ) ε (List α)} (hnow : s.now.advance d = .ok now)
    (h : run act { s with now } rest = .ok others) :
    ∃ out, run act s (.wait d :: rest) = .ok out ∧ out.state = others.state := by
  simp only [run, turn, hnow, Outcome.silent, h]
  exact ⟨_, rfl, rfl⟩

/-- A run may start with any operation. -/
theorem exists_run_perform {act : κ → Instant → σ → Outcome σ ε α} {s : Timed σ} {op : κ} {rest : List (Turn κ)}
    {others : Outcome (Timed σ) ε (List α)} (h : run act { s with state := (act op s.now s.state).state } rest = .ok others) :
    ∃ out, run act s (.perform op :: rest) = .ok out ∧ out.state = others.state := by
  simp only [run, turn, h]
  exact ⟨_, rfl, rfl⟩

theorem run_nil {act : κ → Instant → σ → Outcome σ ε α} {s : Timed σ} {out : Outcome (Timed σ) ε (List α)}
    (h : run act s [] = .ok out) : out.state = s := by
  simp only [run, Except.ok.injEq] at h
  exact h ▸ rfl

/-- What time keeps and every operation keeps holds after every run. -/
theorem run_invariant {act : κ → Instant → σ → Outcome σ ε α} {P : Timed σ → Prop}
    (wait : ∀ s d now, P s → s.now.advance d = .ok now → P { s with now })
    (perform : ∀ s op, P s → P { s with state := (act op s.now s.state).state }) {s : Timed σ} (hs : P s)
    (ts : List (Turn κ)) {out : Outcome (Timed σ) ε (List α)} (h : run act s ts = .ok out) : P out.state := by
  induction ts generalizing s out with
  | nil => exact (run_nil h).symm ▸ hs
  | cons t rest ih =>
    cases t with
    | wait d =>
      obtain ⟨now, hnow, others, hrest, hstate, -⟩ := run_wait h
      exact hstate ▸ ih (wait s d now hs hnow) hrest
    | perform op =>
      obtain ⟨others, hrest, hstate, -⟩ := run_perform h
      exact hstate ▸ ih (perform s op hs) hrest

/-- Time does not go back. -/
theorem now_le_of_run {act : κ → Instant → σ → Outcome σ ε α} {s : Timed σ} {ts : List (Turn κ)}
    {out : Outcome (Timed σ) ε (List α)} (h : run act s ts = .ok out) : s.now ≤ out.state.now := by
  refine run_invariant (P := fun s' => s.now ≤ s'.now) ?_ ?_ (Instant.le_refl s.now) ts h
  · intro s' d now hs hnow
    exact Instant.le_trans hs (Instant.le_of_advance hnow)
  · intro s' op hs
    exact hs

/-- Two runs of the same turns stay related if time and every operation keep their states related. -/
theorem run_related (act : κ → Instant → σ → Outcome σ ε α) {P : Timed σ → Timed σ → Prop}
    (now : ∀ s s', P s s' → s.now = s'.now)
    (wait : ∀ s s' now, P s s' → P { s with now } { s' with now })
    (perform : ∀ s s' op, P s s' →
      P { s with state := (act op s.now s.state).state } { s' with state := (act op s'.now s'.state).state })
    {s s' : Timed σ} (hs : P s s') (ts : List (Turn κ)) :
    match run act s ts, run act s' ts with
    | .ok out, .ok out' => P out.state out'.state
    | .error fault, .error fault' => fault = fault'
    | _, _ => False := by
  induction ts generalizing s s' with
  | nil => exact hs
  | cons t rest ih =>
    cases t with
    | wait d =>
      simp only [run, turn, ← now s s' hs]
      cases s.now.advance d with
      | error fault => simp only
      | ok later =>
        have hrest := ih (wait s s' later hs)
        revert hrest
        simp only [Outcome.silent]
        cases run act { s with now := later } rest <;> cases run act { s' with now := later } rest <;> exact id
    | perform op =>
      have hrest := ih (perform s s' op hs)
      revert hrest
      simp only [run, turn]
      cases run act { s with state := (act op s.now s.state).state } rest <;>
        cases run act { s' with state := (act op s'.now s'.state).state } rest <;> exact id

end Timed

end RoutingReplay
