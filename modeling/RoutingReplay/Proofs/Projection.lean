/-
Runs with turns left out.

What a run means to a part of the state is its account: what the last state shows of that part, and what the answers
say about it, in order. If the operations that do not concern the part leave it alone and say nothing about it, and the
others do to it what depends on it alone, then the account of a run is the account of the turns that concern the part
(`account_filter`).

The induction is on the turns. A relation `P` between the states of the two runs carries it; it says at least that both
show the same of the part, and it may hold invariants of either state besides.
-/
import RoutingReplay.Run

namespace RoutingReplay

/-- a wait, or an operation that passes a test -/
def Turn.passes {κ : Type} (test : κ → Bool) : Turn κ → Bool
  | .wait _ => true
  | .perform op => test op

/-- what a run means to a part of the state -/
structure Account (β γ : Type) where
  /-- what the last state shows of the part -/
  shown : β
  /-- what the answers say about it, in order -/
  told : List γ

namespace Timed

variable {σ ε α κ β γ : Type}

/-- what the answers of a run say about a part of the state; `tell` says what the answer of one operation does -/
def told (tell : κ → α → Option γ) : List (Turn κ) → List α → List γ
  | .wait _ :: rest, answers => told tell rest answers
  | .perform op :: rest, answer :: answers => (tell op answer).toList ++ told tell rest answers
  | _, _ => []

/-- the account of a run -/
def account (act : κ → Instant → σ → Outcome σ ε α) (view : Timed σ → β) (tell : κ → α → Option γ) (s : Timed σ)
    (turns : List (Turn κ)) : Except Fault (Account β γ) :=
  (run act s turns).map fun out => ⟨view out.state, told tell turns out.answer⟩

section

variable {act : κ → Instant → σ → Outcome σ ε α} {view : Timed σ → β} {tell : κ → α → Option γ} {s : Timed σ}

/-- the account of a run that starts with a wait is that of the turns after it -/
theorem account_wait (d : Duration) (rest : List (Turn κ)) :
    account act view tell s (.wait d :: rest) =
      (s.now.advance d).bind fun now => account act view tell { s with now } rest := by
  simp only [account, run, turn]
  cases s.now.advance d with
  | error fault => rfl
  | ok now =>
    simp only [Except.bind, Outcome.silent]
    cases run act { s with now } rest with
    | error fault => rfl
    | ok others => rfl

/-- the account of a run that starts with an operation begins with what its answer says -/
theorem account_perform (op : κ) (rest : List (Turn κ)) :
    account act view tell s (.perform op :: rest) =
      (account act view tell { s with state := (act op s.now s.state).state } rest).map fun later =>
        { later with told := (tell op (act op s.now s.state).answer).toList ++ later.told } := by
  simp only [account, run, turn]
  cases run act { s with state := (act op s.now s.state).state } rest with
  | error fault => rfl
  | ok others => rfl

end

/-- **What does not concern a part of the state can be left out**, as far as the account of that part goes. -/
theorem account_filter {act : κ → Instant → σ → Outcome σ ε α} {view : Timed σ → β} {tell : κ → α → Option γ}
    {concerns : κ → Bool} {P : Timed σ → Timed σ → Prop} (agree : ∀ s s', P s s' → s.now = s'.now ∧ view s = view s')
    (wait : ∀ s s' now, P s s' → P { s with now } { s' with now })
    (skip : ∀ s s' op, concerns op = false → P s s' → P { s with state := (act op s.now s.state).state } s' ∧
      tell op (act op s.now s.state).answer = none)
    (keep : ∀ s s' op, concerns op = true → P s s' →
      P { s with state := (act op s.now s.state).state } { s' with state := (act op s'.now s'.state).state } ∧
        tell op (act op s.now s.state).answer = tell op (act op s'.now s'.state).answer)
    {s s' : Timed σ} (hs : P s s') (turns : List (Turn κ)) :
    account act view tell s turns = account act view tell s' (turns.filter (Turn.passes concerns)) := by
  induction turns generalizing s s' with
  | nil =>
    have hview : view s = view s' := (agree s s' hs).2
    exact congrArg (fun shown => Except.ok (Account.mk shown [])) hview
  | cons t rest ih =>
    cases t with
    | wait d =>
      have hnow : s.now = s'.now := (agree s s' hs).1
      rw [List.filter_cons_of_pos rfl, account_wait, account_wait, hnow]
      congr 1
      funext now
      exact ih (wait s s' now hs)
    | perform op =>
      have hpasses : Turn.passes concerns (.perform op) = concerns op := rfl
      cases hop : concerns op with
      | false =>
        obtain ⟨hnext, hsilent⟩ := skip s s' op hop hs
        rw [List.filter_cons_of_neg (by rw [hpasses, hop]; exact Bool.false_ne_true), account_perform, hsilent,
          ← ih hnext]
        cases account act view tell { s with state := (act op s.now s.state).state } rest with
        | error fault => rfl
        | ok later => rfl
      | true =>
        obtain ⟨hnext, htold⟩ := keep s s' op hop hs
        rw [List.filter_cons_of_pos (hpasses.trans hop), account_perform, account_perform, ih hnext, htold]

end Timed

end RoutingReplay
