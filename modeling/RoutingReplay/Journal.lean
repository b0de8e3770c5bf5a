/-
Journals: what the engines report while they work.

Every operation of an engine is a function from a state to an `Outcome`: the next state, the answer, and the entries
that it adds to the journal. An entry is an event together with the scopes that were open when it happened, outermost
first. `Outcome.within` opens one more scope around everything an operation reported, `Outcome.forEach` runs one
operation after another on one state, and `Outcome.overValues` runs an operation on each value of a map.
-/
import RoutingReplay.Address.Network
import RoutingReplay.SortedMap

namespace RoutingReplay

/-- what an entry of a journal happened inside of -/
inductive Scope where
  | database (area : Address4)
  | area (id : Address4)
  | redistribution (net : Network4)
  | damping
  | route (net : Network)
  deriving DecidableEq

/-- an event and the scopes around it, outermost first -/
structure Entry (ε : Type) where
  scopes : List Scope
  event : ε
  deriving DecidableEq

/-- the result of an operation on a state -/
structure Outcome (σ ε α : Type) where
  state : σ
  journal : List (Entry ε)
  answer : α

namespace Outcome

variable {σ ε α β κ : Type}

/-- nothing reported -/
def silent (state : σ) (answer : α) : Outcome σ ε α := ⟨state, [], answer⟩

/-- the same outcome with one more scope around its entries -/
def within (scope : Scope) (out : Outcome σ ε α) : Outcome σ ε α :=
  { out with journal := out.journal.map fun entry => { entry with scopes := scope :: entry.scopes } }

/-- the same outcome with an event reported ahead of it -/
def after (event : ε) (out : Outcome σ ε α) : Outcome σ ε α :=
  { out with journal := ⟨[], event⟩ :: out.journal }

/-- the same outcome with another answer -/
def map (f : α → β) (out : Outcome σ ε α) : Outcome σ ε β := ⟨out.state, out.journal, f out.answer⟩

/-- one operation after another, with the answers in the same order -/
def forEach (act : κ → σ → Outcome σ ε α) : List κ → σ → Outcome σ ε (List α)
  | [], state => silent state []
  | k :: rest, state =>
    let first := act k state
    let others := forEach act rest first.state
    ⟨others.state, first.journal ++ others.journal, first.answer :: others.answer⟩

/-- the same operation on every value of a map, by ascending keys -/
def overValues [KeyOrder κ] (act : κ → σ → Outcome σ ε α) (m : SortedMap κ σ) : Outcome (SortedMap κ σ) ε (List α) :=
  ⟨m.mapValues fun k v => (act k v).state,
    m.entries.flatMap fun e => (act e.1 e.2).journal,
    m.entries.map fun e => (act e.1 e.2).answer⟩

@[simp] theorem state_within (scope : Scope) (out : Outcome σ ε α) : (out.within scope).state = out.state := rfl

@[simp] theorem answer_within (scope : Scope) (out : Outcome σ ε α) : (out.within scope).answer = out.answer := rfl

@[simp] theorem state_after (event : ε) (out : Outcome σ ε α) : (out.after event).state = out.state := rfl

@[simp] theorem answer_after (event : ε) (out : Outcome σ ε α) : (out.after event).answer = out.answer := rfl

/-- The events do not depend on the scopes around them. -/
theorem events_within (scope : Scope) (out : Outcome σ ε α) :
    (out.within scope).journal.map Entry.event = out.journal.map Entry.event := by
  simp [within]

end Outcome

end RoutingReplay
