/-
The routing process and the damper do not get into each other's way.

An event is for the routing process, for the damper, or, if it advances the clock, for both; all that the two engines
share is the clock. What a session shows of one engine is its state together with the time (`routerView`, `damperView`).
An event for the other engine does not change it, and an event for this engine changes it in a way that depends on it
alone. So events for the other engine can be left out (`replay_filter`), and any two orders of the events that agree for
each of the engines end in the same session (`engines_independent`).
-/
import RoutingReplay.Proofs.Replay.Refusal

namespace RoutingReplay.Replay

theorem exists_of_map_eq_ok {ε α β : Type} {f : α → β} {x : Except ε α} {b : β} (h : x.map f = .ok b) :
    ∃ a, x = .ok a ∧ f a = b := by
  cases x with
  | error e => cases h
  | ok a => exact ⟨a, rfl, Except.ok.inj h⟩

/-- two computations that agree in a view go on to agree in it -/
theorem map_bind_congr {ε α β : Type} {view : α → β} {x y : Except ε α} {f g : α → Except ε α}
    (h : x.map view = y.map view) (hfg : ∀ a b, view a = view b → (f a).map view = (g b).map view) :
    (x.bind f).map view = (y.bind g).map view := by
  cases x with
  | error e =>
    cases y with
    | error e' => exact h
    | ok b => cases h
  | ok a =>
    cases y with
    | error e' => cases h
    | ok b => exact hfg a b (Except.ok.inj h)

theorem exists_ok_of_any {ε α : Type} {x : Except ε α} {p : α → Bool} (h : x.toOption.any p = true) :
    ∃ a, x = .ok a ∧ p a = true := by
  cases x with
  | error e => cases h
  | ok a => exact ⟨a, rfl, h⟩

/-! ## Events and engines -/

/-- whether an event is for the routing process -/
def Event.concernsRouter : Event → Bool
  | .routeWithdrawn _ | .routeAnnounced _ _ | .clearHistory _ => false
  | _ => true

/-- whether an event is for the damper -/
def Event.concernsDamper : Event → Bool
  | .lsaReceived _ _ _ | .routerLsaOriginated _ _ | .redistribute _ | .age _ | .refresh => false
  | _ => true

/-- the event in a line of a file, if it holds one -/
def Event.ofLine? (line : List Char) : Option Event :=
  if Session.isBlankLine line then none else Event.parse? line

/-- the events in the lines of a file -/
def Event.ofLines (lines : List (List Char)) : List Event := lines.filterMap Event.ofLine?

open Ospf (Router)

namespace Session

/-! ## Replays of events -/

/-- the session after an event, whether or not it ends in an error -/
def step (s : Session) (event : Event) : Except Fault Session :=
  (s.process event).answer.map fun _ => (s.process event).state

/-- the session after one event after another; a fault ends the replay -/
def replay (s : Session) : List Event → Except Fault Session
  | [] => .ok s
  | event :: rest => (s.step event).bind fun next => next.replay rest

/-- A line that holds no event changes nothing, be it blank or refused. -/
theorem processLine_of_none {line : List Char} (h : Event.ofLine? line = none) (s : Session) (number : Nat) :
    ∃ result, s.processLine number line = .silent s (.ok result) := by
  unfold Event.ofLine? at h
  unfold processLine
  split at h
  · rename_i hblank
    exact ⟨.ok (), by rw [if_pos hblank]⟩
  · rename_i hblank
    exact ⟨.error (.eventParse number), by rw [if_neg hblank, h]⟩

theorem processLine_of_some {line : List Char} {event : Event} (h : Event.ofLine? line = some event) (s : Session)
    (number : Nat) : s.processLine number line = s.process event := by
  unfold Event.ofLine? at h
  unfold processLine
  split at h
  · cases h
  · rename_i hblank
    rw [if_neg hblank, h]

/-- Lines are replayed as the events that they hold. -/
theorem replay_ofLines (s : Session) (number : Nat) (lines : List (List Char)) :
    s.replay (Event.ofLines lines) =
      (s.processLines number lines).answer.map fun _ => (s.processLines number lines).state := by
  induction lines generalizing s number with
  | nil => rfl
  | cons line rest ih =>
    rw [Event.ofLines, List.filterMap_cons, processLines]
    cases hline : Event.ofLine? line with
    | none =>
      obtain ⟨result, hprocess⟩ := processLine_of_none hline s number
      rw [hprocess]
      exact ih s (number + 1)
    | some event =>
      rw [processLine_of_some hline, replay, step]
      cases (s.process event).answer with
      | error fault => rfl
      | ok result => exact ih (s.process event).state (number + 1)

/-! ## What a session shows of an engine -/

/-- the routing process and the time -/
def routerView (s : Session) : Instant × Router := (s.now, s.ospf)

/-- the damper and the time -/
def damperView (s : Session) : Instant × Damping.Damper Float := (s.now, s.damping)

theorem eq_of_views {s s' : Session} (hrouter : s.routerView = s'.routerView)
    (hdamper : s.damperView = s'.damperView) : s = s' := by
  obtain ⟨now, p, d⟩ := s
  obtain ⟨now', p', d'⟩ := s'
  cases hrouter
  cases hdamper
  rfl

/-- An advance of the clock moves the time and ages the databases. -/
theorem step_clockAdvance (s : Session) (seconds : UInt64) :
    s.step (.clockAdvance seconds) = (s.now.advance (.ofSeconds seconds.toNat)).map fun now =>
      { s with now, ospf := (s.ospf.age now seconds.toNat).state } := by
  have hclock : s.clockAt (.clockAdvance seconds) =
      (s.now.advance (.ofSeconds seconds.toNat)).map fun now => { s with now } := by rw [clockAt]
  rw [step, process, hclock]
  cases s.now.advance (.ofSeconds seconds.toNat) with
  | error fault => rfl
  | ok now => rfl

/-- An event that is not for the routing process succeeds and changes nothing of it. -/
theorem routerView_step_of_not {event : Event} (h : event.concernsRouter = false) (s : Session) :
    (s.step event).map routerView = .ok s.routerView := by
  cases event with
  | routeWithdrawn net => rfl
  | routeAnnounced net attributeChanged => rfl
  | clearHistory net => rfl
  | _ => cases h

/-- An event that is not for the damper changes nothing of it, be it an error or not. -/
theorem damperView_step_of_not {event : Event} (h : event.concernsDamper = false) (s : Session) :
    (s.step event).map damperView = .ok s.damperView := by
  cases event with
  | lsaReceived area hdr body => rfl
  | routerLsaOriginated area links => rfl
  | redistribute route => rfl
  | age elapsed => rfl
  | refresh => rfl
  | _ => cases h

/-- What an event does to the routing process depends on the routing process and the time. -/
theorem routerView_step_congr {event : Event} (hevent : event.concernsRouter = true) {s s' : Session}
    (h : s.routerView = s'.routerView) : (s.step event).map routerView = (s'.step event).map routerView := by
  obtain ⟨now, p, d⟩ := s
  obtain ⟨now', p', d'⟩ := s'
  cases h
  cases event with
  | lsaReceived area hdr body => rfl
  | routerLsaOriginated area links => rfl
  | redistribute route => rfl
  | age elapsed => rfl
  | refresh => rfl
  | clockAdvance seconds =>
    rw [step_clockAdvance, step_clockAdvance]
    cases now.advance (.ofSeconds seconds.toNat) with
    | error fault => rfl
    | ok later => rfl
  | _ => cases hevent

/-- What an event does to the damper depends on the damper and the time. -/
theorem damperView_step_congr {event : Event} (hevent : event.concernsDamper = true) {s s' : Session}
    (h : s.damperView = s'.damperView) : (s.step event).map damperView = (s'.step event).map damperView := by
  obtain ⟨now, p, d⟩ := s
  obtain ⟨now', p', d'⟩ := s'
  cases h
  cases event with
  | routeWithdrawn net => rfl
  | routeAnnounced net attributeChanged => rfl
  | clearHistory net => rfl
  | clockAdvance seconds =>
    rw [step_clockAdvance, step_clockAdvance]
    cases now.advance (.ofSeconds seconds.toNat) with
    | error fault => rfl
    | ok later => rfl
  | _ => cases hevent

/-! ## Replays -/

/-- Events that do not change a view can be left out, as far as the view goes. -/
theorem replay_filter {β : Type} {view : Session → β} {concerns : Event → Bool}
    (skip : ∀ event, concerns event = false → ∀ s : Session, (s.step event).map view = .ok (view s))
    (congr : ∀ event, concerns event = true → ∀ s s' : Session, view s = view s' →
      (s.step event).map view = (s'.step event).map view)
    (events : List Event) {s s' : Session} (h : view s = view s') :
    (s.replay events).map view = (s'.replay (events.filter concerns)).map view := by
  induction events generalizing s s' with
  | nil => exact congrArg Except.ok h
  | cons event rest ih =>
    have hrest : ∀ next next', view next = view next' →
        (next.replay rest).map view = (next'.replay (rest.filter concerns)).map view := fun _ _ => ih
    cases hconcerns : concerns event with
    | false =>
      have hstep : (s.step event).map view = (Except.ok s').map view := by
        rw [skip event hconcerns s, h]
        rfl
      rw [List.filter_cons_of_neg (by simp [hconcerns])]
      exact map_bind_congr (y := Except.ok s') hstep hrest
    | true =>
      rw [List.filter_cons_of_pos hconcerns]
      exact map_bind_congr (congr event hconcerns s s' h) hrest

/-- what a replay shows of the routing process is what the events for it make of it -/
theorem routerView_replay (s : Session) (events : List Event) :
    (s.replay events).map routerView = (s.replay (events.filter Event.concernsRouter)).map routerView :=
  replay_filter (fun _ h => routerView_step_of_not h) (fun _ h _ _ => routerView_step_congr h) events rfl

/-- what a replay shows of the damper is what the events for it make of it -/
theorem damperView_replay (s : Session) (events : List Event) :
    (s.replay events).map damperView = (s.replay (events.filter Event.concernsDamper)).map damperView :=
  replay_filter (fun _ h => damperView_step_of_not h) (fun _ h _ _ => damperView_step_congr h) events rfl

/-- Two orders of events that agree for each of the engines end in the same session. -/
theorem replay_interleaved {s t : Session} {events events' : List Event} (h : s.replay events = .ok t)
    (hrouter : events'.filter Event.concernsRouter = events.filter Event.concernsRouter)
    (hdamper : events'.filter Event.concernsDamper = events.filter Event.concernsDamper) :
    s.replay events' = .ok t := by
  have hrouterView : (s.replay events').map routerView = .ok t.routerView := by
    rw [routerView_replay, hrouter, ← routerView_replay, h]
    rfl
  have hdamperView : (s.replay events').map damperView = .ok t.damperView := by
    rw [damperView_replay, hdamper, ← damperView_replay, h]
    rfl
  obtain ⟨t', ht', hrouterView⟩ := exists_of_map_eq_ok hrouterView
  rw [ht'] at hdamperView
  rw [ht', eq_of_views hrouterView (Except.ok.inj hdamperView)]

/-! ## Summaries -/

theorem areas_summary {s s' : Session} (h : s.routerView = s'.routerView) :
    s.summary.answer.areas = s'.summary.answer.areas :=
  congrArg (fun view : Instant × Router => view.2.areas.values.map AreaSummary.ofArea) h

theorem damping_summary {s s' : Session} (h : s.damperView = s'.damperView) :
    s.summary.answer.damping = s'.summary.answer.damping ∧
      s.summary.answer.suppressedRoutes = s'.summary.answer.suppressedRoutes := by
  obtain ⟨now, p, d⟩ := s
  obtain ⟨now', p', d'⟩ := s'
  cases h
  exact ⟨rfl, rfl⟩

/-- **The routing process and the damper are independent of each other.** Let a replay of some events come to its end.
Without the events that are for the damper alone, it ends with the same routing process and the same areas in its
summary. Without the events that are for the routing process alone, it ends with the same damper and the same routes in
its summary. So a file that holds the same events in an order which is the same for each of the engines, advances of the
clock counting for both, ends in the same session and the same summary. -/
theorem engines_independent {s t : Session} {events : List Event} (h : s.replay events = .ok t) :
    (∃ u, s.replay (events.filter Event.concernsRouter) = .ok u ∧ u.now = t.now ∧ u.ospf = t.ospf ∧
      u.summary.answer.areas = t.summary.answer.areas) ∧
      (∃ u, s.replay (events.filter Event.concernsDamper) = .ok u ∧ u.now = t.now ∧ u.damping = t.damping ∧
        u.summary.answer.damping = t.summary.answer.damping ∧
          u.summary.answer.suppressedRoutes = t.summary.answer.suppressedRoutes) ∧
      ∀ number lines,
        (Event.ofLines lines).filter Event.concernsRouter = events.filter Event.concernsRouter →
        (Event.ofLines lines).filter Event.concernsDamper = events.filter Event.concernsDamper →
          (s.processLines number lines).answer = .ok () ∧ (s.processLines number lines).state = t ∧
            (s.processLines number lines).state.summary.answer = t.summary.answer := by
  refine ⟨?_, ?_, ?_⟩
  · have hview := routerView_replay s events
    rw [h] at hview
    obtain ⟨u, hu, hview⟩ := exists_of_map_eq_ok hview.symm
    exact ⟨u, hu, congrArg Prod.fst hview, congrArg Prod.snd hview, areas_summary hview⟩
  · have hview := damperView_replay s events
    rw [h] at hview
    obtain ⟨u, hu, hview⟩ := exists_of_map_eq_ok hview.symm
    exact ⟨u, hu, congrArg Prod.fst hview, congrArg Prod.snd hview, damping_summary hview⟩
  · intro number lines hrouter hdamper
    have hlines := replay_interleaved h hrouter hdamper
    rw [replay_ofLines s number] at hlines
    obtain ⟨u, hanswer, hstate⟩ := exists_of_map_eq_ok hlines
    exact ⟨hanswer, hstate, by rw [hstate]⟩

def originationLine : List Char := "\x7b\"router-lsa-orig\":\x7b\"area_id\":\"0.0.0.0\"\x7d\x7d".toList

def minuteLine : List Char := "\x7b\"clock-advance\":\x7b\"secs\":60\x7d\x7d".toList

/-- a withdrawal and an origination, and after a minute a withdrawal and a refresh -/
def mixedEvents : List Event :=
  [.routeWithdrawn (.v4 ⟨.ofOctets 10 0 0 0, ⟨24, by decide⟩⟩), .routerLsaOriginated .unspecified [], .clockAdvance 60,
    .routeWithdrawn (.v4 ⟨.ofOctets 10 0 0 0, ⟨24, by decide⟩⟩), .refresh]

/-- the same with each pair the other way round, and a line that holds nothing -/
def reorderedLines : List (List Char) :=
  [originationLine, withdrawalLine, minuteLine, [' '], "\"refresh\"".toList, withdrawalLine]

/-- what the engines make of it, each alone and both together -/
theorem engines_independent_reordered :
    ∃ s t, (create backboneOnly).answer = .ok s ∧ s.replay mixedEvents = .ok t ∧ t.damping.routes.size = 1 ∧
      (∃ u, s.replay (mixedEvents.filter Event.concernsRouter) = .ok u ∧ u.ospf = t.ospf) ∧
      (∃ u, s.replay (mixedEvents.filter Event.concernsDamper) = .ok u ∧ u.damping = t.damping) ∧
      (s.processLines 1 reorderedLines).state.summary.answer = t.summary.answer := by
  have hcreate : ((create backboneOnly).answer.toOption.any fun s =>
      (s.replay mixedEvents).toOption.any fun t => t.damping.routes.size = 1) = true := by decide +kernel
  obtain ⟨s, hs, hreplay⟩ := exists_ok_of_any hcreate
  obtain ⟨t, ht, hsize⟩ := exists_ok_of_any hreplay
  have hrouter : (Event.ofLines reorderedLines).filter Event.concernsRouter =
      mixedEvents.filter Event.concernsRouter := by decide +kernel
  have hdamper : (Event.ofLines reorderedLines).filter Event.concernsDamper =
      mixedEvents.filter Event.concernsDamper := by decide +kernel
  obtain ⟨⟨u, hu, -, hospf, -⟩, ⟨u', hu', -, hdamping, -⟩, hlines⟩ := engines_independent ht
  exact ⟨s, t, hs, ht, of_decide_eq_true hsize, ⟨u, hu, hospf⟩, ⟨u', hu', hdamping⟩,
    (hlines 1 reorderedLines hrouter hdamper).2.2⟩

end Session

end RoutingReplay.Replay
