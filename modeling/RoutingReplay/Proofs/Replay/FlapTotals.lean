/-
The flaps in the summary of a replay.

Of the events of a replay the damper is told of flaps, of routes that are cleared and of the time that passes. So a replay
runs the damper through turns that can be read off the events (`Event.damperTurn?`, `run_of_replay`), and what holds of
the counts after every run holds after every replay. The summary only sums them up.
-/
import RoutingReplay.Proofs.Damping.FlapAccounting
import RoutingReplay.Proofs.Replay.Independence

namespace RoutingReplay.Replay

open RoutingReplay.Damping (Damper)

/-- what the damper is told of an event -/
def Event.damperTurn? : Event → Option (Turn Damper.Op)
  | .routeWithdrawn net => some (.perform (.withdraw net))
  | .routeAnnounced net attributeChanged => some (.perform (.announce net attributeChanged))
  | .clearHistory net => some (.perform (.clear net))
  | .clockAdvance seconds => some (.wait (.ofSeconds seconds.toNat))
  | _ => none

namespace Session

/-- a new session has a new damper and stands at the start of the clock -/
theorem damping_of_create {config : Config} {s : Session} (h : (create config).answer = .ok s) :
    s.now = .start ∧ (Damper.create config.damping).answer = .ok s.damping := by
  unfold create at h
  cases hospf : (Ospf.Router.create config.ospf .start).answer with
  | error e =>
    simp only [hospf] at h
    cases h
  | ok p =>
    cases hdamping : (Damper.create config.damping).answer with
    | error e =>
      simp only [hospf, hdamping] at h
      cases h
    | ok d =>
      simp only [hospf, hdamping] at h
      cases h
      exact ⟨rfl, rfl⟩

/-- the turns that some events are for the damper -/
def damperTurns (events : List Event) : List (Turn Damper.Op) := events.filterMap Event.damperTurn?

/-- **A replay runs the damper.** -/
theorem run_of_replay {s t : Session} {events : List Event} (h : s.replay events = .ok t) :
    ∃ out, Damper.run ⟨s.now, s.damping⟩ (damperTurns events) = .ok out ∧ out.state = ⟨t.now, t.damping⟩ := by
  induction events generalizing s with
  | nil =>
    cases h
    exact ⟨_, rfl, rfl⟩
  | cons event rest ih =>
    rw [replay] at h
    cases hstep : s.step event with
    | error fault =>
      rw [hstep] at h
      cases h
    | ok next =>
      rw [hstep] at h
      obtain ⟨others, hrun, hstate⟩ := ih h
      have hskipped : event.concernsDamper = false → next.now = s.now ∧ next.damping = s.damping := by
        intro hother
        have hview := damperView_step_of_not hother s
        rw [hstep] at hview
        exact Prod.mk.inj (Except.ok.inj hview)
      have hperformed : ∀ op : Damper.Op, next.now = s.now → next.damping = (Damper.perform op s.now s.damping).state →
          ∃ out, Damper.run ⟨s.now, s.damping⟩ (.perform op :: damperTurns rest) = .ok out ∧
            out.state = ⟨t.now, t.damping⟩ := by
        intro op hnow hdamping
        rw [hnow, hdamping] at hrun
        obtain ⟨out, hout, hsame⟩ := Timed.exists_run_perform (s := ⟨s.now, s.damping⟩) hrun
        exact ⟨out, hout, hsame.trans hstate⟩
      cases event with
      | routeWithdrawn net =>
        cases hstep
        exact hperformed (.withdraw net) rfl rfl
      | routeAnnounced net attributeChanged =>
        cases hstep
        exact hperformed (.announce net attributeChanged) rfl rfl
      | clearHistory net =>
        cases hstep
        exact hperformed (.clear net) rfl rfl
      | clockAdvance seconds =>
        rw [step_clockAdvance] at hstep
        obtain ⟨now, hnow, rfl⟩ := exists_of_map_eq_ok hstep
        obtain ⟨out, hout, hsame⟩ := Timed.exists_run_wait (s := ⟨s.now, s.damping⟩) hnow hrun
        exact ⟨out, hout, hsame.trans hstate⟩
      | lsaReceived | routerLsaOriginated | redistribute | age | refresh =>
        obtain ⟨hnow, hdamping⟩ := hskipped rfl
        rw [hnow, hdamping] at hrun
        exact ⟨others, hrun, hstate⟩

/-- the operations on the damper in a replay of some events -/
def damperCalls (s : Session) (events : List Event) : List (Damper.Call Float) :=
  Damper.calls s.now s.damping (damperTurns events)

/-- **Flap accounting loses nothing.** Let a damper be created with parameters in order, and let any run of it come to its
end in which no route flaps two to the power 32 times. A route is tracked if and only if it was withdrawn or announced
after it was last cleared or released. Its counts are the number of the withdrawals, and that number together with the
number of the announcements with other attributes, since its history was created; queries do not change that, and there
are never more withdrawals than flaps. The same is true of the damper in a replay, and the summary shows the sum of the
flaps over the tracked routes. -/
theorem flaps_accounted :
    (∀ {R : Type} [PenaltyArithmetic R] {c : RoutingReplay.Damping.Config R} {d : Damper R} {start : Instant}
        {turns : List (Turn Damper.Op)} {out}, (Damper.create c).answer = .ok d →
      Damper.run ⟨start, d⟩ turns = .ok out →
      (∀ net, Damper.withdrawalsOf net (Damper.calls start d turns) +
        Damper.changesOf net (Damper.calls start d turns) < 2 ^ 32) →
      Damper.FlapsCounted (Damper.calls start d turns) out.state) ∧
    ∀ {config : Config} {s t : Session} {events : List Event}, (create config).answer = .ok s →
      s.replay events = .ok t →
      (∀ net, Damper.withdrawalsOf net (s.damperCalls events) + Damper.changesOf net (s.damperCalls events) < 2 ^ 32) →
      Damper.FlapsCounted (s.damperCalls events) ⟨t.now, t.damping⟩ ∧
        t.summary.answer.damping.flaps = (t.damping.routes.values.map fun h => h.flaps.toNat).sum := by
  constructor
  · intro R _ c d start turns out hcreate hrun hfew
    exact Damper.flapsCounted_of_run hcreate hrun hfew
  · intro config s t events hcreate hreplay hfew
    obtain ⟨out, hrun, hstate⟩ := run_of_replay hreplay
    have hcounted := Damper.flapsCounted_of_run (damping_of_create hcreate).2 hrun hfew
    rw [hstate] at hcounted
    exact ⟨hcounted, hcounted.totals⟩

/-- the network of a single host -/
def hostNetwork (host : UInt32) : Network := .v4 ⟨⟨host⟩, Fin.last 32⟩

/-- Three routes flap. The first is cleared and flaps again, then it is released by a purge, as is the third; after that
the first and the second flap once more. -/
def flapsOfThree : List (Turn Damper.Op) :=
  [.perform (.withdraw (hostNetwork 1)), .perform (.announce (hostNetwork 1) true), .perform (.clear (hostNetwork 1)),
    .perform (.withdraw (hostNetwork 1)), .perform (.withdraw (hostNetwork 2)), .perform (.withdraw (hostNetwork 2)),
    .perform (.withdraw (hostNetwork 2)), .perform (.withdraw (hostNetwork 3)), .wait (.ofSeconds 1800), .perform .purge,
    .perform (.withdraw (hostNetwork 1)), .perform (.announce (hostNetwork 2) true), .perform .totals]

/-- a route flaps and is cleared, another one flaps twice, and the first comes back as it was -/
def flapEvents : List Event :=
  [.routeWithdrawn (hostNetwork 1), .routeAnnounced (hostNetwork 1) true, .clearHistory (hostNetwork 1),
    .routeWithdrawn (hostNetwork 2), .clockAdvance 60, .routeAnnounced (hostNetwork 2) true,
    .routeAnnounced (hostNetwork 1) false]

/-- what is counted in the end -/
theorem flaps_accounted_threeRoutes :
    (∃ out, Damper.run ⟨.start, ⟨(.default : RoutingReplay.Damping.Config Float), .empty⟩⟩ flapsOfThree = .ok out ∧
        (out.state.state.routes.values.map RoutingReplay.Damping.History.counts) = [(1, 1), (3, 4)] ∧
        Damper.FlapsCounted (Damper.calls .start ⟨.default, .empty⟩ flapsOfThree) out.state) ∧
      ∃ s t, (create backboneOnly).answer = .ok s ∧ s.replay flapEvents = .ok t ∧
        t.summary.answer.damping.flaps = 2 ∧ Damper.FlapsCounted (s.damperCalls flapEvents) ⟨t.now, t.damping⟩ := by
  constructor
  · have hrun : ((Damper.run ⟨.start, ⟨(.default : RoutingReplay.Damping.Config Float), .empty⟩⟩
        flapsOfThree).toOption.any fun out =>
          (out.state.state.routes.values.map RoutingReplay.Damping.History.counts) = [(1, 1), (3, 4)]) = true := by
      decide +kernel
    obtain ⟨out, hout, hcounts⟩ := exists_ok_of_any hrun
    have hcreate : (Damper.create (.default : RoutingReplay.Damping.Config Float)).answer = .ok ⟨.default, .empty⟩ :=
      RoutingReplay.Damping.Damper.create_eq_ok_iff.mpr ⟨by decide +kernel, rfl⟩
    refine ⟨out, hout, of_decide_eq_true hcounts, flaps_accounted.1 hcreate hout fun net => ?_⟩
    exact (Damper.flaps_le_turns net .start _ flapsOfThree).trans_lt (by decide)
  · have hcreate : ((create backboneOnly).answer.toOption.any fun s =>
        (s.replay flapEvents).toOption.any fun t => t.summary.answer.damping.flaps = 2) = true := by decide +kernel
    obtain ⟨s, hs, hreplay⟩ := exists_ok_of_any hcreate
    obtain ⟨t, ht, htotal⟩ := exists_ok_of_any hreplay
    refine ⟨s, t, hs, ht, of_decide_eq_true htotal, (flaps_accounted.2 hs ht fun net => ?_).1⟩
    exact (Damper.flaps_le_turns net s.now s.damping (damperTurns flapEvents)).trans_lt (by decide)

end Session

end RoutingReplay.Replay
