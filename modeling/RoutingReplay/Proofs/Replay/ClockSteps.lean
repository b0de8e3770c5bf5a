/-
Advances of the clock add up.

An advance of the clock moves the time and ages all databases by the same seconds. Times add up, or leave the range,
however they are divided (`Instant.advance_advance`), and so does ageing (`Ospf.Router.content_age_age`). What differs
are the change logs, which tell of the expired LSAs in the order in which they expired. No event looks at these
(`content_step`), so whatever comes after does the same on either side (`content_replay`).

- `content_replay_clockAdvances`: advances in a row do what one advance by their sum does.
- `aging_adds_up`: ageing is exact and additive in every database, and in a replay an advance may be divided.
-/
import RoutingReplay.Proofs.Ospf.Aging
import RoutingReplay.Proofs.Replay.Independence

namespace RoutingReplay

theorem Instant.seconds_le_later (t : Instant) (d : Duration) :
    t.sinceStart.seconds ≤ (t.later d).sinceStart.seconds := by
  have hle : t.sinceStart.nanos ≤ (t.later d).sinceStart.nanos := Nat.le_add_right _ _
  exact Nat.div_le_div_right hle

/-- Two advances reach as far as one by the sum, or both leave the range. -/
theorem Instant.advance_advance (t : Instant) (m n : Nat) :
    ((t.advance (.ofSeconds m)).bind fun now => now.advance (.ofSeconds n)) = t.advance (.ofSeconds (m + n)) := by
  by_cases hfirst : (t.later (.ofSeconds m)).sinceStart.seconds < range
  · have hreached : t.advance (.ofSeconds m) = .ok (t.later (.ofSeconds m)) := if_pos hfirst
    rw [hreached, Except.bind, advance, advance, later_later]
  · have hle := seconds_le_later (t.later (.ofSeconds m)) (.ofSeconds n)
    rw [later_later] at hle
    have hsum : ¬ (t.later (.ofSeconds (m + n))).sinceStart.seconds < range := fun h =>
      hfirst (Nat.lt_of_le_of_lt hle h)
    rw [advance, if_neg hfirst, advance, if_neg hsum, Except.bind]

end RoutingReplay

namespace RoutingReplay.Replay.Session

open Ospf (Router Database LsaKind)

/-! ## What events see of a session -/

/-- a session without the change logs of its databases -/
def content (s : Session) : Session := { s with ospf := s.ospf.content }

theorem content_congr {s s' : Session} (hnow : s.now = s'.now) (hospf : s.ospf.content = s'.ospf.content)
    (hdamping : s.damping = s'.damping) : s.content = s'.content := by
  rw [content, content, hnow, hospf, hdamping]

/-- **What an event leaves does not depend on the change logs.** -/
theorem content_step (s : Session) (event : Event) :
    (s.step event).map content = (s.content.step event).map content := by
  have hrouter : ∀ op : Router.Op, content { s with ospf := (Router.perform op s.now s.ospf).state } =
      content { s with ospf := (Router.perform op s.now s.ospf.content).state } := by
    intro op
    exact content_congr rfl (Router.content_perform op s.now s.ospf) rfl
  have hdamper : ∀ d : Damping.Damper Float, content { s with damping := d } =
      content { s.content with damping := d } := by
    intro d
    exact content_congr rfl s.ospf.content_content.symm rfl
  cases event with
  | lsaReceived area hdr body => exact congrArg Except.ok (hrouter (.receive area hdr body))
  | routerLsaOriginated area links => exact congrArg Except.ok (hrouter (.originateRouterLsa area links))
  | redistribute route => exact congrArg Except.ok (hrouter (.redistribute route))
  | age elapsed => exact congrArg Except.ok (hrouter (.age elapsed.toNat))
  | refresh => exact congrArg Except.ok (hrouter .refresh)
  | clockAdvance seconds =>
    have hnow : s.content.now = s.now := rfl
    rw [step_clockAdvance, step_clockAdvance, hnow]
    cases s.now.advance (.ofSeconds seconds.toNat) with
    | error fault => rfl
    | ok now =>
      have hage := Router.content_perform (.age seconds.toNat) now s.ospf
      exact congrArg Except.ok (content_congr rfl hage rfl)
  | routeWithdrawn net => exact congrArg Except.ok (hdamper _)
  | routeAnnounced net attributeChanged => exact congrArg Except.ok (hdamper _)
  | clearHistory net => exact congrArg Except.ok (hdamper _)

/-- nor does what many events leave -/
theorem content_replay {s s' : Session} (h : s.content = s'.content) (events : List Event) :
    (s.replay events).map content = (s'.replay events).map content := by
  induction events generalizing s s' with
  | nil => exact congrArg Except.ok h
  | cons event rest ih =>
    have hstep : (s.step event).map content = (s'.step event).map content := by
      rw [content_step, h, ← content_step]
    exact map_bind_congr hstep fun _ _ => ih

theorem replay_append (s : Session) (events events' : List Event) :
    s.replay (events ++ events') = (s.replay events).bind fun next => next.replay events' := by
  induction events generalizing s with
  | nil => rfl
  | cons event rest ih =>
    rw [List.cons_append, replay, replay]
    cases s.step event with
    | error fault => rfl
    | ok next => exact ih next

/-- the summary shows no change log -/
theorem summary_content (s : Session) : s.content.summary.answer = s.summary.answer := by
  have hareas : s.content.ospf.areas.values.map AreaSummary.ofArea = s.ospf.areas.values.map AreaSummary.ofArea := by
    simp only [content, Router.content, SortedMap.values, SortedMap.mapValues, List.map_map]
    rfl
  change Summary.mk _ (s.content.ospf.areas.values.map AreaSummary.ofArea) _ _ = _
  rw [hareas]
  rfl

/-! ## Advances in a row -/

/-- time goes on by some seconds, and the LSAs age -/
def elapse (s : Session) (seconds : Nat) : Except Fault Session :=
  (s.now.advance (.ofSeconds seconds)).map fun now => { s with now, ospf := (s.ospf.age now seconds).state }

theorem elapse_of_advance {s : Session} {seconds : Nat} {now : Instant}
    (h : s.now.advance (.ofSeconds seconds) = .ok now) :
    s.elapse seconds = .ok { s with now, ospf := (s.ospf.age now seconds).state } := by
  rw [elapse, h, Except.map]

theorem elapse_of_fault {s : Session} {seconds : Nat} {fault : Fault}
    (h : s.now.advance (.ofSeconds seconds) = .error fault) : s.elapse seconds = .error fault := by
  rw [elapse, h, Except.map]

theorem content_elapse_elapse (s : Session) (m n : Nat) :
    ((s.elapse m).bind fun next => next.elapse n).map content = (s.elapse (m + n)).map content := by
  have hadvance := s.now.advance_advance m n
  cases hfirst : s.now.advance (.ofSeconds m) with
  | error fault =>
    rw [hfirst, Except.bind] at hadvance
    rw [elapse_of_fault hfirst, elapse_of_fault hadvance.symm, Except.bind]
  | ok t₁ =>
    rw [hfirst, Except.bind] at hadvance
    rw [elapse_of_advance hfirst, Except.bind]
    cases hsecond : t₁.advance (.ofSeconds n) with
    | error fault =>
      rw [hsecond] at hadvance
      rw [elapse_of_fault hadvance.symm, elapse_of_fault hsecond]
    | ok t₂ =>
      rw [hsecond] at hadvance
      rw [elapse_of_advance hadvance.symm, elapse_of_advance hsecond]
      exact congrArg Except.ok (content_congr rfl (s.ospf.content_age_age t₁ t₂ t₂ m n) rfl)

/-- **Advances in a row do what one advance by their sum does.** -/
theorem content_replay_clockAdvances {pieces : List UInt64} (h : pieces ≠ []) (s : Session) :
    (s.replay (pieces.map .clockAdvance)).map content = (s.elapse (pieces.map UInt64.toNat).sum).map content := by
  induction pieces generalizing s with
  | nil => exact absurd rfl h
  | cons first rest ih =>
    have hfirst : s.step (.clockAdvance first) = s.elapse first.toNat := step_clockAdvance s first
    rw [List.map_cons, replay, hfirst, List.map_cons, List.sum_cons]
    by_cases hrest : rest = []
    · subst hrest
      simp only [List.map_nil, List.sum_nil, Nat.add_zero]
      cases s.elapse first.toNat <;> rfl
    · have hsecond : ∀ next next' : Session, next.content = next'.content →
          (next.replay (rest.map .clockAdvance)).map content =
            (next'.elapse (rest.map UInt64.toNat).sum).map content := by
        intro next next' hnext
        rw [content_replay hnext]
        exact ih hrest next'
      calc ((s.elapse first.toNat).bind fun next => next.replay (rest.map .clockAdvance)).map content
          = ((s.elapse first.toNat).bind fun next => next.elapse (rest.map UInt64.toNat).sum).map content :=
            map_bind_congr rfl hsecond
        _ = (s.elapse (first.toNat + (rest.map UInt64.toNat).sum)).map content := content_elapse_elapse s _ _

/-- in a replay an advance may be divided, whatever comes before and after it -/
theorem content_replay_divided (s : Session) (before after : List Event) {pieces : List UInt64} {n : UInt64}
    (h : pieces ≠ []) (hsum : (pieces.map UInt64.toNat).sum = n.toNat) :
    (s.replay (before ++ pieces.map .clockAdvance ++ after)).map content =
      (s.replay (before ++ [.clockAdvance n] ++ after)).map content := by
  have hdivided : ∀ next next' : Session, next.content = next'.content →
      (next.replay (pieces.map .clockAdvance)).map content = (next'.replay [.clockAdvance n]).map content := by
    intro next next' hnext
    have hone : (next'.replay ([n].map .clockAdvance)).map content = _ :=
      content_replay_clockAdvances (List.cons_ne_nil n []) next'
    rw [content_replay hnext, content_replay_clockAdvances h, hsum]
    exact hone.symm
  rw [replay_append, replay_append, replay_append, replay_append]
  apply map_bind_congr
  · exact map_bind_congr rfl hdivided
  · intro next next' hnext
    exact content_replay hnext after

/-- **Ageing is exact, and it adds up.** Of every database it keeps the records whose age plus the seconds is below
`maxAge`, with that sum as their age and nothing else changed; it removes all others and answers with their number. To
age twice leaves the table that ageing once by the sum leaves, and removes as many records. And in a replay an advance of
the clock may be divided into several with the same sum: at the end all but the change logs is then the same, that is the
records of every area, the damper and the summary. -/
theorem aging_adds_up :
    (∀ (db : Database) (now : Instant) (elapsed : Nat), Database.Aged elapsed db (db.age now elapsed)) ∧
      (∀ (db : Database) (t₁ t₂ t : Instant) (a b : Nat),
        ((db.age t₁ a).state.age t₂ b).state.table = (db.age t (a + b)).state.table ∧
          (db.age t₁ a).answer + ((db.age t₁ a).state.age t₂ b).answer = (db.age t (a + b)).answer) ∧
      ∀ (s : Session) (before after : List Event) (pieces : List UInt64) (n : UInt64), pieces ≠ [] →
        (pieces.map UInt64.toNat).sum = n.toNat →
          (s.replay (before ++ pieces.map .clockAdvance ++ after)).map content =
              (s.replay (before ++ [.clockAdvance n] ++ after)).map content ∧
            (s.replay (before ++ pieces.map .clockAdvance ++ after)).map (fun t => t.summary.answer) =
              (s.replay (before ++ [.clockAdvance n] ++ after)).map fun t => t.summary.answer := by
  refine ⟨Database.aged_exactly, ?_, ?_⟩
  · intro db t₁ t₂ t a b
    exact ⟨db.table_age_age t₁ t₂ t a b, db.answer_age_age t₁ t₂ t a b⟩
  · intro s before after pieces n hpieces hsum
    have hcontent := content_replay_divided s before after hpieces hsum
    have hshown : ∀ x : Except Fault Session,
        x.map (fun t => t.summary.answer) = (x.map content).map fun t => t.summary.answer := by
      intro x
      cases x with
      | error fault => rfl
      | ok t => exact congrArg Except.ok t.summary_content.symm
    refine ⟨hcontent, ?_⟩
    rw [hshown (s.replay (before ++ pieces.map Event.clockAdvance ++ after)), hcontent, ← hshown]

/-- an LSA of a neighbour that expires soon, an LSA of the local router and a withdrawal -/
def beforeAdvance : List Event :=
  [.lsaReceived .unspecified ⟨3590, .external, LsaKind.router.type, ⟨2⟩, ⟨2⟩, some 5, some 9, some 24⟩
      (.router ⟨⟨0⟩, []⟩),
    .routerLsaOriginated .unspecified [], .routeWithdrawn (.v4 ⟨.ofOctets 10 0 0 1, Fin.last 32⟩)]

/-- fifty minutes and five seconds in one step and in three -/
theorem aging_adds_up_threeSteps :
    ∃ s t u, (create backboneOnly).answer = .ok s ∧
      s.replay (beforeAdvance ++ [5, 2000, 1000].map .clockAdvance ++ [.refresh]) = .ok t ∧
      s.replay (beforeAdvance ++ [.clockAdvance 3005] ++ [.refresh]) = .ok u ∧
      t.ospf.areas.values.map (fun area => area.db.size) = [1] ∧ t.content = u.content ∧ t.damping = u.damping := by
  have hcreate : ((create backboneOnly).answer.toOption.any fun s =>
      (s.replay (beforeAdvance ++ [5, 2000, 1000].map .clockAdvance ++ [.refresh])).toOption.any fun t =>
        t.ospf.areas.values.map (fun area => area.db.size) = [1]) = true := by decide +kernel
  obtain ⟨s, hs, hreplay⟩ := exists_ok_of_any hcreate
  obtain ⟨t, ht, hsizes⟩ := exists_ok_of_any hreplay
  have hcontent := (aging_adds_up.2.2 s beforeAdvance [.refresh] [5, 2000, 1000] 3005 (by decide) (by decide)).1
  rw [ht] at hcontent
  obtain ⟨u, hu, hsame⟩ := exists_of_map_eq_ok hcontent.symm
  exact ⟨s, t, u, hs, ht, hu, of_decide_eq_true hsizes, hsame.symm, (congrArg Session.damping hsame).symm⟩

end RoutingReplay.Replay.Session
