/-
Lines that are refused are as if they were not there.

`Refused` says which lines end in an error, and in which: those that hold something and are no event, and those whose
event is addressed to an area that is not configured. It looks at the line and at the configured areas and at nothing
else, since no event changes which areas there are (`areas_of_reached`). An error leaves the session as it was, so a
record can be replayed without its refused and its blank lines, with the same result (`refused_lines_absent`).
`LineByLine` says what it is to replay a record, in terms of its single lines.
-/
import RoutingReplay.Proofs.Ospf.AreaView
import RoutingReplay.Replay.Summary

namespace RoutingReplay.Replay

/-- the areas of a configuration -/
def Config.areaIds (config : Config) : List Address4 := config.ospf.areas.map Ospf.AreaConfig.id

/-- the area that an event is addressed to, if it is addressed to one -/
def Event.area? : Event → Option Address4
  | .lsaReceived area _ _ | .routerLsaOriginated area _ => some area
  | _ => none

namespace Session

/-! ## Which lines are refused -/

/-- the error that a line of a record ends in, as the configured areas have it -/
inductive Refused (areas : List Address4) (number : Nat) (line : List Char) : Error → Prop
  | noEvent (hblank : isBlankLine line = false) (hline : Event.parse? line = none) :
      Refused areas number line (.eventParse number)
  | noArea {event : Event} {area : Address4} (hblank : isBlankLine line = false)
      (hline : Event.parse? line = some event) (harea : event.area? = some area) (habsent : area ∉ areas) :
      Refused areas number line (.ospf (.areaNotFound area))

/-- whether a line holds an event that is not addressed to an area that is not there -/
def isAccepted (areas : List Address4) (line : List Char) : Bool :=
  !isBlankLine line && (Event.parse? line).any fun event => event.area?.all (· ∈ areas)

theorem not_isAccepted_of_refused {areas : List Address4} {number : Nat} {line : List Char} {e : Error}
    (h : Refused areas number line e) : isAccepted areas line = false := by
  cases h with
  | noEvent hblank hline => simp [isAccepted, hline]
  | noArea hblank hline harea habsent => simp [isAccepted, hline, harea, habsent]

/-- A line is blank, refused or accepted. -/
theorem blank_or_refused_or_accepted (areas : List Address4) (number : Nat) (line : List Char) :
    isBlankLine line = true ∨ (∃ e, Refused areas number line e) ∨ isAccepted areas line = true := by
  cases hblank : isBlankLine line with
  | true => exact Or.inl rfl
  | false =>
    right
    cases hline : Event.parse? line with
    | none => exact Or.inl ⟨_, .noEvent hblank hline⟩
    | some event =>
      cases harea : event.area? with
      | none => exact Or.inr (by simp [isAccepted, hblank, hline, harea])
      | some area =>
        by_cases hmem : area ∈ areas
        · exact Or.inr (by simp [isAccepted, hblank, hline, harea, hmem])
        · exact Or.inl ⟨_, .noArea hblank hline harea hmem⟩

/-! ## One event -/

/-- An event for an area that is not there does nothing. -/
theorem process_of_absent {s : Session} {event : Event} {area : Address4} (harea : event.area? = some area)
    (habsent : s.ospf.areas.contains area = false) :
    (s.process event).state = s ∧ (s.process event).answer = .ok (.error (.ospf (.areaNotFound area))) := by
  cases event with
  | lsaReceived id hdr body =>
    cases harea
    simp only [process, clockAt, apply, addressed, onOspf, Ospf.Router.receive,
      Ospf.Router.onArea_of_absent _ habsent]
    exact ⟨rfl, rfl⟩
  | routerLsaOriginated id links =>
    cases harea
    simp only [process, clockAt, apply, addressed, onOspf, Ospf.Router.originateRouterLsa,
      Ospf.Router.onArea_of_absent _ habsent]
    exact ⟨rfl, rfl⟩
  | _ => cases harea

/-- Any other event succeeds, unless it drives the clock out of its range. -/
theorem answer_process_of_present {s : Session} {event : Event}
    (h : ∀ area ∈ event.area?, s.ospf.areas.contains area = true) :
    (s.process event).answer = .ok (.ok ()) ∨ ∃ fault, (s.process event).answer = .error fault := by
  cases event with
  | lsaReceived id hdr body =>
    obtain ⟨b, hb⟩ := Ospf.Router.answer_onArea_of_present (fun area => area.receive s.now hdr body) (h id rfl)
    left
    simp only [process, clockAt, apply, addressed, onOspf, Ospf.Router.receive, Outcome.map, Outcome.answer_after, hb]
  | routerLsaOriginated id links =>
    obtain ⟨b, hb⟩ := Ospf.Router.answer_onArea_of_present (fun area => area.onDatabase fun db =>
      db.installRouterLsa s.now s.ospf.routerId s.ospf.routerFlags links) (h id rfl)
    left
    simp only [process, clockAt, apply, addressed, onOspf, Ospf.Router.originateRouterLsa, Outcome.map,
      Outcome.answer_after, hb]
  | clockAdvance seconds =>
    cases hclock : s.clockAt (.clockAdvance seconds) with
    | ok s' =>
      left
      simp only [process, hclock]
      rfl
    | error fault =>
      right
      refine ⟨fault, ?_⟩
      simp only [process, hclock]
      rfl
  | _ => exact Or.inl rfl

theorem ospf_clockAt {s s' : Session} {event : Event} (h : s.clockAt event = .ok s') : s'.ospf = s.ospf := by
  cases event with
  | clockAdvance seconds =>
    simp only [clockAt] at h
    cases hnow : s.now.advance (.ofSeconds seconds.toNat) with
    | error fault =>
      rw [hnow] at h
      cases h
    | ok now =>
      rw [hnow] at h
      cases h
      rfl
  | _ =>
    cases h
    rfl

theorem contains_apply (s : Session) (event : Event) (id : Address4) :
    (s.apply event).state.ospf.areas.contains id = s.ospf.areas.contains id := by
  cases event with
  | lsaReceived area hdr body => exact Ospf.Router.contains_perform (.receive area hdr body) s.now s.ospf id
  | routerLsaOriginated area links =>
    exact Ospf.Router.contains_perform (.originateRouterLsa area links) s.now s.ospf id
  | redistribute route => exact Ospf.Router.contains_perform (.redistribute route) s.now s.ospf id
  | age elapsed => exact Ospf.Router.contains_perform (.age elapsed.toNat) s.now s.ospf id
  | refresh => exact Ospf.Router.contains_perform .refresh s.now s.ospf id
  | clockAdvance seconds => exact Ospf.Router.contains_perform (.age seconds.toNat) s.now s.ospf id
  | routeWithdrawn net => rfl
  | routeAnnounced net attributeChanged => rfl
  | clearHistory net => rfl

/-- No event changes which areas there are. -/
theorem contains_process (s : Session) (event : Event) (id : Address4) :
    (s.process event).state.ospf.areas.contains id = s.ospf.areas.contains id := by
  simp only [process, Outcome.state_after]
  cases hclock : s.clockAt event with
  | error fault => rfl
  | ok s' =>
    change (s'.apply event).state.ospf.areas.contains id = _
    rw [contains_apply, ospf_clockAt hclock]

/-! ## One line -/

/-- a session with these areas -/
def HasAreas (s : Session) (areas : List Address4) : Prop :=
  ∀ id, s.ospf.areas.contains id = true ↔ id ∈ areas

variable {s : Session} {areas : List Address4}

theorem HasAreas.contains_eq_false (h : s.HasAreas areas) {id : Address4} :
    s.ospf.areas.contains id = false ↔ id ∉ areas := by
  rw [← h id, Bool.not_eq_true]

theorem HasAreas.process (h : s.HasAreas areas) (event : Event) : (s.process event).state.HasAreas areas := by
  intro id
  rw [contains_process]
  exact h id

theorem HasAreas.processLine (h : s.HasAreas areas) (number : Nat) (line : List Char) :
    (s.processLine number line).state.HasAreas areas := by
  unfold Session.processLine
  split
  · exact h
  · split
    · exact h
    · exact h.process _

/-- A refused line ends in its error and leaves the session as it was. -/
theorem processLine_of_refused (h : s.HasAreas areas) {number : Nat} {line : List Char} {e : Error}
    (hrefused : Refused areas number line e) :
    (s.processLine number line).state = s ∧ (s.processLine number line).answer = .ok (.error e) := by
  cases hrefused with
  | noEvent hblank hline =>
    simp only [Session.processLine, hblank, hline]
    exact ⟨rfl, rfl⟩
  | noArea hblank hline harea habsent =>
    simp only [Session.processLine, hblank, hline]
    exact process_of_absent harea (h.contains_eq_false.mpr habsent)

/-- A blank line does nothing. -/
theorem processLine_of_blank (s : Session) {line : List Char} (hblank : isBlankLine line = true) (number : Nat) :
    s.processLine number line = .silent s (.ok (.ok ())) := by
  simp only [Session.processLine, hblank, if_true]

/-- An accepted line is processed as the event that it holds, whatever its number. -/
theorem processLine_of_accepted (h : s.HasAreas areas) {line : List Char} (haccepted : isAccepted areas line = true) :
    ∃ event, (∀ number, s.processLine number line = s.process event) ∧
      ((s.process event).answer = .ok (.ok ()) ∨ ∃ fault, (s.process event).answer = .error fault) := by
  obtain ⟨hblank, hany⟩ := (Bool.and_eq_true _ _).mp haccepted
  obtain ⟨event, hline, hall⟩ := (Option.any_eq_true _ _).mp hany
  refine ⟨event, fun number => ?_, answer_process_of_present ?_⟩
  · rw [Bool.not_eq_true'] at hblank
    simp only [Session.processLine, hblank, hline]
    rfl
  · intro area harea
    rw [harea, Option.all_some] at hall
    exact (h area).mpr (of_decide_eq_true hall)

/-- A line ends in an error exactly if it is refused. -/
theorem answer_processLine_iff (h : s.HasAreas areas) {number : Nat} {line : List Char} {e : Error} :
    (s.processLine number line).answer = .ok (.error e) ↔ Refused areas number line e := by
  refine ⟨fun hanswer => ?_, fun hrefused => (processLine_of_refused h hrefused).2⟩
  rcases blank_or_refused_or_accepted areas number line with hblank | ⟨e', hrefused⟩ | haccepted
  · rw [processLine_of_blank s hblank] at hanswer
    cases hanswer
  · rw [(processLine_of_refused h hrefused).2] at hanswer
    cases hanswer
    exact hrefused
  · obtain ⟨event, hprocess, hok | ⟨fault, hfault⟩⟩ := processLine_of_accepted h haccepted
    · rw [hprocess, hok] at hanswer
      cases hanswer
    · rw [hprocess, hfault] at hanswer
      cases hanswer

/-- A line is accepted exactly if it holds something and never ends in an error. -/
theorem isAccepted_iff (h : s.HasAreas areas) {line : List Char} : isAccepted areas line = true ↔
    isBlankLine line = false ∧ ∀ number e, (s.processLine number line).answer ≠ .ok (.error e) := by
  constructor
  · intro haccepted
    refine ⟨(Bool.not_eq_true' _).mp ((Bool.and_eq_true _ _).mp haccepted).1, fun number e hanswer => ?_⟩
    have hrefused := not_isAccepted_of_refused ((answer_processLine_iff h).mp hanswer)
    rw [haccepted] at hrefused
    cases hrefused
  · rintro ⟨hblank, hanswer⟩
    rcases blank_or_refused_or_accepted areas 0 line with hblank' | ⟨e, hrefused⟩ | haccepted
    · rw [hblank] at hblank'
      cases hblank'
    · exact absurd ((answer_processLine_iff h).mpr hrefused) (hanswer 0 e)
    · exact haccepted

/-- A line that is not accepted changes nothing. -/
theorem processLine_of_not_accepted (h : s.HasAreas areas) {line : List Char}
    (hnot : isAccepted areas line = false) (number : Nat) :
    (s.processLine number line).state = s ∧ ∃ result, (s.processLine number line).answer = .ok result := by
  rcases blank_or_refused_or_accepted areas number line with hblank | ⟨e, hrefused⟩ | haccepted
  · rw [processLine_of_blank s hblank]
    exact ⟨rfl, _, rfl⟩
  · obtain ⟨hstate, hanswer⟩ := processLine_of_refused h hrefused
    exact ⟨hstate, _, hanswer⟩
  · rw [haccepted] at hnot
    cases hnot

/-! ## Many lines -/

/-- What comes of lines that are processed one after another. The next line is processed whether or not the one before
it ended in an error; a fault is the end. -/
inductive LineByLine : Session → Nat → List (List Char) → Except Fault Unit → Session → Prop
  | done (s : Session) (number : Nat) : LineByLine s number [] (.ok ()) s
  | fault {s : Session} {number : Nat} {line : List Char} {fault : Fault}
      (hline : (s.processLine number line).answer = .error fault) (rest : List (List Char)) :
      LineByLine s number (line :: rest) (.error fault) (s.processLine number line).state
  | next {s last : Session} {number : Nat} {line : List Char} {rest : List (List Char)} {result : Except Error Unit}
      {answer : Except Fault Unit} (hline : (s.processLine number line).answer = .ok result)
      (hrest : LineByLine (s.processLine number line).state (number + 1) rest answer last) :
      LineByLine s number (line :: rest) answer last

theorem processLines_of_fault {number : Nat} {line : List Char} {fault : Fault}
    (h : (s.processLine number line).answer = .error fault) (rest : List (List Char)) :
    (s.processLines number (line :: rest)).answer = .error fault ∧
      (s.processLines number (line :: rest)).state = (s.processLine number line).state := by
  simp only [Session.processLines, h, Outcome.map, and_self]

theorem processLines_of_result {number : Nat} {line : List Char} {result : Except Error Unit}
    (h : (s.processLine number line).answer = .ok result) (rest : List (List Char)) :
    (s.processLines number (line :: rest)).answer =
        ((s.processLine number line).state.processLines (number + 1) rest).answer ∧
      (s.processLines number (line :: rest)).state =
        ((s.processLine number line).state.processLines (number + 1) rest).state := by
  simp only [Session.processLines, h, and_self]

/-- The lines of a record are processed one after another. -/
theorem lineByLine_processLines (s : Session) (number : Nat) (lines : List (List Char)) :
    LineByLine s number lines (s.processLines number lines).answer (s.processLines number lines).state := by
  induction lines generalizing s number with
  | nil => exact .done s number
  | cons line rest ih =>
    cases hline : (s.processLine number line).answer with
    | error fault =>
      obtain ⟨hanswer, hstate⟩ := processLines_of_fault hline rest
      rw [hanswer, hstate]
      exact .fault hline rest
    | ok result =>
      obtain ⟨hanswer, hstate⟩ := processLines_of_result hline rest
      rw [hanswer, hstate]
      exact .next hline (ih _ _)

/-- Lines that are not accepted can be left out, and the numbers of the others do not matter. -/
theorem processLines_filter (h : s.HasAreas areas) (number number' : Nat) (lines : List (List Char)) :
    (s.processLines number lines).answer = (s.processLines number' (lines.filter (isAccepted areas))).answer ∧
      (s.processLines number lines).state = (s.processLines number' (lines.filter (isAccepted areas))).state := by
  induction lines generalizing s number number' with
  | nil => exact ⟨rfl, rfl⟩
  | cons line rest ih =>
    cases haccepted : isAccepted areas line with
    | true =>
      rw [List.filter_cons_of_pos haccepted]
      obtain ⟨event, hprocess, hevent⟩ := processLine_of_accepted h haccepted
      -- whatever their numbers, both lines are the same event
      rw [← hprocess number] at hevent
      have hsame : s.processLine number' line = s.processLine number line :=
        (hprocess number').trans (hprocess number).symm
      rcases hevent with hok | ⟨fault, hfault⟩
      · obtain ⟨hanswer, hstate⟩ := processLines_of_result hok rest
        obtain ⟨hanswer', hstate'⟩ := processLines_of_result (hsame ▸ hok) (rest.filter (isAccepted areas))
        rw [hanswer, hstate, hanswer', hstate', hsame]
        exact ih (h.processLine number line) (number + 1) (number' + 1)
      · obtain ⟨hanswer, hstate⟩ := processLines_of_fault hfault rest
        obtain ⟨hanswer', hstate'⟩ := processLines_of_fault (hsame ▸ hfault) (rest.filter (isAccepted areas))
        rw [hanswer, hstate, hanswer', hstate', hsame]
        exact ⟨rfl, rfl⟩
    | false =>
      rw [List.filter_cons_of_neg (by simp [haccepted])]
      obtain ⟨hsame, result, hresult⟩ := processLine_of_not_accepted h haccepted number
      obtain ⟨hanswer, hstate⟩ := processLines_of_result hresult rest
      rw [hanswer, hstate, hsame]
      exact ih h (number + 1) number'

/-! ## Sessions that a configuration leads to -/

/-- the sessions that start with a configuration and take in events, lines and requests for a summary -/
inductive Reached (config : Config) : Session → Prop
  | created {s : Session} (h : (create config).answer = .ok s) : Reached config s
  | processed {s : Session} (hs : Reached config s) (event : Event) : Reached config (s.process event).state
  | lineProcessed {s : Session} (hs : Reached config s) (number : Nat) (line : List Char) :
      Reached config (s.processLine number line).state
  | summarised {s : Session} (hs : Reached config s) : Reached config s.summary.state

theorem areas_of_create {config : Config} {s : Session} (h : (create config).answer = .ok s) :
    s.HasAreas config.areaIds := by
  unfold create at h
  cases hospf : (Ospf.Router.create config.ospf .start).answer with
  | error e =>
    simp only [hospf] at h
    cases h
  | ok p =>
    cases hdamping : (Damping.Damper.create config.damping).answer with
    | error e =>
      simp only [hospf, hdamping] at h
      cases h
    | ok d =>
      simp only [hospf, hdamping] at h
      cases h
      intro id
      exact Ospf.Router.contains_of_create hospf id

/-- The areas of a session are always those of its configuration. -/
theorem areas_of_reached {config : Config} {s : Session} (h : Reached config s) : s.HasAreas config.areaIds := by
  induction h with
  | created h => exact areas_of_create h
  | processed _ event ih => exact ih.process event
  | lineProcessed _ number line ih => exact ih.processLine number line
  | summarised _ ih => exact ih

/-- **Refused lines are as if absent.** In every session that a configuration leads to, an error leaves everything as it
was. A line ends in an error exactly if it is refused, which depends on the line and the configured areas alone. The
lines of a record are processed one after another, past all errors. So all of them end in the same session and the same
summary as those that hold something and do not end in an error; where the clock leaves its range, both do so at the
same event. -/
theorem refused_lines_absent {config : Config} {s : Session} (h : Reached config s) :
    (∀ number line e, (s.processLine number line).answer = .ok (.error e) → (s.processLine number line).state = s) ∧
      (∀ number line e, (s.processLine number line).answer = .ok (.error e) ↔
        Refused config.areaIds number line e) ∧
      (∀ line, isAccepted config.areaIds line = true ↔
        isBlankLine line = false ∧ ∀ number e, (s.processLine number line).answer ≠ .ok (.error e)) ∧
      (∀ number lines,
        LineByLine s number lines (s.processLines number lines).answer (s.processLines number lines).state) ∧
      ∀ number number' lines,
        (s.processLines number lines).answer =
            (s.processLines number' (lines.filter (isAccepted config.areaIds))).answer ∧
          (s.processLines number lines).state =
            (s.processLines number' (lines.filter (isAccepted config.areaIds))).state ∧
          (s.processLines number lines).state.summary.answer =
            (s.processLines number' (lines.filter (isAccepted config.areaIds))).state.summary.answer := by
  have hareas := areas_of_reached h
  refine ⟨?_, fun _ _ _ => answer_processLine_iff hareas, fun _ => isAccepted_iff hareas,
    fun number lines => lineByLine_processLines s number lines, ?_⟩
  · intro number line e hanswer
    exact (processLine_of_refused hareas ((answer_processLine_iff hareas).mp hanswer)).1
  · intro number number' lines
    obtain ⟨hanswer, hstate⟩ := processLines_filter hareas number number' lines
    exact ⟨hanswer, hstate, by rw [hstate]⟩

/-- a router with the backbone as its only area -/
def backboneOnly : Config := ⟨.default, ⟨some ⟨0x01010101⟩, [⟨.unspecified, .normal⟩]⟩, .default⟩

/-- it is no event -/
def bogusLine : List Char := "\x7b\"bogus\":\x7b\x7d\x7d".toList

/-- it is for an area that the router does not have -/
def strayLine : List Char := "\x7b\"router-lsa-orig\":\x7b\"area_id\":\"0.0.0.9\"\x7d\x7d".toList

def withdrawalLine : List Char := "\x7b\"route-withdrawn\":\x7b\"prefix\":\"10.0.0.0/24\"\x7d\x7d".toList

/-- how often each route was withdrawn -/
def withdrawals (s : Session) : List UInt32 := s.damping.routes.values.map Damping.History.withdrawals

/-- Of four lines, one holds something and succeeds, and it is counted; a withdrawal came before them. -/
theorem refused_lines_absent_mixed :
    ∃ s, Reached backboneOnly s ∧ s.damping.routes.size = 1 ∧ s.withdrawals = [1] ∧
      (s.processLine 2 bogusLine).answer = .ok (.error (.eventParse 2)) ∧
      (s.processLine 3 strayLine).answer = .ok (.error (.ospf (.areaNotFound ⟨9⟩))) ∧
      (s.processLine 3 strayLine).state = s ∧
      (s.processLines 2 [bogusLine, strayLine, [' '], withdrawalLine]).state =
        (s.processLines 1 [withdrawalLine]).state ∧
      (s.processLines 2 [bogusLine, strayLine, [' '], withdrawalLine]).state.withdrawals = [2] := by
  have hcreate : ((create backboneOnly).answer.toOption.any fun s =>
      let first := (s.processLine 1 withdrawalLine).state
      first.damping.routes.size = 1 ∧ first.withdrawals = [1] ∧
        (first.processLines 1 [withdrawalLine]).state.withdrawals = [2]) = true := by decide +kernel
  obtain ⟨s₀, hs₀, hcounts⟩ := (Option.any_eq_true _ _).mp hcreate
  obtain ⟨hsize, honce, htwice⟩ := of_decide_eq_true hcounts
  have hanswer : (create backboneOnly).answer = .ok s₀ := by
    cases h : (create backboneOnly).answer with
    | error e =>
      rw [h] at hs₀
      cases hs₀
    | ok s =>
      rw [h] at hs₀
      cases hs₀
      rfl
  have hreached := Reached.lineProcessed (.created hanswer) 1 withdrawalLine
  obtain ⟨hstate, hiff, -, -, hlines⟩ := refused_lines_absent hreached
  have hbogus := (hiff 2 bogusLine _).mpr (.noEvent (by decide +kernel) (by decide +kernel))
  have hevent : Event.parse? strayLine = some (.routerLsaOriginated ⟨9⟩ []) := by decide +kernel
  have hstray := (hiff 3 strayLine _).mpr (.noArea (by decide +kernel) hevent rfl (by decide +kernel))
  have hkept : [bogusLine, strayLine, [' '], withdrawalLine].filter (isAccepted backboneOnly.areaIds) =
      [withdrawalLine] := by decide +kernel
  have hrest := (hlines 2 1 [bogusLine, strayLine, [' '], withdrawalLine]).2.1
  rw [hkept] at hrest
  refine ⟨_, hreached, hsize, honce, hbogus, hstray, hstate _ _ _ hstray, hrest, ?_⟩
  rw [hrest]
  exact htwice

end Session

end RoutingReplay.Replay
