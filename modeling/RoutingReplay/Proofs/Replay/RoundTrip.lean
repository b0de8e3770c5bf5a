/-
Recorded events replay as themselves.

An event is written as a record of one field, named for what happened, or as a name alone. `Event.faithful` puts the
layers together: the text of an event gives back its value, the value gives back the event. So the line that is recorded
for an event holds this event, and a session takes the line as it takes the event.
-/
import RoutingReplay.Proofs.Ospf.Document
import RoutingReplay.Proofs.Replay.Independence

namespace RoutingReplay.Replay

open Value Ospf

namespace Event

theorem single?_record (name : String) (v : Value) : single? name (.record [(name, v)]) = some (some v) := by
  rw [single?, slots?_record rfl (by simp), some_bind]
  rfl

theorem isExact_variant {name : String} {payload : Value} (h : Json.IsExact payload) :
    Json.IsExact (variant name payload) := by
  refine .record fun f hf => ?_
  obtain rfl := List.mem_singleton.mp hf
  exact h

theorem isExact_toValue (e : Event) : Json.IsExact e.toValue := by
  cases e with
  | lsaReceived area hdr body =>
    refine isExact_variant (.record ?_)
    simp only [List.forall_mem_cons]
    exact ⟨Address4.faithful.exact area, Header.faithful.exact hdr, Body.faithful.exact body, nofun⟩
  | routerLsaOriginated area links =>
    refine isExact_variant (.record ?_)
    simp only [List.forall_mem_cons]
    exact ⟨Address4.faithful.exact area, RouterLink.faithful.list.exact links, nofun⟩
  | redistribute route => exact isExact_variant (ExternalRoute.faithful.exact route)
  | age seconds | clockAdvance seconds => exact isExact_variant (isExact_variant (faithful_uint64.exact seconds))
  | refresh => exact .text _
  | routeWithdrawn net | clearHistory net => exact isExact_variant (isExact_variant (Network.faithful.exact net))
  | routeAnnounced net attributeChanged =>
    refine isExact_variant (.record ?_)
    simp only [List.forall_mem_cons]
    exact ⟨Network.faithful.exact net, faithful_bool.exact attributeChanged, nofun⟩

theorem ofValue?_toValue (e : Event) : ofValue? e.toValue = some e := by
  cases e with
  | lsaReceived area hdr body =>
    simp only [toValue, ofValue?, variant, variant?, some_bind]
    rw [slots?_record rfl (by simp)]
    simp only [List.map_cons, List.map_nil, some_bind, Address4.faithful.required, Header.faithful.required,
      Body.faithful.required]
    rfl
  | routerLsaOriginated area links =>
    simp only [toValue, ofValue?, variant, variant?, some_bind]
    rw [slots?_record rfl (by simp)]
    simp only [List.map_cons, List.map_nil, some_bind, Address4.faithful.required, RouterLink.faithful.list.defaulted]
    rfl
  | redistribute route =>
    simp only [toValue, ofValue?, variant, variant?, some_bind, ExternalRoute.faithful.readsBack]
    rfl
  | age seconds | clockAdvance seconds =>
    simp only [toValue, ofValue?, variant, variant?, some_bind, single?_record, faithful_uint64.required]
    rfl
  | refresh => rfl
  | routeWithdrawn net | clearHistory net =>
    simp only [toValue, ofValue?, variant, variant?, some_bind, single?_record, Network.faithful.required]
    rfl
  | routeAnnounced net attributeChanged =>
    simp only [toValue, ofValue?, variant, variant?, some_bind]
    rw [slots?_record rfl (by simp)]
    simp only [List.map_cons, List.map_nil, some_bind, Network.faithful.required, faithful_bool.defaulted]
    rfl

theorem faithful : Faithful toValue ofValue? := ⟨isExact_toValue, ofValue?_toValue⟩

theorem parse?_write (e : Event) : parse? e.write = some e := by
  rw [parse?, write, (faithful.exact e).read?_write, Option.bind_some, faithful.readsBack]

/-! ## Record files -/

/-- The line of an event starts with a brace or a quote. -/
theorem isBlankLine_write (e : Event) : Session.isBlankLine e.write = false := by
  obtain ⟨c, rest, hline, hc⟩ : ∃ c rest, e.write = c :: rest ∧ Text.isBlank c = false := by
    cases e with
    | refresh => exact ⟨'"', _, rfl, by decide⟩
    | _ => exact ⟨'\x7b', _, rfl, by decide⟩
  rw [hline]
  refine decide_eq_false fun hblank => ?_
  rw [Text.isBlank_of_trim_eq_nil hblank List.mem_cons_self] at hc
  cases hc

theorem ofLine?_write (e : Event) : ofLine? e.write = some e := by
  rw [ofLine?, isBlankLine_write, if_neg Bool.false_ne_true, parse?_write]

/-- the file that records some events, one in a line -/
def recordFile (events : List Event) : List Char := (events.map write).flatMap fun line => line ++ ['\n']

theorem lines_recordFile (events : List Event) : Text.lines (recordFile events) = events.map write := by
  have hprinted : ∀ line ∈ events.map write, Json.IsPrinted line := by
    intro line hline
    obtain ⟨e, -, rfl⟩ := List.mem_map.mp hline
    exact (faithful.exact e).isPrinted
  refine Text.lines_flatMap (fun line hline hfeed => ?_) fun line hline hreturn => ?_
  · exact absurd (hprinted line hline _ hfeed) (by decide)
  · exact absurd (hprinted line hline _ hreturn) (by decide)

/-- A record file holds the events that it was written for. -/
theorem ofLines_recordFile (events : List Event) : ofLines (Text.lines (recordFile events)) = events := by
  rw [lines_recordFile, ofLines, List.filterMap_map]
  exact (List.filterMap_congr fun e _ => ofLine?_write e).trans List.filterMap_some

end Event

/-- Replaying a record file is replaying the events that it was written for. -/
theorem Session.replay_recordFile (s : Session) (number : Nat) (events : List Event) :
    s.replay events =
      (s.processLines number (Text.lines (Event.recordFile events))).answer.map fun _ =>
        (s.processLines number (Text.lines (Event.recordFile events))).state := by
  have hreplay := s.replay_ofLines number (Text.lines (Event.recordFile events))
  rw [Event.ofLines_recordFile] at hreplay
  exact hreplay

/-- Serialization of events round-trips: the line of an event is read as this event and replays as it, and what any
line is read as is read again from the line that is written for it. -/
theorem events_round_trip :
    (∀ e : Event, Event.parse? e.write = some e) ∧
      (∀ (s : Session) (number : Nat) (e : Event), s.processLine number e.write = s.process e) ∧
      ∀ line : List Char, ((Event.parse? line).bind fun e => Event.parse? e.write) = Event.parse? line := by
  refine ⟨Event.parse?_write, fun s number e => ?_, fun line => ?_⟩
  · exact Session.processLine_of_some (Event.ofLine?_write e) s number
  · cases Event.parse? line with
    | none => rfl
    | some e => exact Event.parse?_write e

end RoutingReplay.Replay
