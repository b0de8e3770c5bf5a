/-
Replay sessions: a routing process and a damper on one clock, driven by events.

`Session.process` takes one event, `Session.processLine` one line of a record file, `Session.processLines` one line
after another. An event that names an area which is not configured, or a line that is no event, is an error and changes
nothing; the session goes on, and over several lines the error is noted in the journal. Only a clock that is driven out
of its range ends the session (`Fault`).
-/
import RoutingReplay.Damping.Damper
import RoutingReplay.Ospf.Router
import RoutingReplay.Replay.Config
import RoutingReplay.Replay.Event
import RoutingReplay.Journal.Line

namespace RoutingReplay.Replay

open Ospf (Router)

inductive Error where
  | ospf (e : Ospf.Error)
  | damping (e : Damping.Error Float)
  | eventParse (line : Nat)

/-- what the engines of a session report, and the session itself -/
inductive Notice where
  | processing (event : Event)
  | failed (e : Error)
  | ospf (notice : Ospf.Notice)
  | damping (notice : Damping.Notice Float)

def Error.message : Error → String
  | .ospf e => e.message
  | .damping e => e.message
  | .eventParse line => "failed to parse event at line " ++ String.ofList (Text.writeDecimal line)

def Error.line : Error → Line
  | .ospf e => e.line
  | .damping e => e.line
  | .eventParse line =>
    ⟨.warn, [], (Error.eventParse line).message, [("line", Text.writeDecimal line)]⟩

/-- the line of an entry; an event that is processed is not spelled out -/
def Notice.line (entry : Entry Notice) : Line :=
  match entry.event with
  | .processing _ => ⟨.debug, entry.scopes, "processing event", []⟩
  | .failed e => { e.line with scopes := entry.scopes }
  | .ospf notice => Ospf.Notice.line ⟨entry.scopes, notice⟩
  | .damping notice => Damping.Notice.line ⟨entry.scopes, notice⟩

structure Session where
  now : Instant
  ospf : Router
  damping : Damping.Damper Float

namespace Session

/-- what an operation on a session results in -/
abbrev Step (α : Type) := Outcome Session Notice α

/-- the entries of one engine as entries of the session -/
def relabel {ε : Type} (label : ε → Notice) (journal : List (Entry ε)) : List (Entry Notice) :=
  journal.map fun entry => ⟨entry.scopes, label entry.event⟩

/-! ## Creation -/

/-- a session as configured, at the start of the clock; the routing process comes first, so its errors win -/
def create (config : Config) : Outcome Unit Notice (Except Error Session) :=
  let ospf := Router.create config.ospf .start
  let journal := relabel .ospf ospf.journal
  match ospf.answer with
  | .error e => ⟨(), journal, .error (.ospf e)⟩
  | .ok process =>
    let damping := Damping.Damper.create config.damping
    let journal := journal ++ relabel .damping damping.journal
    match damping.answer with
    | .error e => ⟨(), journal, .error (.damping e)⟩
    | .ok damper => ⟨(), journal, .ok ⟨.start, process, damper⟩⟩

/-! ## Events -/

/-- an operation of the routing process -/
def onOspf {α : Type} (s : Session) (act : Router → Router.Step α) : Step α :=
  let out := act s.ospf
  ⟨{ s with ospf := out.state }, relabel .ospf out.journal, out.answer⟩

/-- an operation of the damper -/
def onDamping {α : Type} (s : Session) (act : Damping.Damper Float → Damping.Damper.Step Float α) : Step α :=
  let out := act s.damping
  ⟨{ s with damping := out.state }, relabel .damping out.journal, out.answer⟩

/-- whether an operation found the area that it was addressed to -/
def addressed {α : Type} (out : Step (Except Ospf.Error α)) : Step (Except Error Unit) :=
  out.map fun
    | .ok _ => .ok ()
    | .error e => .error (.ospf e)

/-- the answer of an operation that cannot fail -/
def succeeded {α : Type} (out : Step α) : Step (Except Error Unit) := out.map fun _ => .ok ()

/-- one event that does not move the clock -/
def apply (s : Session) : Event → Step (Except Error Unit)
  | .lsaReceived area hdr body => addressed (s.onOspf fun p => p.receive s.now area hdr body)
  | .routerLsaOriginated area links => addressed (s.onOspf fun p => p.originateRouterLsa s.now area links)
  | .redistribute route => succeeded (s.onOspf fun p => p.redistribute s.now route)
  | .age elapsed => succeeded (s.onOspf fun p => p.age s.now elapsed.toNat)
  | .refresh => succeeded (s.onOspf fun p => p.refresh s.now)
  | .clockAdvance seconds => succeeded (s.onOspf fun p => p.age s.now seconds.toNat)
  | .routeWithdrawn net => succeeded (s.onDamping fun d => d.withdraw s.now net)
  | .routeAnnounced net attributeChanged => succeeded (s.onDamping fun d => d.announce s.now net attributeChanged)
  | .clearHistory net => succeeded (s.onDamping fun d => d.clear net)

/-- the clock at the time of an event: an advance of the clock comes before the ageing that goes with it -/
def clockAt (s : Session) : Event → Except Fault Session
  | .clockAdvance seconds => (s.now.advance (.ofSeconds seconds.toNat)).map fun now => { s with now }
  | _ => .ok s

/-- processes an event; LSAs age in step with the clock -/
def process (s : Session) (event : Event) : Step (Except Fault (Except Error Unit)) :=
  .after (.processing event) <|
    match s.clockAt event with
    | .error fault => .silent s (.error fault)
    | .ok s => (s.apply event).map .ok

/-- a line that holds nothing but blanks -/
def isBlankLine (line : List Char) : Bool := Text.trim line = []

/-- processes a line of a record file, of which `number` is the place in the file -/
def processLine (s : Session) (number : Nat) (line : List Char) : Step (Except Fault (Except Error Unit)) :=
  if isBlankLine line then .silent s (.ok (.ok ()))
  else
    match Event.parse? line with
    | none => .silent s (.ok (.error (.eventParse number)))
    | some event => s.process event

/-- processes the lines of a file from the line with this number on. Errors go into the journal and are passed over; a
fault ends the run. -/
def processLines (s : Session) (number : Nat) : List (List Char) → Step (Except Fault Unit)
  | [] => .silent s (.ok ())
  | line :: rest =>
    let out := s.processLine number line
    match out.answer with
    | .error fault => out.map fun _ => .error fault
    | .ok result =>
      let failure := match result with
        | .error e => [⟨[], .failed e⟩]
        | .ok () => []
      let others := processLines out.state (number + 1) rest
      { others with journal := out.journal ++ failure ++ others.journal }

end Session

end RoutingReplay.Replay
