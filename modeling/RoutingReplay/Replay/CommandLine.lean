/-
The command line of the replay tool.

`Invocation.ofArgs` decides what the arguments ask for, `run` does it. The files come as what reading them gave, so all
of this is a function: from the contents of the configuration and of the record file to an exit code, an output and
messages. The configuration is looked at first, then the session is created, and only then the record counts.
-/
import RoutingReplay.Replay.Summary
import RoutingReplay.Toml.Reader

namespace RoutingReplay.Replay

/-! ## Arguments -/

/-- what a command line asks for -/
inductive Invocation where
  /-- wrong usage -/
  | refused
  /-- a description of the usage -/
  | help
  | replay (config : Option String) (record : String)
  deriving DecidableEq

namespace Invocation

/-- arguments as far as they have been taken in; the files are named once at most -/
structure Partial where
  config : Option String
  record : Option String

/-- the invocation with a configuration file -/
def Partial.withConfig? (p : Partial) (file : String) : Option Partial :=
  if p.config.isSome then none else some { p with config := some file }

/-- the invocation with a record file -/
def Partial.withRecord? (p : Partial) (file : String) : Option Partial :=
  if p.record.isSome then none else some { p with record := some file }

/-- an argument for an option: equals signs in front are not part of it -/
def valueOf (cs : List Char) : String := String.ofList (cs.dropWhile (· = '='))

/-- the arguments behind the two dashes that end the options -/
def takeRecords : Partial → List String → Option Partial
  | p, [] => some p
  | p, file :: rest => (p.withRecord? file).bind fun p => takeRecords p rest

/-- what an argument is -/
inductive Argument where
  | endOfOptions
  | help
  /-- the option for the configuration file, with its value if that is in the same argument -/
  | config (value : Option String)
  | unknown
  | plain

/-- One dash alone is a file name. Short options may have their value attached, long ones behind an equals sign. -/
def Argument.of (cs : List Char) : Argument :=
  match cs with
  | ['-', '-'] => .endOfOptions
  | '-' :: '-' :: _ =>
    let long := cs.dropWhile (· = '-')
    let name := String.ofList (long.takeWhile (· ≠ '='))
    let value := long.dropWhile (· ≠ '=')
    if name = "config" then .config (if value = [] then none else some (valueOf value))
    else if name = "help" ∨ name = "version" then .help
    else .unknown
  | '-' :: 'c' :: value => .config (if value = [] then none else some (valueOf value))
  | '-' :: 'h' :: _ | '-' :: 'V' :: _ => .help
  | ['-'] => .plain
  | '-' :: _ => .unknown
  | _ => .plain

/-- all arguments, from left to right. The value of an option may stand in the next argument, unless that looks like
an option itself. -/
def take (p : Partial) : List String → Invocation
  | [] =>
    match p.record with
    | some record => .replay p.config record
    | none => .refused
  | arg :: rest =>
    match Argument.of arg.toList with
    | .endOfOptions =>
      match takeRecords p rest with
      | some ⟨config, some record⟩ => .replay config record
      | _ => .refused
    | .help => .help
    | .unknown => .refused
    | .plain =>
      match p.withRecord? arg with
      | some p => take p rest
      | none => .refused
    | .config (some value) =>
      match p.withConfig? value with
      | some p => take p rest
      | none => .refused
    | .config none =>
      match rest with
      | value :: rest =>
        match Argument.of value.toList, p.withConfig? value with
        | .plain, some p => take p rest
        | .help, _ => .help
        | _, _ => .refused
      | [] => .refused

def ofArgs (args : List String) : Invocation := take ⟨none, none⟩ args

end Invocation

/-! ## Files -/

/-- what the system may object to when a file is read -/
inductive SystemFault where
  | notPermitted
  | notFound
  | inputOutput
  | noDevice
  | denied
  /-- the path leads on behind a file -/
  | notDirectory
  | isDirectory
  | invalid
  | nameTooLong
  | linkLoop
  deriving DecidableEq

namespace SystemFault

def all : List SystemFault :=
  [.notPermitted, .notFound, .inputOutput, .noDevice, .denied, .notDirectory, .isDirectory, .invalid, .nameTooLong,
    .linkLoop]

/-- the number by which the system names a fault -/
def number : SystemFault → Nat
  | .notPermitted => 1
  | .notFound => 2
  | .inputOutput => 5
  | .noDevice => 6
  | .denied => 13
  | .notDirectory => 20
  | .isDirectory => 21
  | .invalid => 22
  | .nameTooLong => 36
  | .linkLoop => 40

def ofNumber? (n : Nat) : Option SystemFault := all.find? fun fault => fault.number = n

def text : SystemFault → String
  | .notPermitted => "Operation not permitted"
  | .notFound => "No such file or directory"
  | .inputOutput => "Input/output error"
  | .noDevice => "No such device or address"
  | .denied => "Permission denied"
  | .notDirectory => "Not a directory"
  | .isDirectory => "Is a directory"
  | .invalid => "Invalid argument"
  | .nameTooLong => "File name too long"
  | .linkLoop => "Too many levels of symbolic links"

def message (fault : SystemFault) : String :=
  fault.text ++ " (os error " ++ String.ofList (Text.writeDecimal fault.number) ++ ")"

end SystemFault

/-- why a file could not be read -/
inductive ReadFault where
  | system (fault : SystemFault)
  | notText
  | other (message : String)

def ReadFault.message : ReadFault → String
  | .system fault => fault.message
  | .notText => "stream did not contain valid UTF-8"
  | .other message => message

/-- what reading a file gave -/
abbrev FileText := Except ReadFault String

/-- the text that a file holds -/
def FileText.ofBytes (bytes : ByteArray) : FileText :=
  match String.fromUTF8? bytes with
  | some s => .ok s
  | none => .error .notText

/-- the configuration in a file, with messages. A file that cannot be read stands for the defaults; a file that is no
configuration stands for nothing. -/
def Config.load? : FileText → Option Config × List String
  | .error fault =>
    (some .default,
      ["Failed to load configuration file: " ++ fault.message, "Falling back to default configuration..."])
  | .ok text =>
    match (Toml.read? text.toList).bind (Config.ofValue? .toml) with
    | some config => (some config, [])
    | none => (none, ["Failed to parse configuration file:"])

/-! ## Runs -/

/-- what the tool tells beside its output -/
inductive Remark where
  | message (text : String)
  /-- an entry of the journal -/
  | entry (line : Line)

/-- how a run of the tool ends -/
structure Report where
  exitCode : UInt8
  output : String
  /-- messages and journal, in the order in which they came about -/
  remarks : List Remark

/-- the messages of a run without its journal -/
def Report.messages (report : Report) : List String :=
  report.remarks.filterMap fun
    | .message text => some text
    | .entry _ => none

/-- a run that prints nothing on its standard output -/
def Report.failure (exitCode : UInt8) (remarks : List Remark) : Report := ⟨exitCode, "", remarks⟩

/-- replays a record under a configuration and prints the summary; `remarks` came about before -/
def Config.run (config : Config) (record : FileText) (remarks : List Remark) : Report :=
  let shown (lines : List Line) : List Remark := if config.logging.enabled then lines.map .entry else []
  let created := Session.create config
  let remarks := remarks ++ shown (created.journal.map Notice.line)
  match created.answer with
  | .error e => .failure 1 (remarks ++ shown [e.line] ++ [.message ("Failed to start replay: " ++ e.message)])
  | .ok session =>
    match record with
    | .error fault => .failure 1 (remarks ++ [.message ("Unable to read record file: " ++ fault.message)])
    | .ok text =>
      let out := session.processLines 1 (Text.lines text.toList)
      let remarks := remarks ++ shown (out.journal.map Notice.line)
      match out.answer with
      | .error .timeOutOfRange => .failure 101 remarks
      | .ok () =>
        let summary := out.state.summary
        let text := String.ofList (Json.writeIndented 0 summary.answer.toValue ++ ['\n'])
        ⟨0, text, remarks ++ shown (summary.journal.map Notice.line)⟩

/-- replays a record, with a configuration file or without -/
def run (config : Option FileText) (record : FileText) : Report :=
  match config with
  | none => Config.default.run record []
  | some file =>
    match Config.load? file with
    | (none, messages) => .failure 1 (messages.map .message)
    | (some config, messages) => config.run record (messages.map .message)

end RoutingReplay.Replay
