/-
The replay tool as a program: it reads the files that the command line names, runs the replay, and prints what comes
of it.
-/
import RoutingReplay.Replay.CommandLine

namespace RoutingReplay.Replay

/-- how the tool is used -/
def usage : String :=
  "Replay routing events from a record file\n\nUsage: replay [-c FILE | --config FILE] FILENAME\n"

/-- the number by which the system names an error, if it comes with one; some come negated -/
def errorNumber? (e : IO.Error) : Option Nat :=
  let code : Option UInt32 :=
    match e with
    | .noFileOrDirectory _ code _ | .permissionDenied _ code _ | .inappropriateType _ code _
    | .invalidArgument _ code _ | .noSuchThing _ code _ | .hardwareFault code _ | .otherError code _ => some code
    | _ => none
  code.map fun code => (if code < 0x80000000 then code else 0 - code).toNat

/-- why a file could not be read, from what the system says -/
def ReadFault.ofError (e : IO.Error) : ReadFault :=
  match (errorNumber? e).bind SystemFault.ofNumber? with
  | some fault => .system fault
  | none => .other (toString e)

/-- what reading a file gives -/
def readFile (path : String) : IO FileText := do
  try
    return .ofBytes (← IO.FS.readBinFile path)
  catch e =>
    return .error (.ofError e)

/-- prints a report and returns its exit code -/
def Report.print (report : Report) : IO UInt32 := do
  for remark in report.remarks do
    match remark with
    | .message text => IO.eprintln text
    | .entry line => IO.eprintln (String.ofList line.write)
  IO.print report.output
  return report.exitCode.toUInt32

end RoutingReplay.Replay

open RoutingReplay.Replay in
def main (args : List String) : IO UInt32 := do
  match Invocation.ofArgs args with
  | .refused =>
    IO.eprint usage
    return 1
  | .help =>
    IO.print usage
    return 0
  | .replay config record =>
    let config ← config.mapM readFile
    let record ← readFile record
    (run config record).print
