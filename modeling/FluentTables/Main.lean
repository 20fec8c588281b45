import FluentTables.CommandLine.Report
import Std.Time.Format
import Std.Time.Zoned

/-!
# The command line

Files, the clock and the standard streams around the commands. A dialogue reads its lines as they come.
-/

namespace FluentTables.CommandLine

/-- The local time. -/
def localTime : IO String := return (← Std.Time.PlainDateTime.now).format "uuuu-MM-dd HH:mm:ss"

/-- The text of a file, if it can be read. -/
def readFile? (name : String) : IO (Option (List Char)) := do
  try return some (← IO.FS.readFile name).toList
  catch _ => return none

/-- The files that a command reads. -/
def Command.files : Command → List String
  | repl data _ => data.toList
  | run file data _ => file :: data.toList
  | parse file _ => [file]
  | query _ data _ => [data]
  | serve _ | init => []

/-- What an invocation finds; a dialogue has no lines yet. -/
def Invocation.surroundings (i : Invocation) : IO Surroundings := do
  let names := Settings.fileName :: i.settings.toList ++ i.command.files
  let texts ← names.mapM fun n => return (n, ← readFile? n)
  return { file? := fun n => (texts.lookup n).join, input := [], now := ← localTime }

/-- Writes a report and gives its status. -/
def Report.write (r : Report) : IO UInt32 := do
  IO.print r.out
  IO.eprint r.err
  if let some text := r.settings then IO.FS.writeFile Settings.fileName text
  return UInt32.ofNat r.status

/-- The time of a dialogue moved on. -/
def atTime (r : Repl) (now : String) : Repl :=
  { r with session := { r.session with interpreter := { r.session.interpreter with now } } }

/-- A dialogue with the standard streams. -/
partial def talk (f : Format) (r : Repl) : IO UInt32 := do
  IO.print r.prompt
  (← IO.getStdout).flush
  let l ← (← IO.getStdin).getLine
  if l.isEmpty then return 0
  match (atTime r (← localTime)).read l.toList with
  | (.quit, _) => return 0
  | (e, t) =>
    let (out, err) := f.writeEvent e
    IO.print out
    IO.eprint err
    talk f t

/-- Carries out an invocation. -/
def Invocation.carryOut (i : Invocation) : IO UInt32 := do
  let w ← i.surroundings
  match i.command with
  | .repl data format =>
    match (do w.session (← w.settings i.settings) data) with
    | .error f => (faultReport f).write
    | .ok s => do
      IO.print Repl.banner
      talk format { session := s }
  | _ =>
    match i.report w with
    | .error f => (faultReport f).write
    | .ok r => r.write

end FluentTables.CommandLine

/-- The program. -/
def main (arguments : List String) : IO UInt32 :=
  match FluentTables.CommandLine.Invocation.ofArguments arguments with
  | .error s => s.report.write
  | .ok i => i.carryOut
