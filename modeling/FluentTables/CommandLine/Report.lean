import FluentTables.CommandLine.Arguments
import FluentTables.Files
import FluentTables.Session.Repl

/-!
# Reports

A command reads files and input and comes to a report: what it writes, and the status it ends with. A file that
cannot be used ends it before it writes anything.
-/

namespace FluentTables.CommandLine

/-- What a command finds. -/
structure Surroundings where
  /-- The texts of files, by their names. -/
  file? : String → Option (List Char)
  /-- The lines of a dialogue. -/
  input : List Char
  /-- The time. -/
  now : String

/-- What comes of a command. -/
structure Report where
  status : Nat := 0
  out : String := ""
  err : String := ""
  /-- A file of settings that was made. -/
  settings : Option String := none
deriving DecidableEq

/-- A text on a line of its own. -/
def line (s : String) : String := s ++ "\n"

/-- An output as it is written. -/
def Format.write (f : Format) (o : Output) : String :=
  line (match f with
    | display => o.display
    | toon => o.toJson.compact
    | json => o.toJson.pretty)

/-- An error as it is written. -/
def errorLine (e : StatementError) : String := line ("Error: " ++ e.message)

/-- What an event of a dialogue writes, to the output and to the errors. -/
def Format.writeEvent (f : Format) : Repl.Event → String × String
  | .quit | .silent | .output .nothing => ("", "")
  | .output o => (f.write o, "")
  | .failure e => ("", errorLine e)

/-- What the rest of a dialogue writes, prompts included. -/
def converse (f : Format) (r : Repl) : List (List Char) → String × String
  | [] => (r.prompt, "")
  | l :: rest =>
    match r.read l with
    | (.quit, _) => (r.prompt, "")
    | (e, t) =>
      let (out, err) := f.writeEvent e
      let (outs, errs) := converse f t rest
      (r.prompt ++ out ++ outs, err ++ errs)

namespace Surroundings

variable (w : Surroundings)

/-- The text of a file. -/
def text (name : String) : Except FileFault (List Char) :=
  match w.file? name with
  | some s => .ok s
  | none => .error .missing

/-- The settings of a file; without one, those of the file that is looked for. -/
def settings : Option String → Except FileFault Settings
  | some name => Settings.ofFile (w.file? name)
  | none => .ok (.ofTomlOrDefault (w.file? Settings.fileName))

/-- The dataset of a file; without one, an empty one. -/
def dataset : Option String → Except FileFault Dataset
  | some name => Dataset.ofFile (w.file? name)
  | none => .ok {}

/-- A session under settings with the dataset of a file. -/
def session (s : Settings) (data : Option String) : Except FileFault Session := do
  return { interpreter := { naming := s.naming, now := w.now }, data := ← w.dataset data }

end Surroundings

/-- What is written before all tables, if there are none. -/
def noTables : String := line "No table declarations found"

/-- What comes of a command under settings. -/
def Command.report (w : Surroundings) (s : Settings) : Command → Except FileFault Report
  | repl data format => do
    let (out, err) := converse format { session := ← w.session s data } (Text.lines w.input)
    return { out := Repl.banner ++ out, err }
  | run file data format => do
    let r := (← w.session s data).runScript (← w.text file)
    return {
      status := if r.error.isSome then 1 else 0
      out := String.join (r.outputs.map format.write)
      err := (r.error.map errorLine).getD "" }
  | parse file format => do
    let tables := migrationSchema (String.ofList (← w.text file))
    return { out := format.write (.tables tables), err := if tables.isEmpty then noTables else "" }
  | query text data format => do
    let session ← w.session s (some data)
    return { out := format.write (.result (session.interpreter.interpret text session.data)) }
  | serve _ => return { status := 1, err := line "Error: no listener" }
  | init =>
    let done := line "Initialization complete."
    if (w.file? Settings.fileName).isSome then
      return { out := line ("Configuration file already exists: " ++ Settings.fileName) ++ done }
    else
      return {
        out := line ("Created default configuration: " ++ Settings.fileName) ++ done
        settings := some Settings.defaultDocument }

/-- What comes of an invocation. -/
def Invocation.report (w : Surroundings) (i : Invocation) : Except FileFault Report := do
  i.command.report w (← w.settings i.settings)

/-- How the commands are used. -/
def usage : String := String.join (([
  "Usage: tablesim [--config FILE] [COMMAND]", "",
  "  repl [--data FILE] [--format FORMAT]",
  "  run FILE [--data FILE] [--format FORMAT]",
  "  parse FILE [--format FORMAT]",
  "  query TEXT --data FILE [--format FORMAT]",
  "  serve [--port PORT]",
  "  init", "",
  "FORMAT is display, toon or json."]).map line)

/-- The report when arguments lead to no command. -/
def Stop.report : Stop → Report
  | refused => { status := 2, err := usage }
  | help => { out := usage }
  | version => { out := line "tablesim 0.1" }

/-- The report when a file cannot be used. -/
def faultReport (f : FileFault) : Report := { status := 1, err := line ("Error: " ++ f.message) }

/-- What comes of arguments. -/
def report (w : Surroundings) (arguments : List String) : Report :=
  match Invocation.ofArguments arguments with
  | .error s => s.report
  | .ok i =>
    match i.report w with
    | .error f => faultReport f
    | .ok r => r

end FluentTables.CommandLine
