import FluentTables.Session.Basic

/-!
# Statements

A statement shows tables, saves rows, declares tables or is a query. It is carried out by a step of the session, which
gives a session back whether it fails or not.
-/

namespace FluentTables

/-- A step of a session: what it gives out or why it fails, and in both cases the session after it. -/
abbrev Step := Except StatementError Output × Session

/-- What a statement comes to: an error, or an output and the session after it. -/
abbrev Outcome := Except StatementError (Output × Session)

/-- What a step comes to. -/
def Step.outcome : Step → Outcome
  | (.ok o, t) => .ok (o, t)
  | (.error e, _) => .error e

namespace Session

variable (s : Session) (line : List Char) (number : Nat)

/-- A statement at a line that fails. -/
def refuse (f : StatementFault) : Step := (.error ⟨number, .fault f⟩, s)

/-- What follows the first four bytes of a statement, trimmed; nothing if a character lies across the cut. -/
def operand : List Char := Text.trim ((Text.dropBytes? 4 line).getD [])

/-- The names of all tables: the declared ones, then those that only have rows. -/
def tableNames : List String := s.schema.names ++ s.data.names.filter (!s.schema.names.contains ·)

/-- A line of the list of tables. -/
def tableLine (name columns rows : String) : List Char :=
  Text.padRight 24 name.toList ++ ' ' :: Text.padRight 10 columns.toList ++ ' ' ::
    Text.padRight 10 rows.toList ++ ['\n']

/-- The list of tables with their numbers of columns and rows. -/
def tableList : String :=
  let heading := "--- TABLES ---\n".toList ++ tableLine "Table" "Columns" "Rows" ++ List.replicate 44 '-' ++ ['\n']
  let body := s.tableNames.flatMap fun t =>
    tableLine t (toString ((s.schema.columns? t).getD []).length) (toString (s.data.rows t).length)
  String.ofList (heading ++ body ++ List.replicate 14 '-')

/-- `SHOW TABLES` and `SHOW table`. -/
def showStep : Step :=
  let rest := operand line
  let table := String.ofList rest
  if Text.sameAscii rest "tables".toList then (.ok (.message s.tableList), s)
  else if rest.isEmpty then s.refuse number .showNothing
  else if !s.data.contains table && (s.schema.columns? table).isNone then s.refuse number (.unknownTable table)
  else (.ok (.rows table (s.data.rows table)), s)

/-- `SAVE table [...]`: the rows are filled in and checked, and replace those of the table. -/
def saveStep : Step :=
  let rest := operand line
  match rest.span (!Text.isBlank ·) with
  | (_, []) => s.refuse number .saveForm
  | (name, payload) =>
    let table := String.ofList name
    match decodeRows.read? (Text.trim payload) with
    | none => s.refuse number .invalidRows
    | some rows =>
      match s.schema.columns? table with
      | none => s.refuse number (.undeclaredTable table)
      | some columns =>
        match Autofill.process s.interpreter.now rows columns with
        | .error e => (.error ⟨number, .rejected e⟩, s)
        | .ok filled =>
          (.ok (.message ("Saved " ++ toString filled.length ++ " rows to '" ++ table ++ "'")),
            { s with data := s.data.setRows table filled })

/-- A statement declares tables. -/
def isDeclaration : Bool :=
  Text.contains "Schema::create".toList line || Text.startsWith "CREATE TABLE".toList (Text.upper line)

/-- A declaration of tables. -/
def declarationStep : Step :=
  let declared := migrationSchema (String.ofList line)
  if declared.isEmpty then s.refuse number .unknownDeclaration else (.ok (.tables declared), s.declare declared)

/-- A query; a row that it creates is added to its table. -/
def runQuery : Output × Session :=
  let r := s.interpreter.interpret (String.ofList line) s.data
  match r with
  | .created table row => (.result r, { s with data := s.data.push table row })
  | _ => (.result r, s)

/-- A line that says nothing: a blank one or a comment. -/
def isSilent (line : List Char) : Bool :=
  line.isEmpty || Text.startsWith ['#'] line || Text.startsWith ['/', '/'] line

/-- A statement carried out, the line on which it begins being `number`. -/
def step (statement : List Char) : Step :=
  let line := Text.trim statement
  if isSilent line then (.ok .nothing, s)
  else if Text.startsWith "SHOW ".toList (Text.upper line) then s.showStep line number
  else if Text.startsWith "SAVE ".toList (Text.upper line) then s.saveStep line number
  else if isDeclaration line then s.declarationStep line number
  else
    let (o, t) := s.runQuery line
    (.ok o, t)

/-- What a `SHOW` comes to. -/
def runShow : Outcome := (s.showStep line number).outcome

/-- What a `SAVE` comes to. -/
def runSave : Outcome := (s.saveStep line number).outcome

/-- What a declaration comes to. -/
def runDeclaration : Outcome := (s.declarationStep line number).outcome

/-- What a statement comes to. -/
def execute (statement : List Char) : Outcome := (s.step number statement).outcome

end Session

end FluentTables
