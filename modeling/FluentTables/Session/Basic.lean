import FluentTables.Autofill
import FluentTables.Migration.Basic
import FluentTables.Query.Interpret

/-!
# Sessions

A session holds the declared tables and the data that statements run against. This module says what a statement
gives out and why it may fail.
-/

namespace FluentTables

/-- What statements run against. -/
structure Session where
  interpreter : Interpreter
  schema : Schema := {}
  data : Dataset := {}

/-- Tables declared; each that is new to the data starts empty there. -/
def Session.declare (s : Session) (declared : Schema) : Session :=
  { s with
    data := declared.names.foldl Dataset.ensure s.data
    schema := s.schema.extend declared }

/-- What a statement gives out. -/
inductive Output where
  | nothing
  | message (text : String)
  | tables (schema : Schema)
  | rows (table : String) (rows : List Row)
  | result (r : QueryResult)
deriving DecidableEq

namespace Output

/-- The JSON value of an output. -/
def toJson : Output → Json
  | nothing => .null
  | message s => .string s
  | tables s => s.toJson
  | rows t rs => .object [("table", .string t), ("rows", rowsToJson rs)]
  | result r => r.toJson

/-- The text of an output for people. -/
def display : Output → String
  | nothing => ""
  | message s => s
  | tables s => s.display
  | rows t rs =>
    t ++ " (rows: " ++ toString rs.length ++ ")\n" ++
      String.join (rs.map fun r => "  " ++ r.toJson.compact ++ "\n")
  | result r => r.toJson.pretty

end Output

/-- Why a statement cannot be carried out. -/
inductive StatementFault where
  /-- `SHOW` without a table. -/
  | showNothing
  | unknownTable (name : String)
  /-- `SAVE` without a table or without rows. -/
  | saveForm
  | invalidRows
  | undeclaredTable (name : String)
  | unknownDeclaration
  /-- A script that ends within a statement. -/
  | unfinished
deriving DecidableEq

/-- The wording of a fault. -/
def StatementFault.message : StatementFault → String
  | showNothing => "Expected: SHOW TABLES or SHOW <table>"
  | unknownTable t => "Table not found: " ++ t
  | saveForm => "Expected: SAVE <table> <json rows>"
  | invalidRows => "Invalid row data:"
  | undeclaredTable t => "Table not declared: " ++ t
  | unknownDeclaration => "Unrecognized table declaration"
  | unfinished => "Unexpected end of script (unbalanced brackets)"

/-- Why a statement failed. -/
inductive StatementErrorCause where
  | fault (f : StatementFault)
  | rejected (e : Rejection)
deriving DecidableEq

/-- A statement that failed, by the line on which it begins. -/
structure StatementError where
  line : Nat
  cause : StatementErrorCause
deriving DecidableEq

/-- The wording of an error. -/
def StatementError.message (e : StatementError) : String :=
  "[line " ++ toString e.line ++ "] " ++
    match e.cause with
    | .fault f => "Parse error: " ++ f.message
    | .rejected r => r.message

end FluentTables
