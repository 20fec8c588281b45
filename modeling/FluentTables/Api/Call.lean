import FluentTables.Autofill
import FluentTables.Migration.Basic
import FluentTables.Query.Interpret

/-!
# Calls

A call reads migrations, runs a query on the data it brings along, or fills in and checks rows. It leaves nothing
behind.
-/

namespace FluentTables.Api

/-- What may be called. -/
inductive Endpoint where
  | parseMigrations
  | executeQuery
  | saveTableData
deriving DecidableEq

/-- A call. -/
inductive Call where
  | parseMigrations (text : String)
  | executeQuery (query : String) (data : Dataset)
  | saveTableData (table : String) (rows : List Row) (columns : List Column)

/-- A reply. -/
inductive Reply where
  | tables (s : Schema)
  | result (r : QueryResult)
  | saved (table : String) (rows : List Row)
  /-- The call is not read; what the reader says of its text is left out. -/
  | malformed
  | rejected (e : Rejection)

/-- A call read from a tree. -/
def Endpoint.decode : Endpoint → Json.Decoder Call
  | parseMigrations => .struct ["migration_text"] fun room fs =>
    (Json.Decoder.text.required room fs "migration_text").map .parseMigrations
  | executeQuery => .struct ["query", "table_data"] fun room fs => do
    let query ← Json.Decoder.text.required room fs "query"
    return .executeQuery query (← Dataset.decode.withDefault room fs "table_data" {})
  | saveTableData => .struct ["table", "data", "table_structure"] fun room fs => do
    let table ← Json.Decoder.text.required room fs "table"
    let rows ← decodeRows.required room fs "data"
    return .saveTableData table rows (← decodeColumns.required room fs "table_structure")

/-- What a call comes to. -/
def Call.reply (i : Interpreter) : Call → Reply
  | parseMigrations text => .tables (migrationSchema text)
  | executeQuery query data => .result (i.interpret query data)
  | saveTableData table rows columns =>
    match Autofill.process i.now rows columns with
    | .ok filled => .saved table filled
    | .error e => .rejected e

/-- The reply to a call in the form of a text. -/
def Endpoint.reply (e : Endpoint) (i : Interpreter) (body : List Char) : Reply :=
  match e.decode.read? body with
  | some c => c.reply i
  | none => .malformed

namespace Reply

/-- The call was carried out. -/
def isSuccess : Reply → Bool
  | tables _ | result _ | saved _ _ => true
  | malformed | rejected _ => false

/-- What a reply holds beside its success. -/
def content : Reply → List (String × Json)
  | tables s => [("tables", s.toJson)]
  | result r => [("result", r.toJson)]
  | saved table rows =>
    [("message", .string ("Data saved for table '" ++ table ++ "'")), ("processed_data", rowsToJson rows)]
  | malformed => [("message", .string "Malformed input:")]
  | rejected e => [("message", .string e.toJson.compact)]

/-- The JSON object of a reply. -/
def toJson (r : Reply) : Json := .object (("success", .bool r.isSuccess) :: r.content)

end Reply

end FluentTables.Api
