import FluentTables.Query.Parts
import FluentTables.Relation.Join

/-!
# Interpreting queries

A query reads a dataset and never changes it: a creation comes back as a row for the caller to store. A query of no
known shape comes back as it is.
-/

namespace FluentTables

/-- What a query says when it returns no rows. -/
inductive Status where
  | updated
  | deleted
  /-- A query of no known shape. -/
  | executed (query : String)
  /-- A query with conditions that cannot be read. -/
  | badWhere (query : String)
deriving DecidableEq

/-- The wording of a status. -/
def Status.message : Status → String
  | updated => "record updated"
  | deleted => "record deleted"
  | executed _ => "query executed"
  | badWhere _ => "unsupported where() arguments"

/-- The query that a status repeats. -/
def Status.query? : Status → Option String
  | executed q | badWhere q => some q
  | _ => none

/-- The answer to a query. -/
inductive QueryResult where
  | rows (rows : List Row)
  | single (row : Option Row)
  /-- A new row, to be added to a table. -/
  | created (table : String) (row : Row)
  | status (s : Status)
deriving DecidableEq

namespace QueryResult

/-- The rows of an answer that has some. -/
def rows? : QueryResult → Option (List Row)
  | rows rs => some rs
  | _ => none

/-- The JSON value of an answer. -/
def toJson : QueryResult → Json
  | rows rs => rowsToJson rs
  | single (some r) => r.toJson
  | single none => .null
  | created table row => .object [("action", .string "create"), ("message", .string "record created"),
      ("data", row.toJson), ("table", .string table)]
  | status s => .object (("message", .string s.message) ::
      (s.query?.map fun q => ("query", Json.string q)).toList)

end QueryResult

/-- What a query is read with: the names in use, and the time that new rows are stamped with. -/
structure Interpreter where
  naming : Naming
  now : String

namespace Interpreter

variable (i : Interpreter)

/-- Rows with the relations of some paths attached. -/
def attachAll (paths : List RelationPath) (table : String) (data : Dataset) (rows : List Row) : List Row :=
  rows.map (i.naming.attach data (RelationNode.ofPaths paths) table)

/-- The cells that a list of pairs states. -/
def statedCells (body : List Char) : Row := .ofList ((Text.splitArgs body).filterMap Query.pair?)

/-- The row of a creation: the stated cells, then the stamps and the id that were not stated. -/
def newRow (body : List Char) (table : String) (data : Dataset) : Row :=
  (((statedCells body).insertNew "created_at" (.text i.now)).insertNew "updated_at" (.text i.now)).insertNew "id"
    (.int (nextId (data.maxId table)))

/-- The rows of a table with the relations of a bracketed list, as far as every path with conditions leads to a
row. -/
def withClosures (content : List Char) (table : String) (data : Dataset) : List Row :=
  let paths := Query.relationPaths content
  let constrained := paths.filter (!·.conditions.isEmpty)
  (i.attachAll paths table data (data.rows table)).filter fun row => constrained.all (pathHasResults row ·.path)

/-- All conditions of a text, or none if one of them cannot be read. -/
def conditions? (args : List (List Char)) : Option (List Condition) := args.mapM Condition.ofArgs?

/-- The rows that meet conditions, with the relations of an argument list if there is one. -/
def selectWith (cs : List Condition) (relations : Option (List Char)) (table : String) (data : Dataset) :
    List Row :=
  let rows := Condition.select cs (data.rows table)
  match relations with
  | some args => i.attachAll (Query.namedPaths args) table data rows
  | none => rows

/-- The answer to a statement of a shape. -/
def dispatch (shape : Shape) (m : Pattern.Match) (statement : List Char) (data : Dataset) : QueryResult :=
  let table := i.naming.tableOf (String.ofList (m.group 1))
  let bad := QueryResult.status (.badWhere (String.ofList statement))
  match shape with
  | .create => .created table (i.newRow (m.group 2) table data)
  | .all => .rows (data.rows table)
  | .closureWith => .rows (i.withClosures (m.group 2) table data)
  | .multiWhere =>
    match conditions? (Query.whereArgs statement) with
    | some cs => .rows (i.selectWith cs ((Query.withCall.search statement).map (·.group 1)) table data)
    | none => bad
  | .whereWith =>
    match Condition.ofArgs? (m.group 2) with
    | some c => .rows (i.selectWith [c] (some (m.group 3)) table data)
    | none => bad
  | .whereGet =>
    match Condition.ofArgs? (m.group 2) with
    | some c => .rows (i.selectWith [c] none table data)
    | none => bad
  | .whereFirst =>
    match Condition.ofArgs? (m.group 2) with
    | some c => .single ((data.rows table).find? c.holds)
    | none => bad
  | .find =>
    let id := String.ofList (m.group 2)
    .single ((data.rows table).find? fun row => (row.get? "id").any (·.key == id))
  | .withGet => .rows (i.attachAll (Query.namedPaths (m.group 2)) table data (data.rows table))
  | .update => .status .updated
  | .delete => .status .deleted

/-- The answer to a query. -/
def interpret (query : String) (data : Dataset) : QueryResult :=
  let statement := Query.prepare query.toList
  match Shape.recognize? statement with
  | some (shape, m) => i.dispatch shape m statement data
  | none => .status (.executed (String.ofList (Text.trim query.toList)))

end Interpreter

end FluentTables
