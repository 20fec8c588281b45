import FluentTables.Dataset
import FluentTables.Schema.Basic

/-!
# Filling in and checking rows

Cells that are missing are filled in: a counter with the next id, a stamped column with the time, and any other with
its default. What was given is checked against its column and against the rows before it. One row with a violation
refuses all rows.
-/

namespace FluentTables

/-- What is wrong with a cell. -/
inductive Violation where
  | required (column : String)
  | tooLong (column : String) (limit : Nat)
  | notUnique (column : String) (value : Value)
deriving DecidableEq

/-- The wording of a violation. -/
def Violation.message : Violation → String
  | required c => "Field '" ++ c ++ "' is required"
  | tooLong c n => "Field '" ++ c ++ "' exceeds maximum length of " ++ toString n ++ " characters"
  | notUnique c v => "Value '" ++ v.display ++ "' in field '" ++ c ++ "' must be unique"

/-- Rows that were refused. -/
structure Rejection where
  /-- The rows with violations, by their number. -/
  violations : List (Nat × List Violation)
  /-- All rows as they would have been filled in. -/
  rows : List Row
deriving DecidableEq

namespace Rejection

/-- The wordings of the violations of a row. -/
def messagesFor (e : Rejection) (row : Nat) : List String :=
  ((e.violations.lookup row).getD []).map Violation.message

/-- The JSON object of the violations. -/
def toJson (e : Rejection) : Json :=
  .object (e.violations.map fun (i, vs) =>
    ("row_" ++ toString i, .array (vs.map fun v => .string v.message)))

/-- The wording of a rejection. -/
def message (e : Rejection) : String := "validation failed: " ++ e.toJson.compact

end Rejection

namespace Autofill

/-- The value given for a column; a blank one is none. -/
def given? (row : Row) (column : String) : Option Value := (row.get? column).filter (!·.isBlank)

/-- A row being filled in, and the id that comes next. -/
structure Filling where
  row : Row
  next : Int64

/-- A column of a row filled in, if the input gives no value for it. -/
def fillColumn (now : String) (input : Row) (f : Filling) (c : Column) : Filling :=
  match given? input c.name with
  | some _ => f
  | none =>
    if c.isCounter then ⟨f.row.insert c.name (.int f.next), nextId f.next⟩
    else if c.autoFill then { f with row := f.row.insert c.name (.text now) }
    else match c.filling? with
      | some v => { f with row := f.row.insert c.name v }
      | none => f

/-- A row filled in. -/
def fillRow (now : String) (columns : List Column) (next : Int64) (input : Row) : Filling :=
  columns.foldl (fillColumn now input) ⟨input, next⟩

/-- The length of a value in characters. -/
def textLength (v : Value) : Nat := v.key.length

/-- A column that may go without a value. -/
def Column.isOptional (c : Column) : Bool := c.isCounter || c.autoFill || c.filling?.isSome || c.nullable

/-- The length that a column of type string allows. -/
def Column.limit? (c : Column) : Option Nat := if c.type = .string then c.maxLength else none

/-- What is wrong with a column of a row, given the filled rows before it. -/
def columnViolations (earlier : List Row) (input : Row) (c : Column) : List Violation :=
  match given? input c.name with
  | none => if Column.isOptional c then [] else [.required c.name]
  | some v =>
    ((Column.limit? c).filter (· < textLength v)).toList.map (.tooLong c.name ·) ++
      if c.unique && earlier.any (fun r => (r.get? c.name).any (·.same v)) then [.notUnique c.name v] else []

/-- What is wrong with a row, given the filled rows before it. -/
def rowViolations (columns : List Column) (earlier : List Row) (input : Row) : List Violation :=
  columns.flatMap (columnViolations earlier input)

/-- Rows filled in one after another, each with its violations. -/
def fillRows (now : String) (columns : List Column) :
    (next : Int64) → (earlier : List Row) → List Row → List (Row × List Violation)
  | _, _, [] => []
  | next, earlier, input :: r =>
    let f := fillRow now columns next input
    (f.row, rowViolations columns earlier input) :: fillRows now columns f.next (f.row :: earlier) r

/-- The rows filled in, or what is wrong with them. All stamped cells of a call have one time: the clock is read for the
call and not for each cell. -/
def process (now : String) (rows : List Row) (columns : List Column) : Except Rejection (List Row) :=
  let filled := fillRows now columns (nextId (maxId rows)) [] rows
  let bad := ((List.range filled.length).zip (filled.map (·.2))).filter fun e => !e.2.isEmpty
  if bad.isEmpty then .ok (filled.map (·.1)) else .error ⟨bad, filled.map (·.1)⟩

end Autofill

end FluentTables
