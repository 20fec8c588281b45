import FluentTables.Value.Json
import FluentTables.Value.Literal
import FluentTables.Like

/-!
# Conditions on rows

A condition compares a cell with a value by an operator. It is read from the arguments of a `where` call, two of
them for equality and three with an operator. A cell that is missing or null meets no condition.
-/

namespace FluentTables

/-- A comparison. -/
inductive Operator where
  | eq
  | gt
  | lt
  | ge
  | le
  | like
  /-- A word that is no operator; it holds of nothing. -/
  | unsupported (word : String)
deriving DecidableEq

namespace Operator

/-- The operator that a word names, quoted or not. -/
def ofText (s : List Char) : Operator :=
  let w := Text.stripQuotes s
  if w = ['='] || w = ['=', '='] then eq
  else if w = ['>'] then gt
  else if w = ['<'] then lt
  else if w = ['>', '='] then ge
  else if w = ['<', '='] then le
  else if Text.sameAscii w "like".toList then like
  else unsupported (String.ofList w)

/-- The sign of an operator. -/
def symbol : Operator → String
  | eq => "="
  | gt => ">"
  | lt => "<"
  | ge => ">="
  | le => "<="
  | like => "like"
  | unsupported w => w

/-- The JSON value of an operator: its name, or its word under a name. -/
def toJson : Operator → Json
  | eq => .string "Eq"
  | gt => .string "Gt"
  | lt => .string "Lt"
  | ge => .string "Gte"
  | le => .string "Lte"
  | like => .string "Like"
  | unsupported w => .object [("Unsupported", .string w)]

end Operator

/-- A column compared with a value. -/
structure Condition where
  column : String
  operator : Operator
  value : Value
deriving DecidableEq

namespace Condition

/-- A column, an operator and a value as they stand among the arguments. -/
def ofParts? (column : List Char) (operator : Operator) (value : List Char) : Option Condition :=
  let name := Text.stripQuotes column
  if name.isEmpty then none
  else some ⟨String.ofList name, operator, .text (String.ofList (Text.stripQuotes value))⟩

/-- The condition that arguments state, if they are two or three and name a column. -/
def ofArgs? (args : List Char) : Option Condition :=
  match Text.splitArgs args with
  | [column, value] => ofParts? column .eq value
  | [column, operator, value] => ofParts? column (.ofText operator) value
  | _ => none

/-- Equal for a condition, both sides in normal form: a truth value is equal to what counts the same, numbers are
compared as numbers, and texts without outer white space and case. -/
def valuesEqual (a b : Value) : Bool :=
  match a, b with
  | .bool _, _ | _, .bool _ => a.truthy == b.truthy
  | .text s, .text t => Text.lower (Text.trim s.toList) == Text.lower (Text.trim t.toList)
  | _, _ =>
    match a.number?, b.number? with
    | some x, some y => x.numEq y
    | _, _ => a.same b

/-- Two numbers compared; anything else compares as false. -/
def compareNumbers (rel : Binary64 → Binary64 → Bool) (a b : Value) : Bool :=
  match a.number?, b.number? with
  | some x, some y => rel x y
  | _, _ => false

/-- A cell that is there meets a condition. -/
def holdsFor (c : Condition) (cell : Value) : Bool :=
  let a := cell.normalize
  let b := c.value.normalize
  match c.operator with
  | .eq => valuesEqual a b
  | .gt => compareNumbers (fun x y => y.numLt x) a b
  | .lt => compareNumbers Binary64.numLt a b
  | .ge => compareNumbers (fun x y => y.numLe x) a b
  | .le => compareNumbers Binary64.numLe a b
  | .like => Like.isMatch cell.key.toList c.value.key.toList
  | .unsupported _ => false

/-- A row meets a condition. -/
def holds (c : Condition) (row : Row) : Bool :=
  match row.get? c.column with
  | some cell => !cell.isNull && c.holdsFor cell
  | none => false

/-- A row meets every condition. -/
def allHold (cs : List Condition) (row : Row) : Bool := cs.all (·.holds row)

/-- The rows that meet every condition, in their order. -/
def select (cs : List Condition) (rows : List Row) : List Row := rows.filter (allHold cs)

end Condition

end FluentTables
