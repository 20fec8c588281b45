import FluentTables.Relation.Naming
import FluentTables.Relation.Tree

/-!
# Joining rows

`Naming.fetch` finds the rows related to a row, `Naming.attach` puts them into its cells along trees of relations,
and `pathHasResults` tells whether a path led to any row. Cells are compared by their keys; null is no key.
-/

namespace FluentTables

/-- The key of a cell that is there and not null. -/
def cellKey? (row : Row) (column : String) : Option String :=
  match row.get? column with
  | some v => if v.isNull then none else some v.key
  | none => none

theorem cellKey?_eq_some_iff {row : Row} {column k : String} :
    cellKey? row column = some k ↔ ∃ v, row.get? column = some v ∧ v ≠ .null ∧ v.key = k := by
  unfold cellKey?
  cases row.get? column with
  | none => simp
  | some v => cases v <;> simp [Value.isNull]

/-- The related rows of a row: a list if there may be many, a record or null otherwise. Conditions bear on many
rows only. -/
def RelationSpec.fetch (spec : RelationSpec) (row : Row) (data : Dataset) (conditions : List Condition) : Value :=
  let related := data.rows spec.table
  match spec.kind with
  | .hasMany =>
    match cellKey? row "id" with
    | none => .list []
    | some id =>
      .ofRows (related.filter fun r => cellKey? r spec.joinKey == some id && Condition.allHold conditions r)
  | .belongsTo =>
    match cellKey? row spec.joinKey with
    | none => .null
    | some target =>
      match related.find? fun r => (r.get? "id").any (·.key == target) with
      | some r => .record r
      | none => .null

/-- The rows of a relation of a row. -/
def Naming.fetch (n : Naming) (row : Row) (relation owner : String) (data : Dataset) (conditions : List Condition) :
    Value :=
  (n.spec relation owner data).fetch row data conditions

/-- A change made to the rows that a value holds. -/
def Value.mapRows (f : Row → Row) : Value → Value
  | .list items => .list (items.map fun
    | .record r => .record (f r)
    | v => v)
  | .record r => .record (f r)
  | v => v

namespace Naming

mutual

/-- A row with the rows of a relation put into the cell of its name. -/
def attachNode (n : Naming) (data : Dataset) : RelationNode → String → Row → Row
  | ⟨name, conditions, children⟩, owner, row =>
    let spec := n.spec name owner data
    row.insert name ((spec.fetch row data conditions).mapRows fun r => attach n data children spec.table r)

/-- A row with the rows of all relations attached, one after another. -/
def attach (n : Naming) (data : Dataset) : List RelationNode → String → Row → Row
  | [], _, row => row
  | node :: r, owner, row => attach n data r owner (attachNode n data node owner row)

end

end Naming

/-- A value holds a row at the end of the segments. -/
def Value.hasResults : List String → Value → Bool
  | [], v => !v.isEmptyRelation
  | s :: r, .list items => items.any fun
    | .record row => (row.get? s).any (hasResults r)
    | _ => false
  | s :: r, .record row => (row.get? s).any (hasResults r)
  | _ :: _, _ => false

/-- A path from a row leads to a row. -/
def pathHasResults (row : Row) (path : String) : Bool :=
  match pathSegments path with
  | [] => false
  | s :: r => (row.get? s).any (Value.hasResults r)

end FluentTables
