import FluentTables.Value.Json

/-!
# Datasets

A dataset gives each table its rows. The order of the tables is the order in which they came.
-/

namespace FluentTables

/-- Tables and their rows. -/
structure Dataset where
  tables : OrderedMap (List Row) := .empty
deriving DecidableEq

/-- The largest integer that an `id` cell of the rows gives, and zero at least. -/
def maxId (rows : List Row) : Int64 :=
  (rows.filterMap fun row => (row.get? "id").bind Value.numericId?).foldl max 0

/-- The next integer, unless there is none. -/
def nextId (i : Int64) : Int64 := if i = Int64.maxValue then i else i + 1

namespace Dataset

/-- The rows of a table; a table that is not there has none. -/
def rows (d : Dataset) (table : String) : List Row := (d.tables.get? table).getD []

/-- A table is there. -/
def contains (d : Dataset) (table : String) : Bool := d.tables.contains table

/-- The names of the tables. -/
def names (d : Dataset) : List String := d.tables.keys

/-- The rows of a table replaced. -/
def setRows (d : Dataset) (table : String) (rows : List Row) : Dataset := ⟨d.tables.insert table rows⟩

/-- A table made sure of; its rows stay. -/
def ensure (d : Dataset) (table : String) : Dataset := ⟨d.tables.insertNew table []⟩

/-- A row added at the end of a table. -/
def push (d : Dataset) (table : String) (row : Row) : Dataset :=
  ⟨d.tables.alter table fun rows => rows.getD [] ++ [row]⟩

/-- The largest `id` of a table. -/
def maxId (d : Dataset) (table : String) : Int64 := FluentTables.maxId (d.rows table)

/-- The JSON object of a dataset. -/
def toJson (d : Dataset) : Json := .object (d.tables.entries.map fun (t, rows) => (t, rowsToJson rows))

/-- A dataset read from a tree. -/
def decode : Json.Decoder Dataset := fun room t => (Json.Decoder.orderedMap decodeRows room t).map Dataset.mk

theorem rows_setRows (d : Dataset) (t u : String) (rs : List Row) :
    (d.setRows t rs).rows u = if t = u then rs else d.rows u := by
  simp only [rows, setRows, OrderedMap.get?_insert]
  split <;> rfl

theorem rows_push (d : Dataset) (t u : String) (r : Row) :
    (d.push t r).rows u = if t = u then d.rows u ++ [r] else d.rows u := by
  simp only [rows, push, OrderedMap.get?_alter]
  split <;> rfl

theorem rows_ensure (d : Dataset) (t u : String) : (d.ensure t).rows u = d.rows u := by
  simp only [rows, ensure, OrderedMap.get?_insertNew]
  split
  · cases d.tables.get? u <;> rfl
  · rfl

end Dataset

end FluentTables
