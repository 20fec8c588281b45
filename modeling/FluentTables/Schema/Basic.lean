import FluentTables.Schema.Column

/-!
# Schemas

A schema gives each declared table its columns. A table declared again keeps its place and takes the new columns.
-/

namespace FluentTables

/-- Declared tables and their columns. -/
structure Schema where
  tables : OrderedMap (List Column) := .empty
deriving DecidableEq

namespace Schema

/-- The columns of a table, if it is declared. -/
def columns? (s : Schema) (table : String) : Option (List Column) := s.tables.get? table

/-- The names of the tables. -/
def names (s : Schema) : List String := s.tables.keys

/-- No table is declared. -/
def isEmpty (s : Schema) : Bool := s.tables.isEmpty

/-- A table declared. -/
def declare (s : Schema) (table : String) (columns : List Column) : Schema := ⟨s.tables.insert table columns⟩

/-- The schema of a list of declarations. -/
def ofList (declarations : List (String × List Column)) : Schema := ⟨.ofList declarations⟩

/-- A schema with the tables of another added; these win. -/
def extend (s other : Schema) : Schema := ⟨s.tables.insertAll other.tables.entries⟩

/-- The JSON object of a schema. -/
def toJson (s : Schema) : Json := .object (s.tables.entries.map fun (t, cs) => (t, columnsToJson cs))

/-- A schema read from a tree. -/
def decode : Json.Decoder Schema := fun room t => (Json.Decoder.orderedMap decodeColumns room t).map Schema.mk

/-- A column on a line of its own. -/
def columnLine (c : Column) : String :=
  "  - " ++ c.name ++ ": " ++ c.type.word ++
    (match c.maxLength with
      | some n => "(" ++ toString n ++ ")"
      | none => "") ++
    (if c.autoIncrement then " auto_increment" else "") ++
    (if c.autoFill then " auto_fill" else "") ++
    (if c.nullable then " nullable" else "") ++
    (if c.unique then " unique" else "") ++
    (match c.filling? with
      | some v => " default=" ++ v.display
      | none => "") ++ "\n"

/-- Each table with its columns, for people. -/
def display (s : Schema) : String :=
  String.join (s.tables.entries.map fun (t, cs) =>
    "Table: " ++ t ++ " (columns: " ++ toString cs.length ++ ")\n" ++ String.join (cs.map columnLine))

end Schema

end FluentTables
