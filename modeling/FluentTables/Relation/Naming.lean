import FluentTables.Dataset
import FluentTables.Text.Case
import FluentTables.Text.Lines

/-!
# Names of tables, keys and relations

Relations are declared nowhere. A model name leads to a table, a table to the key by which others point at it, and
the name of a relation to its kind and to the table that holds its rows.
-/

namespace FluentTables

/-- How many rows a relation leads to. -/
inductive RelationKind where
  | hasMany
  | belongsTo
deriving DecidableEq

/-- The name of a kind. -/
def RelationKind.name : RelationKind → String
  | hasMany => "HasMany"
  | belongsTo => "BelongsTo"

/-- The last character is an s. -/
def isPlural (s : String) : Bool := s.toList.getLast? == some 's'

/-- A name without one s at its end. -/
def singular (s : String) : String := if isPlural s then String.ofList s.toList.dropLast else s

/-- A text in lower case. -/
def lowerCase (s : String) : String := String.ofList (Text.lower s.toList)

theorem isPlural_append_s (s : String) : isPlural (s ++ "s") = true := by
  simp [isPlural]

theorem singular_append_s (s : String) : singular (s ++ "s") = s := by
  simp [singular, isPlural_append_s]

theorem singular_of_not_isPlural {s : String} (h : isPlural s = false) : singular s = s := by
  simp [singular, h]

/-- ASCII text without capitals is in lower case. -/
theorem lowerCase_eq_self {s : String} (h : ∀ c ∈ s.toList, c.toNat < 0x80 ∧ c.toLower = c) : lowerCase s = s := by
  rw [lowerCase, Text.lower_ascii fun c hc => (h c hc).1, List.map_congr_left fun c hc => (h c hc).2, List.map_id',
    String.ofList_toList]

/-- The usual reading of a relation's name on a table: a plural that is not the table itself leads to many rows. -/
def usualKind (table relation : String) : RelationKind :=
  if isPlural relation && singular relation != singular table then .hasMany else .belongsTo

/-- What is known of names. -/
structure Naming where
  /-- The table of a model, by its name in lower case. -/
  models : OrderedMap String
  /-- The key by which other tables point at a table. -/
  foreignKeys : OrderedMap String
  /-- The kind of a relation of a table. -/
  kind : String → String → RelationKind := usualKind

namespace Naming

/-- The models that are known from the start. -/
def usualModels : OrderedMap String := .ofList [
  ("product", "products"), ("brand", "brands"), ("category", "categories"), ("supplier", "suppliers"),
  ("user", "users"), ("post", "posts")]

/-- The foreign keys that are known from the start. -/
def usualForeignKeys : OrderedMap String := .ofList [
  ("categories", "category_id"), ("companies", "company_id"), ("countries", "country_id")]

/-- The usual names with others added; model names count in lower case. -/
def extend (models foreignKeys : OrderedMap String) : Naming where
  models := usualModels.insertAll (models.entries.map fun (m, t) => (lowerCase m, t))
  foreignKeys := usualForeignKeys.insertAll foreignKeys.entries

/-- The table of a model or a relation. -/
def tableOf (n : Naming) (model : String) : String :=
  let lower := lowerCase model
  match n.models.get? lower with
  | some table => table
  | none => if isPlural lower then lower else lower ++ "s"

/-- The key by which other tables point at a table. -/
def foreignKeyOf (n : Naming) (table : String) : String :=
  (n.foreignKeys.get? table).getD (singular table ++ "_id")

/-- A table stands in for a relation whose own table is missing: one of their names holds the other. -/
def standsFor (relation table : String) : Bool :=
  let r := Text.lower relation.toList
  let t := (singular table).toList
  Text.contains r table.toList || (!t.isEmpty && Text.contains t r)

/-- The table that holds the rows of a relation. -/
def relationTable (n : Naming) (relation : String) (data : Dataset) : String :=
  let table := n.tableOf relation
  if data.contains table then table else (data.names.find? (standsFor relation)).getD table

theorem relationTable_eq {n : Naming} {relation table : String} {data : Dataset} (h : n.tableOf relation = table)
    (ht : data.contains table = true) : n.relationTable relation data = table := by
  subst h
  exact if_pos ht

end Naming

/-- How a relation is joined. -/
structure RelationSpec where
  name : String
  kind : RelationKind
  /-- The table that holds the related rows. -/
  table : String
  /-- The column of the join: of the related rows if there are many, of the owner otherwise. -/
  joinKey : String
deriving DecidableEq

/-- How a relation of a table is joined. -/
def Naming.spec (n : Naming) (relation owner : String) (data : Dataset) : RelationSpec where
  name := relation
  kind := n.kind owner relation
  table := n.relationTable relation data
  joinKey :=
    match n.kind owner relation with
    | .hasMany => n.foreignKeyOf owner
    | .belongsTo => singular relation ++ "_id"

/-- The JSON object of a join. -/
def RelationSpec.toJson (s : RelationSpec) : Json :=
  .object [("name", .string s.name), ("kind", .string s.kind.name), ("table", .string s.table),
    ("join_key", .string s.joinKey)]

end FluentTables
