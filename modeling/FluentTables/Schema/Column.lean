import FluentTables.Value.Json

/-!
# Columns

A column has a name, a type and whatever was declared of it. Written in JSON it shows only what was declared.
-/

namespace FluentTables

/-- The type of a column. A word that names no known type is kept. -/
inductive ColumnType where
  | bigint
  | string
  | text
  | integer
  | boolean
  | decimal
  | timestamp
  | foreignId
  | other (word : String)
deriving DecidableEq

namespace ColumnType

/-- The word for a type. -/
def word : ColumnType → String
  | bigint => "bigint"
  | string => "string"
  | text => "text"
  | integer => "integer"
  | boolean => "boolean"
  | decimal => "decimal"
  | timestamp => "timestamp"
  | foreignId => "foreignId"
  | other w => w

/-- The types that have a word of their own. -/
def known : List ColumnType := [bigint, string, text, integer, boolean, decimal, timestamp, foreignId]

/-- The type that a word names. -/
def ofWord (w : String) : ColumnType := (known.find? (·.word = w)).getD (other w)

@[simp] theorem word_ofWord (w : String) : (ofWord w).word = w := by
  unfold ofWord
  cases h : known.find? (·.word = w) with
  | none => rfl
  | some t => simpa using List.find?_some h

/-- Known types have words of their own. -/
theorem eq_of_word_eq {t u : ColumnType} (ht : t ∈ known) (hu : u ∈ known) (h : t.word = u.word) : t = u := by
  have hall : ∀ t ∈ known, ∀ u ∈ known, t.word = u.word → t = u := by decide
  exact hall t ht u hu h

/-- **The type that a word names** has that word; it is a known type whenever one has it. -/
theorem ofWord_eq_iff {w : String} {t : ColumnType} :
    ofWord w = t ↔ t.word = w ∧ (t ∈ known ∨ ∀ u ∈ known, u.word ≠ w) := by
  cases hfind : known.find? (·.word = w) with
  | none =>
    have hnone : ∀ u ∈ known, u.word ≠ w := by simpa using hfind
    rw [ofWord, hfind, Option.getD_none]
    constructor
    · rintro rfl
      exact ⟨rfl, Or.inr hnone⟩
    · rintro ⟨rfl, -⟩
      cases t
      case other => rfl
      all_goals exact absurd rfl (hnone _ (by decide))
  | some u =>
    have hu : u ∈ known := List.mem_of_find?_eq_some hfind
    have hword : u.word = w := by simpa using List.find?_some hfind
    rw [ofWord, hfind, Option.getD_some]
    constructor
    · rintro rfl
      exact ⟨hword, Or.inl hu⟩
    · rintro ⟨ht, hknown | hnone⟩
      · exact eq_of_word_eq hu hknown (hword.trans ht.symm)
      · exact absurd hword (hnone u hu)

end ColumnType

/-- A column of a table. -/
structure Column where
  name : String
  type : ColumnType
  maxLength : Option Nat := none
  precision : Option Nat := none
  scale : Option Nat := none
  autoIncrement : Bool := false
  autoFill : Bool := false
  nullable : Bool := false
  unique : Bool := false
  /-- The declared default; a default of null is declared, but fills nothing. -/
  default? : Option Value := none
deriving DecidableEq

namespace Column

/-- The column of the primary key. -/
def id : Column where
  name := "id"
  type := .bigint
  autoIncrement := true

/-- The default that fills a missing cell. -/
def filling? (c : Column) : Option Value := c.default?.filter (!·.isNull)

/-- The column counts up by itself. -/
def isCounter (c : Column) : Bool := c.name == "id" && c.autoIncrement

/-- A field that is shown if it has a value. -/
def shown (name : String) (f : α → Json) (a : Option α) : List (String × Json) := (a.map fun a => (name, f a)).toList

/-- A field that is shown if it is true. -/
def flag (name : String) (b : Bool) : List (String × Json) := if b then [(name, .bool true)] else []

/-- The JSON object of a column. -/
def toJson (c : Column) : Json :=
  .object ([("name", .string c.name), ("type", .string c.type.word)] ++
    shown "maxLength" (fun n => .int (n : Nat)) c.maxLength ++
    shown "precision" (fun n => .int (n : Nat)) c.precision ++
    shown "scale" (fun n => .int (n : Nat)) c.scale ++
    flag "autoIncrement" c.autoIncrement ++ flag "autoFill" c.autoFill ++ flag "nullable" c.nullable ++
    flag "unique" c.unique ++ shown "default" Value.toJson c.default?)

/-- The fields of a column in a text. -/
def fieldNames : List String :=
  ["name", "type", "maxLength", "precision", "scale", "autoIncrement", "autoFill", "nullable", "unique", "default"]

open Json.Decoder in
/-- A column read from a tree. A default of null counts as none. -/
def decode : Json.Decoder Column := struct fieldNames fun room fs => do
  return {
    name := ← text.required room fs "name"
    type := .ofWord (← text.required room fs "type")
    maxLength := ← (optional (natural UInt64.size)).withDefault room fs "maxLength" none
    precision := ← (optional (natural UInt32.size)).withDefault room fs "precision" none
    scale := ← (optional (natural UInt32.size)).withDefault room fs "scale" none
    autoIncrement := ← bool.withDefault room fs "autoIncrement" false
    autoFill := ← bool.withDefault room fs "autoFill" false
    nullable := ← bool.withDefault room fs "nullable" false
    unique := ← bool.withDefault room fs "unique" false
    default? := ← (optional Value.decode).withDefault room fs "default" none }

end Column

/-- The JSON array of a list of columns. -/
def columnsToJson (cs : List Column) : Json := .array (cs.map Column.toJson)

/-- A list of columns read from a tree. -/
def decodeColumns : Json.Decoder (List Column) := Json.Decoder.list Column.decode

end FluentTables
