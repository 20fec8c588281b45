import FluentTables.Value.Basic
import FluentTables.Json.Basic
import FluentTables.Json.Decode
import FluentTables.Json.Number

/-!
# Values in JSON

Cells, rows and lists of rows, written and read.
-/

namespace FluentTables

namespace Value

mutual

/-- The JSON value of a cell. -/
def toJson : Value → Json
  | null => .null
  | bool b => .bool b
  | int i => .int i.toInt
  | float x => .float x
  | text s => .string s
  | list items => .array (itemsToJson items)
  | record ⟨cells⟩ => .object (cellsToJson cells)

/-- The JSON values of a list of cells. -/
def itemsToJson : List Value → List Json
  | [] => []
  | v :: r => toJson v :: itemsToJson r

/-- The JSON fields of the cells of a row. -/
def cellsToJson : List (String × Value) → List (String × Json)
  | [] => []
  | (k, v) :: r => (k, toJson v) :: cellsToJson r

end

/-- A number: an integer of 64 bits, or else a floating-point number. -/
def ofNumeral? (n : Numeral) : Option Value :=
  match Json.int? n with
  | some i => some (int i)
  | none => (Json.float? n).map float

mutual

/-- A cell read from a tree. -/
def decode : Json.Decoder Value
  | _, .null => some null
  | _, .bool b => some (bool b)
  | _, .number n => ofNumeral? n
  | _, .string s => s.map text
  | 0, .array _ => none
  | room + 1, .array ts => (decodeItems room ts).map list
  | 0, .object _ => none
  | room + 1, .object fs => (decodeCells room fs).map fun es => record (.ofList es)

/-- The elements of a list read from trees. -/
def decodeItems : Nat → List Json.Tree → Option (List Value)
  | _, [] => some []
  | room, t :: r =>
    match decode room t, decodeItems room r with
    | some v, some vs => some (v :: vs)
    | _, _ => none

/-- The cells of a row read from fields. -/
def decodeCells : Nat → List (Option String × Json.Tree) → Option (List (String × Value))
  | _, [] => some []
  | room, (k, t) :: r =>
    match k, decode room t, decodeCells room r with
    | some k, some v, some es => some ((k, v) :: es)
    | _, _, _ => none

end

/-- The text by which values are compared as keys: 1, 1.0 and "1" have the same. -/
def key : Value → String
  | null => ""
  | bool b => if b then "1" else ""
  | int i => toString i.toInt
  | float x => String.ofList x.key
  | text s => s
  | list items => (toJson (list items)).compact
  | record row => (toJson (record row)).compact

end Value

/-- The JSON object of a row. -/
def Row.toJson (row : Row) : Json := (Value.record row).toJson

/-- The JSON array of a list of rows. -/
def rowsToJson (rows : List Row) : Json := .array (rows.map Row.toJson)

/-- A row read from a tree. -/
def Row.decode : Json.Decoder Row := Json.Decoder.orderedMap Value.decode

/-- A list of rows read from a tree. -/
def decodeRows : Json.Decoder (List Row) := Json.Decoder.list Row.decode

end FluentTables
