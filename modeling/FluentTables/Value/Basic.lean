import FluentTables.Decimal.Layout
import FluentTables.Decimal.Numeral
import FluentTables.OrderedMap

/-!
# Cell values

A cell holds null, a truth value, an integer, a floating-point number or a text; lists and records appear in it once
related rows are attached. A row is an ordered map from column names to values.
-/

namespace FluentTables

/-- The value of a cell. -/
inductive Value where
  | null
  | bool (b : Bool)
  | int (i : Int64)
  | float (x : Binary64)
  | text (s : String)
  | list (items : List Value)
  | record (row : OrderedMap Value)

/-- A row: column names to values, in order of insertion. -/
abbrev Row := OrderedMap Value

namespace Value

instance : Inhabited Value := ⟨null⟩

/-- The value of a list of rows. -/
def ofRows (rows : List Row) : Value := list (rows.map record)

def isNull : Value → Bool
  | null => true
  | _ => false

/-- Missing for filling in: null, or a text of white space. Zero and false are there. -/
def isBlank : Value → Bool
  | null => true
  | text s => (Text.trim s.toList).isEmpty
  | _ => false

/-- No related rows: null, or an empty list. -/
def isEmptyRelation : Value → Bool
  | null => true
  | list items => items.isEmpty
  | _ => false

def text? : Value → Option String
  | text s => some s
  | _ => none

def record? : Value → Option Row
  | record r => some r
  | _ => none

/-- The number of a number; a text is none. -/
def number? : Value → Option Binary64
  | int i => some (.ofInt i.toInt)
  | float x => some x
  | _ => none

/-- The number as which a text is compared. -/
def textNumber? (s : String) : Option Binary64 := (Numeral.parse? s.toList).map Numeral.toBinary64

/-- The integer of a number or of a numeric text, without its fraction. -/
def numericId? : Value → Option Int64
  | int i => some i
  | float (.finite n u) => some (Binary64.finite n u).truncate
  | text s => (textNumber? s).map Binary64.truncate
  | _ => none

/-- The form in which values are compared: texts of truth values and numbers count as what they say, and every
number is floating. -/
def normalize : Value → Value
  | text s =>
    if s = "true" then bool true
    else if s = "false" then bool false
    else match textNumber? s with
      | some x => float x
      | none => text s
  | int i => float (.ofInt i.toInt)
  | v => v

/-- A value counts as true. -/
def truthy : Value → Bool
  | null => false
  | bool b => b
  | int i => i != 0
  | float x => !x.isZero
  | text s => !(s == "" || s == "0")
  | list items => !items.isEmpty
  | record _ => true

mutual

/-- Equal values of one kind. Numbers are equal as numbers; records are equal if they have the same cells, in
whatever order. -/
def same : Value → Value → Bool
  | null, null => true
  | bool a, bool b => a == b
  | int a, int b => a == b
  | float a, float b => a.numEq b
  | text a, text b => a == b
  | list a, list b => sameItems a b
  | record ⟨a⟩, record b => a.length == b.size && sameCells a b
  | _, _ => false

/-- Lists of equal values. -/
def sameItems : List Value → List Value → Bool
  | [], [] => true
  | a :: as, b :: bs => same a b && sameItems as bs
  | _, _ => false

/-- Cells that a row has with equal values. -/
def sameCells : List (String × Value) → Row → Bool
  | [], _ => true
  | (k, a) :: as, b => (match b.get? k with
    | some v => same a v
    | none => false) && sameCells as b

end

/-- The text in which a value is shown to people. -/
def display : Value → String
  | null => "NULL"
  | bool b => if b then "true" else "false"
  | int i => toString i.toInt
  | float x => String.ofList x.display
  | text s => s
  | list items => "[" ++ toString items.length ++ " items]"
  | record row => "\x7b" ++ toString row.size ++ " fields\x7d"

end Value

/-! ## Decidable equality -/

mutual

/-- Whether two values are the same term. -/
def Value.decEq : (a b : Value) → Decidable (a = b)
  | .null, b => by
    cases b
    case null => exact isTrue rfl
    all_goals exact isFalse (by simp)
  | .bool x, b => by
    cases b
    case bool y => exact decidable_of_iff (x = y) (by simp)
    all_goals exact isFalse (by simp)
  | .int x, b => by
    cases b
    case int y => exact decidable_of_iff (x = y) (by simp)
    all_goals exact isFalse (by simp)
  | .float x, b => by
    cases b
    case float y => exact decidable_of_iff (x = y) (by simp)
    all_goals exact isFalse (by simp)
  | .text x, b => by
    cases b
    case text y => exact decidable_of_iff (x = y) (by simp)
    all_goals exact isFalse (by simp)
  | .list x, b => by
    cases b
    case list y => exact @decidable_of_iff _ (x = y) (by simp) (Value.decEqItems x y)
    all_goals exact isFalse (by simp)
  | .record ⟨x⟩, b => by
    cases b
    case record y => exact @decidable_of_iff _ (x = y.entries) (by cases y; simp) (Value.decEqCells x y.entries)
    all_goals exact isFalse (by simp)

/-- Whether two lists of values are the same term. -/
def Value.decEqItems : (a b : List Value) → Decidable (a = b)
  | [], [] => isTrue rfl
  | [], _ :: _ => isFalse (by simp)
  | _ :: _, [] => isFalse (by simp)
  | a :: as, b :: bs =>
    have := Value.decEq a b
    have := Value.decEqItems as bs
    decidable_of_iff (a = b ∧ as = bs) (by simp)

/-- Whether two lists of cells are the same term. -/
def Value.decEqCells : (a b : List (String × Value)) → Decidable (a = b)
  | [], [] => isTrue rfl
  | [], _ :: _ => isFalse (by simp)
  | _ :: _, [] => isFalse (by simp)
  | (k, a) :: as, (j, b) :: bs =>
    have := Value.decEq a b
    have := Value.decEqCells as bs
    decidable_of_iff (k = j ∧ a = b ∧ as = bs) (by simp [and_assoc])

end

instance : DecidableEq Value := Value.decEq

end FluentTables
