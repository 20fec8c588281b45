import FluentTables.Json.Reader
import FluentTables.OrderedMap

/-!
# Reading typed values

A `Decoder` reads a value of some type from a tree, with room for so many more levels of nesting. A structure is
read from an object, where a field it does not know is passed over, or from an array of its fields in order.
-/

namespace FluentTables.Json

/-- Reads a value from a tree that may be nested so much deeper. -/
abbrev Decoder (α : Type) := Nat → Tree → Option α

namespace Decoder

variable {α : Type}

/-- A text. -/
def text : Decoder String
  | _, .string s => s
  | _, _ => none

/-- A truth value. -/
def bool : Decoder Bool
  | _, .bool b => some b
  | _, _ => none

/-- A natural number below a limit, written as an integer without a sign. -/
def natural (limit : Nat) : Decoder Nat
  | _, .number n =>
    if n.isInteger && !n.negative && Numeral.digitsValue n.whole < limit then some (Numeral.digitsValue n.whole)
    else none
  | _, _ => none

/-- A value, or none for null. -/
def optional (d : Decoder α) : Decoder (Option α)
  | _, .null => some none
  | room, t => (d room t).map some

/-- A list. -/
def list (d : Decoder α) : Decoder (List α)
  | room + 1, .array ts => ts.mapM (d room)
  | _, _ => none

/-- The entries of an object. -/
def entries (d : Decoder α) : Decoder (List (String × α))
  | room + 1, .object fs => fs.mapM fun (k, t) => do return (← k, ← d room t)
  | _, _ => none

/-- A map; a repeated key keeps its first place and takes its last value. -/
def orderedMap (d : Decoder α) : Decoder (OrderedMap α) := fun room t => (d.entries room t).map .ofList

/-- The fields of a structure. A field may not be repeated, nor may an array be longer than the structure. -/
def fields (names : List String) : Tree → Option (List (String × Tree))
  | .object fs => do
    let fs ← fs.mapM fun (k, t) => k.map (·, t)
    let known := fs.filter (names.contains ·.1)
    if known.map (·.1) |>.Nodup then some known else none
  | .array ts => if ts.length ≤ names.length then some (names.zip ts) else none
  | _ => none

/-- A structure read from its fields. -/
def struct (names : List String) (read : Nat → List (String × Tree) → Option α) : Decoder α
  | 0, _ => none
  | room + 1, t => (fields names t).bind (read room)

/-- A field that has to be there. -/
def required (d : Decoder α) (room : Nat) (fs : List (String × Tree)) (name : String) : Option α :=
  (fs.lookup name).bind (d room)

/-- A field that has a value of its own when it is missing. -/
def withDefault (d : Decoder α) (room : Nat) (fs : List (String × Tree)) (name : String) (missing : α) : Option α :=
  match fs.lookup name with
  | none => some missing
  | some t => d room t

/-- The levels of nesting a text may have. -/
def maxDepth : Nat := 127

/-- A value read from a text. -/
def read? (d : Decoder α) (s : List Char) : Option α := (Tree.read? s).bind (d maxDepth)

end Decoder

end FluentTables.Json
