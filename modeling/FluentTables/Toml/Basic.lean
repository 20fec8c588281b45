/-!
# TOML tables

A document is a tree of tables. Each table remembers how it came about, since this decides whether it may be
extended: by a header, on the way of a header to a deeper table, by dotted keys, or within braces.
-/

namespace FluentTables

/-- How a table came about. -/
inductive TableOrigin where
  /-- By a header of its own. -/
  | header
  /-- On the way of a header to a deeper table. -/
  | onTheWay
  /-- By dotted keys. -/
  | dotted
  /-- Within braces. -/
  | inline
deriving DecidableEq

/-- A TOML value. -/
inductive Toml where
  | string (s : String)
  | integer (n : Int)
  | float
  | boolean (b : Bool)
  | array (items : List Toml)
  | table (origin : TableOrigin) (fields : List (String × Toml))
  /-- Tables under one header in double brackets, the last one first. -/
  | tables (rows : List (List (String × Toml)))

namespace Toml

/-- The fields of a table. -/
abbrev Fields := List (String × Toml)

/-- A field changed, or added at the end. -/
def alterField (key : String) (f : Option Toml → Option Toml) : Fields → Option Fields
  | [] => (f none).map fun v => [(key, v)]
  | (k, v) :: r =>
    if k = key then (f (some v)).map fun w => (k, w) :: r else (alterField key f r).map ((k, v) :: ·)

/-- A new field; none if there is one already. -/
def addField (key : String) (value : Toml) (fields : Fields) : Option Fields :=
  alterField key (fun
    | none => some value
    | some _ => none) fields

/-- A field added by a dotted key. A table on the way must not have a header of its own, and the one that takes the
field must have come about by dotted keys. -/
def addDotted (origin : TableOrigin) (key : String) (value : Toml) : List String → Fields → Option Fields
  | [], fields => if origin = .dotted then addField key value fields else none
  | s :: path, fields =>
    alterField s (fun
      | none => (addDotted .dotted key value path []).map (table .dotted)
      | some (table .header _) | some (table .inline _) => none
      | some (table o fs) => (addDotted o key value path fs).map (table o)
      | some (tables (fs :: r)) => (addDotted .header key value path fs).map fun fs => tables (fs :: r)
      | some _ => none) fields

/-- A field added to a table by a key, which is a path and a last name. -/
def addEntry (path : List String) (key : String) (value : Toml) (fields : Fields) : Option Fields :=
  if path.isEmpty then addField key value fields else addDotted .header key value path fields

/-- A change made to the table that a header names; the tables on the way come about if need be. -/
def descend (f : Fields → Option Fields) : List String → Fields → Option Fields
  | [], fields => f fields
  | s :: path, fields =>
    alterField s (fun
      | none => (descend f path []).map (table .onTheWay)
      | some (table .inline _) => none
      | some (table o fs) => (descend f path fs).map (table o)
      | some (tables (fs :: r)) => (descend f path fs).map fun fs => tables (fs :: r)
      | some _ => none) fields

/-- A table opened by a header: a new one, or one that a deeper header has passed. -/
def openTable (path : List String) (key : String) : Fields → Option Fields :=
  descend (alterField key fun
    | none => some (table .header [])
    | some (table .onTheWay fs) => some (table .header fs)
    | some _ => none) path

/-- One more table opened by a header in double brackets. -/
def openRow (path : List String) (key : String) : Fields → Option Fields :=
  descend (alterField key fun
    | none => some (tables [[]])
    | some (tables rows) => some (tables ([] :: rows))
    | some _ => none) path

/-- A field added to the table that a header opened last. -/
def addUnder (header path : List String) (key : String) (value : Toml) : Fields → Option Fields :=
  descend (addEntry path key value) header

end Toml

end FluentTables
