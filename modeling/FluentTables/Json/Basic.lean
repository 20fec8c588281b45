import FluentTables.Decimal.Layout

/-!
# JSON values and their two texts

`Json.compact` has no white space; `Json.pretty` puts each element on a line of its own, two blanks deeper than
what holds it.
-/

namespace FluentTables

/-- A JSON value to be written. -/
inductive Json where
  | null
  | bool (b : Bool)
  | int (n : Int)
  | float (x : Binary64)
  | string (s : String)
  | array (items : List Json)
  | object (fields : List (String × Json))

namespace Json

/-- A character of a string, escaped where it must be. -/
def escape (c : Char) : List Char :=
  if c == '"' then ['\\', '"']
  else if c == '\\' then ['\\', '\\']
  else if c == '\n' then ['\\', 'n']
  else if c == '\r' then ['\\', 'r']
  else if c == '\t' then ['\\', 't']
  else if c.toNat == 8 then ['\\', 'b']
  else if c.toNat == 12 then ['\\', 'f']
  else if c.toNat < 0x20 then
    ['\\', 'u', '0', '0', Nat.digitChar (c.toNat / 16), Nat.digitChar (c.toNat % 16)]
  else [c]

/-- A string in quotes. -/
def quoted (s : String) : List Char := '"' :: s.toList.flatMap escape ++ ['"']

/-- The text of a value that holds no others. An infinite number is written as null. -/
def scalar : Json → List Char
  | null => "null".toList
  | bool true => "true".toList
  | bool false => "false".toList
  | int n => (toString n).toList
  | float x => x.stored?.getD "null".toList
  | string s => quoted s
  | array _ => []
  | object _ => []

mutual

/-- The text without white space. -/
def compactChars : Json → List Char
  | array [] => ['[', ']']
  | array (x :: xs) => '[' :: compactChars x ++ compactItems xs
  | object [] => ['{', '}']
  | object ((k, x) :: xs) => '{' :: quoted k ++ ':' :: compactChars x ++ compactFields xs
  | j => j.scalar

/-- The elements of an array after the first, and its end. -/
def compactItems : List Json → List Char
  | [] => [']']
  | x :: xs => ',' :: compactChars x ++ compactItems xs

/-- The fields of an object after the first, and its end. -/
def compactFields : List (String × Json) → List Char
  | [] => ['}']
  | (k, x) :: xs => ',' :: quoted k ++ ':' :: compactChars x ++ compactFields xs

end

/-- A new line with an indentation. -/
def newLine (depth : Nat) : List Char := '\n' :: List.replicate (2 * depth) ' '

mutual

/-- The text with every element on its own line; `depth` is how deep the value lies. -/
def prettyChars (depth : Nat) : Json → List Char
  | array [] => ['[', ']']
  | array (x :: xs) => '[' :: newLine (depth + 1) ++ prettyChars (depth + 1) x ++ prettyItems depth xs
  | object [] => ['{', '}']
  | object ((k, x) :: xs) =>
    '{' :: newLine (depth + 1) ++ quoted k ++ ':' :: ' ' :: prettyChars (depth + 1) x ++ prettyFields depth xs
  | j => j.scalar

/-- The elements of an array after the first, and its end. -/
def prettyItems (depth : Nat) : List Json → List Char
  | [] => newLine depth ++ [']']
  | x :: xs => ',' :: newLine (depth + 1) ++ prettyChars (depth + 1) x ++ prettyItems depth xs

/-- The fields of an object after the first, and its end. -/
def prettyFields (depth : Nat) : List (String × Json) → List Char
  | [] => newLine depth ++ ['}']
  | (k, x) :: xs =>
    ',' :: newLine (depth + 1) ++ quoted k ++ ':' :: ' ' :: prettyChars (depth + 1) x ++ prettyFields depth xs

end

/-- The text without white space. -/
def compact (j : Json) : String := String.ofList j.compactChars

/-- The text with every element on its own line. -/
def pretty (j : Json) : String := String.ofList (j.prettyChars 0)

end Json

end FluentTables
