import FluentTables.Pattern.Search
import FluentTables.Text.Lines

/-!
# Written patterns

A pattern is written as an expression: a dot is any character but a line feed, a star repeats what stands before it,
and other characters are themselves. Behind a backslash each of the characters that have, or may get, a meaning in an
expression is itself too; `escape` writes a text so. `read?` reads expressions of these three kinds of parts. One that
asks for more (a class, a group, an anchor, another repetition) or is no expression is not read.
-/

namespace FluentTables.Expression

/-- A character that a text is written with a backslash before. -/
def isMeta (c : Char) : Bool := "\\.+*?()|[]\x7b\x7d^$#&-~".toList.contains c

/-- A character that is not itself where it stands without a backslash. -/
def isOperator (c : Char) : Bool := "\\.+*?()|[\x7b^$".toList.contains c

/-- The expression of a text. -/
def escape (s : List Char) : List Char := s.flatMap fun c => if isMeta c then ['\\', c] else [c]

/-- The expression of a pattern with percent signs: the pieces between them as they are, and any run of characters for
each of them. -/
def ofWildcards (pattern : List Char) : List Char :=
  List.intercalate ['.', '*'] ((Text.splitOn '%' pattern).map escape)

/-- What one character of a text has to be. -/
inductive Sign where
  | literal (c : Char)
  | any
deriving DecidableEq

/-- A character, or any number of them. -/
structure Part where
  sign : Sign
  repeated : Bool := false
deriving DecidableEq

/-- The parts of an expression behind others, of which the last is given first. -/
def readFrom : List Part → List Char → Option (List Part)
  | parts, [] => some parts.reverse
  | parts, '\\' :: c :: s => if isMeta c then readFrom (⟨.literal c, false⟩ :: parts) s else none
  | parts, '.' :: s => readFrom (⟨.any, false⟩ :: parts) s
  | part :: parts, '*' :: s => readFrom (⟨part.sign, true⟩ :: parts) s
  | parts, c :: s => if isOperator c then none else readFrom (⟨.literal c, false⟩ :: parts) s

/-- The parts of an expression. -/
def read? (s : List Char) : Option (List Part) := readFrom [] s

/-- A character is as it has to be; letters may have either case. -/
def Sign.admits : Sign → Char → Bool
  | literal c, d => Text.foldChar d == Text.foldChar c
  | any, d => d != '\n'

/-- The pattern of a part. -/
def Part.pattern (e : Part) : Pattern := if e.repeated then .span true e.sign.admits else .one e.sign.admits

/-- The pattern of an expression. -/
def pattern (parts : List Part) : Pattern := .chain (parts.map Part.pattern)

/-- A text has a part that an expression matches, if it can be read. -/
def isIn? (expression text : List Char) : Option Bool := (read? expression).map fun parts => (pattern parts).isIn text

end FluentTables.Expression
