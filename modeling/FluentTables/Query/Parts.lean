import FluentTables.Condition
import FluentTables.Query.Shape
import FluentTables.Relation.Tree

/-!
# Parts of statements

Once the shape of a statement is known, its pairs, conditions and relations are read from its text by patterns of
their own.
-/

namespace FluentTables.Query

open Pattern

/-- Digits, a comma and digits. -/
def decimalComma : Pattern := chain [group 1 (some1 Text.isDigit), char ',', group 2 (some1 Text.isDigit)]

/-- A statement without outer white space and with decimal points for decimal commas. -/
def prepare (s : List Char) : List Char :=
  decimalComma.replaceAll (fun m => m.group 1 ++ '.' :: m.group 2) (Text.trim s)

/-- `'key' => value`, the whole of a text. -/
def pair : Pattern :=
  chain [textStart, quote, group 1 (some1 Text.isWord), quote, blanks, text "=>", blanks,
    group 2 (some1 fun _ => true), textEnd]

/-- The pair that an argument states. -/
def pair? (s : List Char) : Option (String × Value) :=
  (pair.search s).map fun m => (String.ofList (m.group 1), .ofLiteral (m.group 2))

/-- `where(...)`, where a word begins. -/
def whereCall : Pattern := chain [wordEdge, text "where(", Shape.argumentGroup 1]

/-- The arguments of every `where` call. -/
def whereArgs (s : List Char) : List (List Char) := (whereCall.matchesIn s).map (·.group 1)

/-- `->with(...)`. -/
def withCall : Pattern := chain [text "->", blanks, text "with(", Shape.argumentGroup 1]

/-- `function (...) use (...) {`, where the second list may be missing. -/
def closureHead : Pattern :=
  chain [text "function", blanks, char '(', Shape.arguments, blanks,
    opt (chain [text "use", blanks, char '(', Shape.arguments, blanks]), char '\x7b']

/-- `'path' => function (...) {...}`. -/
def closureEntry : Pattern :=
  chain [quote, group 1 (some1 fun c => Text.isWord c || c == '.'), quote, blanks, text "=>", blanks,
    closureHead, group 2 (upTo '\x7d'), char '\x7d']

/-- `function (...) {...}`. -/
def closureBody : Pattern := chain [closureHead, upTo '\x7d', char '\x7d']

/-- A quoted path, which an arrow may follow. -/
def relationName : Pattern :=
  chain [quote, group 1 (chain [one fun c => c.isAlpha || c == '_', span true fun c => Text.isWord c || c == '.']),
    quote, blanks, opt (group 2 (text "=>"))]

/-- The paths that have closures, with the conditions of these. -/
def closurePaths (content : List Char) : List RelationPath :=
  (closureEntry.matchesIn content).map fun m =>
    ⟨String.ofList (m.group 1), (whereArgs (m.group 2)).filterMap Condition.ofArgs?⟩

/-- The quoted paths outside closures that lead no closure in. -/
def plainPaths (content : List Char) : List String :=
  ((relationName.matchesIn (closureBody.replaceAll (fun _ => []) content)).filter
    (·.group? 2 |>.isNone)).map fun m => String.ofList (m.group 1)

/-- The paths of a bracketed list: first those with closures, then the others, each once. -/
def relationPaths (content : List Char) : List RelationPath :=
  (plainPaths content).foldl
    (fun paths name => if paths.any (·.path == name) then paths else paths ++ [{ path := name }])
    (closurePaths content)

/-- The paths of a list of names. -/
def namedPaths (args : List Char) : List RelationPath :=
  (Text.quotedNames args).map fun name => { path := String.ofList name }

end FluentTables.Query
