import FluentTables.Pattern.Search
import FluentTables.Text.Word

/-!
# Shapes of statements

A statement is recognized by the first shape whose pattern occurs in it. Group 1 is always the model; what the other
groups hold is said at each shape.
-/

namespace FluentTables

/-- A shape of statement. -/
inductive Shape where
  /-- `Model::create([...])`; group 2 is the list of pairs. -/
  | create
  /-- `Model::all()`. -/
  | all
  /-- `Model::with([...])->get()`; group 2 is the list of relations, with or without closures. -/
  | closureWith
  /-- Two or more `where(...)`, perhaps a `with(...)`, then `get()`. -/
  | multiWhere
  /-- `Model::where(...)->with(...)->get()`; groups 2 and 3 are the arguments of the two calls. -/
  | whereWith
  /-- `Model::where(...)->get()`; group 2 is the arguments. -/
  | whereGet
  /-- `Model::where(...)->first()`; group 2 is the arguments. -/
  | whereFirst
  /-- `Model::find(n)`; group 2 is the number. -/
  | find
  /-- `Model::with(...)->get()`; group 2 is the arguments. -/
  | withGet
  /-- `Model::...->update(...`. -/
  | update
  /-- `Model::...->delete()`. -/
  | delete
deriving DecidableEq

namespace Shape

open Pattern

/-- The model, as group 1. -/
def model : Pattern := group 1 (some1 Text.isWord)

/-- Any number of characters. -/
def anything (greedy : Bool) : Pattern := span greedy fun _ => true

/-- `::name(`. -/
def firstCall (name : String) : Pattern := text ("::" ++ name ++ "(")

/-- `->name(`, with white space around the arrow. -/
def nextCall (name : String) : Pattern := chain [blanks, text "->", blanks, text (name ++ "(")]

/-- `)` after white space. -/
def close : Pattern := chain [blanks, char ')']

/-- Arguments up to the closing parenthesis, which is included. -/
def arguments : Pattern := chain [upTo ')', char ')']

/-- Arguments up to the closing parenthesis, as a group. -/
def argumentGroup (i : Nat) : Pattern := chain [group i (upTo ')'), char ')']

/-- The pattern of a shape. -/
def pattern : Shape → Pattern
  | create => .chain [model, firstCall "create", blanks, char '[', group 2 (anything false), char ']', close]
  | all => .chain [model, firstCall "all", close]
  | closureWith => .chain [model, firstCall "with", blanks, char '[', group 2 (anything true), char ']', close,
      nextCall "get", close]
  | multiWhere => .chain [model, firstCall "where", arguments, many1 (.chain [nextCall "where", arguments]),
      opt (.chain [nextCall "with", arguments]), nextCall "get", close]
  | whereWith => .chain [model, firstCall "where", argumentGroup 2, nextCall "with", argumentGroup 3,
      nextCall "get", close]
  | whereGet => .chain [model, firstCall "where", argumentGroup 2, nextCall "get", close]
  | whereFirst => .chain [model, firstCall "where", argumentGroup 2, nextCall "first", close]
  | find => .chain [model, firstCall "find", blanks, opt quote, group 2 (some1 Text.isDigit), opt quote, close]
  | withGet => .chain [model, firstCall "with", group 2 (some1 (· != ')')), char ')', nextCall "get", close]
  | update => .chain [model, text "::", anything true, text "->", blanks, text "update("]
  | delete => .chain [model, text "::", anything true, text "->", blanks, text "delete(", close]

/-- The name of a shape. -/
def name : Shape → String
  | create => "Create"
  | all => "All"
  | closureWith => "ClosureWith"
  | multiWhere => "MultiWhere"
  | whereWith => "WhereWith"
  | whereGet => "WhereGet"
  | whereFirst => "WhereFirst"
  | find => "Find"
  | withGet => "With"
  | update => "Update"
  | delete => "Delete"

/-- The number of groups of a shape, the whole match included. -/
def groupCount : Shape → Nat
  | all | multiWhere | update | delete => 2
  | create | closureWith | whereGet | whereFirst | find | withGet => 3
  | whereWith => 4

/-- The shapes, the first to be tried first. -/
def inOrder : List Shape :=
  [create, all, closureWith, multiWhere, whereWith, whereGet, whereFirst, find, withGet, update, delete]

/-- The first shape whose pattern occurs in a text, with its match. -/
def recognize? (s : List Char) : Option (Shape × Match) :=
  inOrder.findSome? fun k => (k.pattern.search s).map (k, ·)

end Shape

end FluentTables
