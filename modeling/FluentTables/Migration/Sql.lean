import FluentTables.Pattern.Search
import FluentTables.Schema.Basic
import FluentTables.Text.Lines

/-!
# Tables in SQL

`CREATE TABLE name (...);` declares a table, whose columns are cut at every comma. Of a column only the name and the
word for its type count; clauses on the table as a whole are no columns.
-/

namespace FluentTables.Sql

open Pattern

/-- `CREATE TABLE name (...);`; group 1 is the table, group 2 the columns. -/
def table : Pattern :=
  chain [anyCase "create", blanks1, anyCase "table", blanks1, group 1 (some1 Text.isWord), blanks, char '(',
    group 2 (span false fun _ => true), text ");"]

/-- Two words. -/
def column : Pattern := chain [group 1 (some1 Text.isWord), blanks1, group 2 (some1 Text.isWord)]

/-- A word, with white space after it perhaps. -/
def looseWord : Pattern := chain [some1 Text.isWord, blanks]

/-- `(` and the first letter of a name. -/
def openName : Pattern :=
  chain [char '(', blanks, one fun c => let f := Text.foldChar c; ('a' ≤ f && f ≤ 'z') || f == '_']

/-- `KEY` or `INDEX` as a word. -/
def keyOrIndex : Pattern := chain [firstOf [anyCase "key", anyCase "index"], wordEdge]

/-- A clause on the table as a whole. The word that begins it needs what belongs to it, so that a column may have
such a name. -/
def clause : Pattern :=
  chain [textStart, firstOf [
    chain [anyCase "foreign", blanks1, anyCase "key", wordEdge],
    chain [anyCase "constraint", blanks1, opt (chain [some1 Text.isWord, blanks1]),
      firstOf [anyCase "primary", anyCase "foreign", anyCase "unique", anyCase "check"], wordEdge],
    chain [anyCase "primary", blanks1, anyCase "key", blanks, char '('],
    chain [anyCase "unique", wordEdge, blanks, opt (chain [keyOrIndex, blanks]), opt looseWord, openName],
    chain [keyOrIndex, blanks, opt looseWord, openName],
    chain [anyCase "check", blanks, char '(']]]

/-- The column that a fragment declares. -/
def column? (fragment : List Char) : Option Column :=
  if fragment.isEmpty || clause.isIn fragment then none
  else (column.search fragment).map fun m =>
    { name := String.ofList (m.group 1), type := .ofWord (String.ofList (Text.lower (m.group 2))) }

/-- The columns of a list of declarations and clauses. -/
def columns (s : List Char) : List Column := (Text.splitOn ',' s).filterMap fun f => column? (Text.trim f)

/-- The tables of all statements in a text. -/
def schema (s : List Char) : Schema :=
  .ofList ((table.matchesIn s).map fun m => (String.ofList (m.group 1), columns (m.group 2)))

end FluentTables.Sql
