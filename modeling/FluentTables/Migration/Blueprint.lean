import FluentTables.Pattern.Search
import FluentTables.Schema.Basic
import FluentTables.Text.Lines
import FluentTables.Value.Literal

/-!
# Blueprints

A blueprint declares a table in a block `Schema::create('table', function (Blueprint $table) {...});` with a
declaration on each line. A line is read by the first declaration whose pattern occurs in it; another line is passed
over.
-/

namespace FluentTables.Blueprint

open Pattern

/-- What a line declares. -/
inductive Declaration where
  | id
  | typed (type : ColumnType)
  | timestamps
  | softDeletes
deriving DecidableEq

/-- `$variable->`. -/
def receiver : Pattern := chain [char '$', some1 Text.isWord, text "->"]

/-- A name in quotes, as group 1. -/
def quotedName : Pattern := chain [quote, group 1 (some1 Text.isWord), quote]

/-- `, 12`, the number as a group. -/
def numberArgument (i : Nat) : Pattern := chain [blanks, char ',', blanks, group i (some1 Text.isDigit)]

/-- `$variable->method('name')`, with more arguments perhaps. -/
def method (name : String) (more : List Pattern) : Pattern :=
  chain ([receiver, text (name ++ "("), blanks, quotedName] ++ more ++ [blanks, char ')'])

/-- `$variable->method()`. -/
def bareMethod (name : String) : Pattern := chain [receiver, text (name ++ "("), blanks, char ')']

/-- `$variable->id()`, by any of its names, perhaps with a column name. -/
def idMethod : Pattern :=
  chain [receiver, firstOf [text "id", text "increments", text "bigIncrements"], char '(', blanks, opt quote,
    span true Text.isWord, opt quote, blanks, char ')']

/-- The declarations with their patterns, the first to be tried first. -/
def declarations : List (Pattern × Declaration) := [
  (idMethod, .id),
  (method "string" [opt (numberArgument 2)], .typed .string),
  (method "text" [], .typed .text),
  (method "integer" [], .typed .integer),
  (method "bigInteger" [], .typed .bigint),
  (method "boolean" [], .typed .boolean),
  (method "decimal" [opt (chain [numberArgument 2, numberArgument 3])], .typed .decimal),
  (method "timestamp" [], .typed .timestamp),
  (bareMethod "timestamps", .timestamps),
  (bareMethod "softDeletes", .softDeletes),
  (method "foreignId" [], .typed .foreignId)]

/-- `->default(...)`. -/
def defaultCall : Pattern := chain [text "->default(", group 1 (some1 (· != ')')), char ')']

/-- `->unique()`. -/
def uniqueCall : Pattern := chain [text "->unique(", blanks, char ')']

/-- `->nullable()`. -/
def nullableCall : Pattern := chain [text "->nullable(", blanks, char ')']

/-- The number of a group of digits, if it has 32 bits and is written in ASCII. -/
def number? (m : Match) (i : Nat) : Option Nat :=
  match m.group? i with
  | some ds =>
    if Numeral.allDigits ds && Numeral.digitsValue ds < UInt32.size then some (Numeral.digitsValue ds) else none
  | none => none

/-- The column of a type that a match names. -/
def typedColumn (m : Match) (type : ColumnType) : Column :=
  let c : Column := { name := String.ofList (m.group 1), type }
  match type with
  | .string => { c with maxLength := number? m 2 }
  | .decimal => { c with precision := number? m 2, scale := number? m 3 }
  | _ => c

/-- A column with what the calls after its declaration say of it. -/
def modified (line : List Char) (c : Column) : Column :=
  { c with
    default? := (defaultCall.search line).map fun m => .ofLiteral (m.group 1)
    unique := uniqueCall.isIn line
    nullable := nullableCall.isIn line }

/-- The columns that a line declares. -/
def columns (line : List Char) (m : Match) : Declaration → List Column
  | .id => [.id]
  | .timestamps => ["created_at", "updated_at"].map fun name => { name, type := .timestamp, autoFill := true }
  | .softDeletes => [{ name := "deleted_at", type := .timestamp, nullable := true }]
  | .typed type => [modified line (typedColumn m type)]

/-- The columns of a line. -/
def lineColumns (line : List Char) : List Column :=
  match declarations.findSome? fun (p, d) => (p.search line).map (·, d) with
  | some (m, d) => columns line m d
  | none => []

/-- The columns of a block. -/
def bodyColumns (body : List Char) : List Column := ((Text.lines body).map Text.trim).flatMap lineColumns

/-- A block; group 1 is the table, group 2 the declarations. -/
def block : Pattern :=
  chain [text "Schema::create", blanks, char '(', blanks, quotedName, blanks, char ',', blanks,
    text "function", blanks, char '(', blanks, opt (chain [text "Blueprint", blanks1]),
    char '$', some1 Text.isWord, blanks, char ')', blanks, char '\x7b',
    group 2 (span false fun _ => true), char '\x7d', blanks, char ')', blanks, char ';']

/-- The tables of all blocks in a text. -/
def schema (s : List Char) : Schema :=
  .ofList ((block.matchesIn s).map fun m => (String.ofList (m.group 1), bodyColumns (m.group 2)))

end FluentTables.Blueprint
