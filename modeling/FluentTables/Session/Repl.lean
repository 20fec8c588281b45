import FluentTables.Session.Script

/-!
# Dialogues

In a dialogue a session takes its lines one at a time. Blank lines are passed over and `EXIT` ends it, unless a
statement has begun; a comment is a statement like any other. After a statement that fails the dialogue goes on.
-/

namespace FluentTables

/-- A dialogue. -/
structure Repl where
  session : Session
  /-- The statement that has begun. -/
  pending : Option Pending := none
  /-- The number of lines read. -/
  count : Nat := 0

namespace Repl

/-- The greeting of a dialogue. -/
def banner : String :=
  "tablesim REPL v0.1\n" ++
  "Declare tables with Schema::create / CREATE TABLE, then query them. SHOW TABLES lists tables.\n" ++
  "Type 'EXIT' or use Ctrl-D to quit.\n"

/-- What stands before the next line. -/
def prompt (r : Repl) : String := if r.pending.isNone then ">_>  " else " ..  "

/-- What a line comes to. -/
inductive Event where
  | quit
  /-- No statement is complete. -/
  | silent
  | output (o : Output)
  | failure (e : StatementError)

/-- A line read: what it comes to, and the dialogue after it. -/
def read (r : Repl) (raw : List Char) : Event × Repl :=
  let line := Text.trim raw
  let number := r.count + 1
  if line.isEmpty then (.silent, { r with count := number })
  else if r.pending.isNone && Text.sameAscii line "EXIT".toList then (.quit, { r with count := number })
  else
    let p := Pending.next r.pending line number
    if p.isComplete then
      match r.session.step p.start p.text with
      | (.ok o, s) => (.output o, ⟨s, none, number⟩)
      | (.error e, s) => (.failure e, ⟨s, none, number⟩)
    else (.silent, ⟨r.session, some p, number⟩)

/-- What lines come to, one after another, and the dialogue that they leave. -/
def readAll (r : Repl) : List (List Char) → List Event × Repl
  | [] => ([], r)
  | line :: rest =>
    match r.read line with
    | (.quit, t) => ([.quit], t)
    | (e, t) => let (es, u) := t.readAll rest; (e :: es, u)

end Repl

end FluentTables
