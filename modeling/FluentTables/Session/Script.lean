import FluentTables.Session.Statement
import FluentTables.Text.Quoted

/-!
# Scripts

A script is a list of lines. A statement begins on a line that is neither blank nor a comment and ends on the first
line where its brackets balance. The first statement that fails ends the script.
-/

namespace FluentTables

/-- A statement that has begun and not ended. -/
structure Pending where
  text : List Char
  /-- The line on which it began. -/
  start : Nat
  /-- Open brackets less closed ones. -/
  balance : Int
deriving DecidableEq

namespace Pending

/-- A statement that begins with a line. -/
def begin (line : List Char) (number : Nat) : Pending := ⟨line, number, Text.bracketBalance line⟩

/-- A statement with one more line. -/
def add (p : Pending) (line : List Char) : Pending :=
  { p with text := p.text ++ '\n' :: line, balance := p.balance + Text.bracketBalance line }

/-- The statement with one more line, or the one that the line begins. -/
def next (p : Option Pending) (line : List Char) (number : Nat) : Pending :=
  match p with
  | some p => p.add line
  | none => begin line number

/-- The brackets balance. -/
def isComplete (p : Pending) : Bool := p.balance ≤ 0

end Pending

/-- What came of a script: what it gave out, the error that ended it, and the session it left. -/
structure ScriptResult where
  outputs : List Output
  error : Option StatementError
  session : Session

namespace ScriptResult

/-- The result with an output in front; an output of nothing is left out. -/
def after (o : Output) (r : ScriptResult) : ScriptResult :=
  if o = .nothing then r else { r with outputs := o :: r.outputs }

end ScriptResult

namespace Session

/-- The lines of a script from line `number` on, with the statement that has begun. -/
def runLines (s : Session) (p : Option Pending) (number : Nat) : List (List Char) → ScriptResult
  | [] => ⟨[], p.map fun p => ⟨p.start, .fault .unfinished⟩, s⟩
  | raw :: r =>
    let line := Text.trim raw
    if p.isNone && isSilent line then runLines s p (number + 1) r
    else
      let q := Pending.next p line number
      if q.isComplete then
        match s.step q.start q.text with
        | (.ok o, t) => (runLines t none (number + 1) r).after o
        | (.error e, t) => ⟨[], some e, t⟩
      else runLines s (some q) (number + 1) r

/-- A script run from its first line. -/
def runScript (s : Session) (script : List Char) : ScriptResult := s.runLines none 1 (Text.lines script)

end Session

end FluentTables
