import FluentTables.Decimal.Numeral

/-!
# Arguments

A command takes operands and options. The value of an option follows it or, after an equals sign, is part of it; no
option is given twice to one command. After two dashes come operands only. The option `--config` may also stand
before the command, and then gives way to one after it.
-/

namespace FluentTables.CommandLine

/-- How output is written. -/
inductive Format where
  /-- For people. -/
  | display
  /-- For programs. -/
  | toon
  | json
deriving DecidableEq

/-- The format of a word. -/
def Format.ofWord? (w : String) : Option Format :=
  if w = "display" then some .display
  else if w = "toon" then some .toon
  else if w = "json" then some .json
  else none

/-- What is to be done. Files go by their names. -/
inductive Command where
  | repl (data : Option String) (format : Format)
  | run (file : String) (data : Option String) (format : Format)
  | parse (file : String) (format : Format)
  | query (text : String) (data : String) (format : Format)
  | serve (port : Option Nat)
  | init
deriving DecidableEq

/-- A command, and the file of settings to use. -/
structure Invocation where
  settings : Option String
  command : Command
deriving DecidableEq

/-- Why arguments do not lead to a command. -/
inductive Stop where
  | refused
  /-- They ask for help. -/
  | help
  /-- They ask for the version. -/
  | version
deriving DecidableEq

/-- What operands and options may be given, by their names. -/
structure Form where
  options : List String
  operands : List String := []
  /-- The version may be asked for. -/
  hasVersion : Bool := false
deriving DecidableEq

/-- The form of arguments before a command. -/
def Form.beforeCommand : Form := { options := ["config"], hasVersion := true }

/-- The form of the arguments of a command. -/
def Form.ofCommand? : String → Option Form
  | "repl" => some { options := ["config", "data", "format"] }
  | "run" => some { options := ["config", "data", "format"], operands := ["file"] }
  | "parse" => some { options := ["config", "format"], operands := ["file"] }
  | "query" => some { options := ["config", "data", "format"], operands := ["text"] }
  | "serve" => some { options := ["config", "port"] }
  | "init" => some { options := ["config"] }
  | _ => none

/-- A port in decimal digits, with a sign or without. -/
def port? (w : String) : Option Nat :=
  let (negative, ds) := Numeral.splitSign w.toList
  let n := Numeral.digitsValue ds
  if ds.isEmpty || !ds.all Char.isDigit || UInt16.size ≤ n || (negative && n != 0) then none else some n

/-- A value suits an operand or option. -/
def suits (value : String) : String → Bool
  | "format" => (Format.ofWord? value).isSome
  | "port" => (port? value).isSome
  | "text" => true
  | _ => !value.isEmpty

/-- The values given, by the names of operands and options. -/
abbrev Given := List (String × String)

namespace Given

/-- One more value, the first of its name. -/
def add (g : Given) (name value : String) : Except Stop Given :=
  if (g.lookup name).isNone && suits value name then .ok (g ++ [(name, value)]) else .error .refused

/-- One more option of a form. -/
def addOption (g : Given) (form : Form) (name value : String) : Except Stop Given :=
  if form.options.contains name then g.add name value else .error .refused

/-- The operand that comes next. -/
def nextOperand? (g : Given) (form : Form) : Option String := form.operands.find? fun n => (g.lookup n).isNone

/-- More operands of a form, and no others. -/
def addOperands (g : Given) (form : Form) : List String → Except Stop Given
  | [] => .ok g
  | a :: rest =>
    match g.nextOperand? form with
    | none => .error .refused
    | some name => do (← g.add name a).addOperands form rest

end Given

/-- An argument that begins with a dash, other than a dash alone. -/
def isDashed (a : String) : Bool :=
  match a.toList with
  | '-' :: _ :: _ => true
  | _ => false

/-- An option: its name and, after an equals sign, its value. -/
def option? (a : String) : Option (String × Option String) :=
  match a.toList with
  | '-' :: '-' :: r =>
    match r.span (· != '=') with
    | (name, _ :: value) => some (String.ofList name, some (String.ofList value))
    | (name, []) => some (String.ofList name, none)
  | _ => none

/-- An argument that asks for something other than a command. -/
def Form.stop? (form : Form) (a : String) : Option Stop :=
  match a.toList with
  | '-' :: 'h' :: _ => some .help
  | '-' :: 'V' :: _ => if form.hasVersion then some .version else none
  | _ =>
    if a = "--help" then some .help
    else if a = "--version" && form.hasVersion then some .version
    else none

/-- The values that arguments give, up to the first operand that the form does not have. -/
def Given.read (g : Given) (form : Form) : List String → Except Stop (Given × List String)
  | [] => .ok (g, [])
  | a :: rest =>
    if a = "--" then do return (← g.addOperands form rest, [])
    else match form.stop? a with
      | some s => .error s
      | none =>
        match option? a, rest with
        | some (name, some value), rest => do (← g.addOption form name value).read form rest
        | some (name, none), value :: rest =>
          if isDashed value then .error .refused else do (← g.addOption form name value).read form rest
        | some (_, none), [] => .error .refused
        | none, rest =>
          if isDashed a then .error .refused
          else match g.nextOperand? form with
            | none => .ok (g, a :: rest)
            | some name => do (← g.add name a).read form rest

/-- The format given. -/
def Given.format (g : Given) (missing : Format) : Format := ((g.lookup "format").bind Format.ofWord?).getD missing

/-- A command with its values. -/
def Command.ofGiven? (name : String) (g : Given) : Option Command :=
  match name with
  | "repl" => some (.repl (g.lookup "data") (g.format .display))
  | "run" => do return .run (← g.lookup "file") (g.lookup "data") (g.format .display)
  | "parse" => do return .parse (← g.lookup "file") (g.format .display)
  | "query" => do return .query (← g.lookup "text") (← g.lookup "data") (g.format .json)
  | "serve" => some (.serve ((g.lookup "port").bind port?))
  | "init" => some .init
  | _ => none

/-- What follows the word `help`: nothing, or the name of a command. -/
def isHelpTopic (topic : List String) : Bool :=
  match topic with
  | [] => true
  | [name] => name == "help" || (Form.ofCommand? name).isSome
  | _ => false

/-- The invocation that arguments spell. -/
def Invocation.ofArguments (arguments : List String) : Except Stop Invocation := do
  match ← Given.read [] .beforeCommand arguments with
  | (before, []) => return ⟨before.lookup "config", .repl none .display⟩
  | (before, name :: rest) =>
    match Form.ofCommand? name with
    | none => .error (if name = "help" && isHelpTopic rest then .help else .refused)
    | some form =>
      match ← Given.read [] form rest with
      | (g, []) =>
        match Command.ofGiven? name g with
        | some c => return ⟨(g.lookup "config").or (before.lookup "config"), c⟩
        | none => .error .refused
      | (_, _ :: _) => .error .refused

end FluentTables.CommandLine
