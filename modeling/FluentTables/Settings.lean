import FluentTables.Relation.Naming
import FluentTables.Toml.Reader

/-!
# Settings

Settings are read from a TOML document. What it does not set keeps its default, and what it sets beyond that is
passed over; a value of a wrong type refuses the document. A table of settings may also be an array of its values in
order.
-/

namespace FluentTables

/-- Settings of the server. -/
structure ServerSettings where
  port : Nat := 8080
  maxRequestBytes : Nat := 1048576
  timeoutSeconds : Nat := 30
deriving DecidableEq

/-- Settings. -/
structure Settings where
  server : ServerSettings := {}
  /-- Tables of models, by the names of the models. -/
  models : OrderedMap String := .empty
  /-- Foreign keys of tables. -/
  foreignKeys : OrderedMap String := .empty
deriving DecidableEq

namespace Settings

/-- The fields of a table of settings, or of an array of its values. -/
def fields? (names : List String) : Toml → Option Toml.Fields
  | .table _ fs => some fs
  | .array items => some (names.zip items)
  | .tables rows => some (names.zip (rows.reverse.map (.table .header)))
  | _ => none

/-- A field that keeps a default if it is not set. -/
def read? (fs : Toml.Fields) (name : String) (missing : α) (f : Toml → Option α) : Option α :=
  match fs.lookup name with
  | none => some missing
  | some v => f v

/-- A natural number below a limit. -/
def natural? (limit : Nat) : Toml → Option Nat
  | .integer n => if 0 ≤ n && n < limit then some n.toNat else none
  | _ => none

/-- A map of texts. -/
def texts? : Toml → Option (OrderedMap String)
  | .table _ fs => (fs.mapM fun ((k, v) : String × Toml) => match v with
      | .string s => some (k, s)
      | _ => none).map .ofList
  | _ => none

/-- Settings of the server. -/
def server? (v : Toml) : Option ServerSettings := do
  let fs ← fields? ["port", "max_request_bytes", "timeout_secs"] v
  return {
    port := ← read? fs "port" 8080 (natural? UInt16.size)
    maxRequestBytes := ← read? fs "max_request_bytes" 1048576 (natural? UInt64.size)
    timeoutSeconds := ← read? fs "timeout_secs" 30 (natural? UInt64.size) }

/-- Settings of names: models and foreign keys. -/
def relations? (v : Toml) : Option (OrderedMap String × OrderedMap String) := do
  let fs ← fields? ["models", "foreign_keys"] v
  return (← read? fs "models" .empty texts?, ← read? fs "foreign_keys" .empty texts?)

/-- The settings of a document. -/
def ofToml? (s : List Char) : Option Settings := do
  let fs ← Toml.read? s
  let server ← read? fs "server" {} server?
  let (models, foreignKeys) ← read? fs "relations" (.empty, .empty) relations?
  return { server, models, foreignKeys }

/-- The names in use under the settings. -/
def naming (s : Settings) : Naming := .extend s.models s.foreignKeys

/-- A map of texts in JSON. -/
def textsToJson (m : OrderedMap String) : Json := .object (m.entries.map fun (k, v) => (k, .string v))

/-- The JSON object of settings. -/
def toJson (s : Settings) : Json :=
  .object [
    ("server", .object [("port", .int s.server.port), ("max_request_bytes", .int s.server.maxRequestBytes),
      ("timeout_secs", .int s.server.timeoutSeconds)]),
    ("relations", .object [("models", textsToJson s.models), ("foreign_keys", textsToJson s.foreignKeys)])]

/-- The name of the file in which settings are looked for. -/
def fileName : String := "tablesim.toml"

/-- A document of the defaults, to begin with. -/
def defaultDocument : String :=
  "[server]\nport = 8080\nmax_request_bytes = 1048576\ntimeout_secs = 30\n\n" ++
  "# Model name (any case) -> table name\n[relations.models]\n\n" ++
  "# Table name -> foreign key pointing at it\n[relations.foreign_keys]\n"

/-- The settings of a document that may be missing or wrong; the defaults stand in for it. -/
def ofTomlOrDefault (s : Option (List Char)) : Settings := (s.bind ofToml?).getD {}

end Settings

end FluentTables
