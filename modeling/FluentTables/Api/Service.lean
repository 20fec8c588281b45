import FluentTables.Api.Call
import FluentTables.Api.Parameters
import FluentTables.Settings

/-!
# The service

A request names a path, and a path allows one method. Of the faults that a request may have, the first one of these
is answered: an unknown path, a wrong method, a parameter given twice, a body that is too long, a malformed body.
-/

namespace FluentTables.Api

/-- A request. -/
structure Request where
  method : String
  /-- The path and, after a question mark, the parameters. -/
  target : String
  body : String := ""
deriving DecidableEq

/-- What a response holds. -/
inductive Content where
  | nothing
  | plain (text : String)
  | json (value : Json)
  /-- For the reader who asks for `toon`. -/
  | toon (value : Json)
  /-- JSON that is announced but not sent. -/
  | heading

/-- The media type of a content. -/
def Content.mediaType? : Content → Option String
  | nothing => none
  | plain _ => some "text/plain; charset=utf-8"
  | json _ | heading => some "application/json"
  | toon _ => some "text/toon"

/-- A response. -/
structure Response where
  status : Nat
  content : Content := .nothing

/-- What answers requests. -/
structure Service where
  interpreter : Interpreter
  maxRequestBytes : Nat := 1048576

/-- The service under settings. -/
def Service.ofSettings (s : Settings) (now : String) : Service :=
  ⟨{ naming := s.naming, now }, s.server.maxRequestBytes⟩

/-- A place to which requests are sent. -/
inductive Route where
  | health
  | call (e : Endpoint)
deriving DecidableEq

/-- The route of a path. -/
def Route.ofPath? (path : String) : Option Route :=
  if path = "/health" then some .health
  else if path = "/api/parse-migrations" then some (.call .parseMigrations)
  else if path = "/api/execute-query" then some (.call .executeQuery)
  else if path = "/api/save-table-data" then some (.call .saveTableData)
  else none

/-- The path and the parameters of a target; what follows a number sign is not part of either. -/
def Request.parts (r : Request) : String × List Char :=
  let (path, query) := cutAt '?' (cutAt '#' r.target.toList).1
  (String.ofList path, query)

/-- A reply as a response. -/
def Reply.response (r : Reply) (toon : Bool) : Response where
  status := if r.isSuccess then 200 else 400
  content := if toon then .toon r.toJson else .json r.toJson

namespace Service

/-- The response to a call. -/
def respondToCall (s : Service) (e : Endpoint) (query : List Char) (body : String) : Response :=
  let formats := valuesOf "format" query
  if 1 < formats.length then ⟨400, .plain "Failed to deserialize query string: duplicate field \x60format\x60"⟩
  else if s.maxRequestBytes < body.utf8ByteSize then ⟨413, .plain "length limit exceeded"⟩
  else (e.reply s.interpreter body.toList).response (formats == [bytes "toon"])

/-- The response to a request. -/
def respond (s : Service) (r : Request) : Response :=
  let (path, query) := r.parts
  match Route.ofPath? path with
  | none => ⟨404, .nothing⟩
  | some .health =>
    if r.method = "GET" then ⟨200, .json (.object [("status", .string "ok")])⟩
    else if r.method = "HEAD" then ⟨200, .heading⟩
    else ⟨405, .nothing⟩
  | some (.call e) => if r.method = "POST" then s.respondToCall e query r.body else ⟨405, .nothing⟩

end Service

end FluentTables.Api
