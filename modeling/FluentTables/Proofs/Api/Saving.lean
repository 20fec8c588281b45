import FluentTables.Api.Service
import FluentTables.Proofs.Autofill.Filling
import FluentTables.Proofs.Migration.ParsedTables
import FluentTables.Proofs.Query.Statements
import FluentTables.Proofs.Session.Store

/-!
# Rows saved by a request and by a session

A client of the service asks for the columns of a table, and sends them back with the rows to be saved; a session has
the table declared and is given the rows by a `SAVE`. Both ways come to the same (`save_agrees`): the columns that the
service reads are not quite the declared ones, as a default of null is lost, but filling in and checking rows does not
tell them apart (`process_asRead`).
-/

namespace FluentTables

open Json

/-! ## Columns that were read back -/

theorem Column.filling?_asRead (c : Column) : c.asRead.filling? = c.filling? := by
  rw [asRead, filling?, filling?, Option.filter_filter]
  simp only [Bool.and_self]

namespace Autofill

variable (now : String)

theorem fillColumn_asRead (input : Row) (f : Filling) (c : Column) :
    fillColumn now input f c.asRead = fillColumn now input f c := by
  rw [fillColumn, fillColumn, Column.filling?_asRead]
  rfl

theorem fillRow_asRead (cs : List Column) (next : Int64) (input : Row) :
    fillRow now (cs.map Column.asRead) next input = fillRow now cs next input :=
  fillRow_map (fillColumn_asRead now) next input

theorem columnViolations_asRead (earlier : List Row) (input : Row) (c : Column) :
    columnViolations earlier input c.asRead = columnViolations earlier input c := by
  have hoptional : Column.isOptional c.asRead = Column.isOptional c := by
    rw [Column.isOptional, Column.isOptional, Column.filling?_asRead]
    rfl
  rw [columnViolations, columnViolations, hoptional]
  rfl

theorem rowViolations_asRead (cs : List Column) (earlier : List Row) (input : Row) :
    rowViolations (cs.map Column.asRead) earlier input = rowViolations cs earlier input := by
  rw [rowViolations, rowViolations, List.flatMap_map]
  simp only [columnViolations_asRead]

theorem fillRows_asRead (cs : List Column) (rows : List Row) (next : Int64) (earlier : List Row) :
    fillRows now (cs.map Column.asRead) next earlier rows = fillRows now cs next earlier rows := by
  induction rows generalizing next earlier with
  | nil => rfl
  | cons input rows ih =>
    rw [fillRows, fillRows]
    simp only [fillRow_asRead, rowViolations_asRead, ih]

/-- **Rows are filled in and checked alike by columns and by what is read back of them.** -/
theorem process_asRead (rows : List Row) (cs : List Column) :
    process now rows (cs.map Column.asRead) = process now rows cs := by
  rw [process, process, fillRows_asRead]

end Autofill

/-! ## Requests -/

/-- The fields of the JSON object of a map are found by their keys. -/
theorem OrderedMap.lookup_map {α β : Type} (f : α → β) (k : String) (es : List (String × α)) :
    (es.map fun (j, a) => (j, f a)).lookup k = (lookup k es).map f := by
  induction es with
  | nil => rfl
  | cons e es ih =>
    obtain ⟨j, a⟩ := e
    rw [lookup, List.map_cons, List.lookup_cons, ih]
    by_cases h : j = k
    · simp [h]
    · have hbeq : (k == j) = false := by simpa using Ne.symm h
      simp [h, hbeq]

namespace Api

/-- The path of a call. -/
def Endpoint.path : Endpoint → String
  | parseMigrations => "/api/parse-migrations"
  | executeQuery => "/api/execute-query"
  | saveTableData => "/api/save-table-data"

/-- The request that posts a JSON value. -/
def Endpoint.post (e : Endpoint) (body : Json) : Request := ⟨"POST", e.path, body.compact⟩

/-- The request for the tables of a migration. -/
def tablesRequest (text : String) : Request :=
  Endpoint.parseMigrations.post (.object [("migration_text", .string text)])

/-- The request to save rows in a table of the columns that a client was told. -/
def savingRequest (table : String) (rows : List Row) (columns : Json) : Request :=
  Endpoint.saveTableData.post
    (.object [("table", .string table), ("data", rowsToJson rows), ("table_structure", columns)])

/-- A field of a JSON value. -/
def field? (name : String) : Json → Option Json
  | .object fields => fields.lookup name
  | _ => none

/-- The columns of a table in a response that tells tables. -/
def Response.columns? (r : Response) (table : String) : Option Json :=
  match r.content with
  | .json j => (field? "tables" j).bind (field? table)
  | _ => none

/-- The reply to rows in the form of a text that are to be saved. -/
def savingReply (i : Interpreter) (table : String) (columns : List Column) (text : List Char) : Reply :=
  match decodeRows.read? text with
  | none => .malformed
  | some rows => (Call.saveTableData table rows columns).reply i

variable {service : Service} {table : String} {cs : List Column} {rows : List Row}

theorem Endpoint.parts_path (e : Endpoint) : (⟨"POST", e.path, ""⟩ : Request).parts = (e.path, []) := by
  cases e <;> decide +kernel

theorem Endpoint.ofPath?_path (e : Endpoint) : Route.ofPath? e.path = some (.call e) := by
  cases e <;> decide +kernel

/-- What is posted to the path of a call is answered by its reply. -/
theorem respond_post {e : Endpoint} {body : Json}
    (hsize : (e.post body).body.utf8ByteSize ≤ service.maxRequestBytes) :
    service.respond (e.post body) = (e.reply service.interpreter body.compactChars).response false := by
  have hmethod : (e.post body).method = "POST" := rfl
  have hparts : (e.post body).parts = (e.path, []) := e.parts_path
  have hformats : valuesOf "format" [] = [] := rfl
  rw [Service.respond, hparts]
  simp only [e.ofPath?_path]
  rw [if_pos hmethod, Service.respondToCall, hformats, if_neg (by simp), if_neg (by omega), Endpoint.post, Json.compact,
    String.toList_ofList]
  rfl

theorem respond_tablesRequest {text : String}
    (hsize : (tablesRequest text).body.utf8ByteSize ≤ service.maxRequestBytes) :
    service.respond (tablesRequest text) = (Reply.tables (migrationSchema text)).response false := by
  rw [tablesRequest, respond_post hsize, Endpoint.reply, Decoder.read?, read?_compactChars, Option.bind_some,
    Endpoint.decode, Decoder.maxDepth, Decoder.struct, fields_object (by simp) (by simp)]
  rfl

/-- The columns told are those of the schema. -/
theorem columns?_tables (s : Schema) (table : String) :
    ((Reply.tables s).response false).columns? table = (s.columns? table).map columnsToJson :=
  OrderedMap.lookup_map columnsToJson table s.tables.entries

/-- What comes of rows that are sent with the columns that were told. -/
theorem respond_savingRequest (hreadable : ∀ c ∈ cs, c.IsReadable)
    (hdepth : (rowsToJson rows).depth < Decoder.maxDepth)
    (hsize : (savingRequest table rows (columnsToJson cs)).body.utf8ByteSize ≤ service.maxRequestBytes) :
    service.respond (savingRequest table rows (columnsToJson cs)) =
      (savingReply service.interpreter table cs (rowsToJson rows).compactChars).response false := by
  let fs := [("table", Json.string table), ("data", rowsToJson rows), ("table_structure", columnsToJson cs)].map
    fun f => (f.1, f.2.tree)
  have htable : Decoder.text.required 126 fs "table" = some table := rfl
  have hdata : decodeRows.required 126 fs "data" = decodeRows.read? (rowsToJson rows).compactChars := by
    rw [Decoder.read?, read?_compactChars, Option.bind_some]
    show decodeRows 126 (rowsToJson rows).tree = decodeRows 127 (rowsToJson rows).tree
    apply roomFree_rows
    · exact Nat.le_of_lt_succ hdepth
    · exact Nat.le_of_lt hdepth
  have hcolumns : decodeColumns.required 126 fs "table_structure" = some (cs.map Column.asRead) :=
    decodeColumns_toJson hreadable 124
  rw [savingRequest, respond_post hsize, Endpoint.reply, Decoder.read?, read?_compactChars, Option.bind_some,
    Endpoint.decode, Decoder.maxDepth, Decoder.struct, fields_object (by simp) (by simp), Option.bind_some]
  simp only [fs] at htable hdata hcolumns
  rw [htable, hdata, hcolumns, savingReply]
  cases decodeRows.read? (rowsToJson rows).compactChars with
  | none => rfl
  | some read =>
    show (Call.reply service.interpreter (.saveTableData table read (cs.map Column.asRead))).response false = _
    rw [Call.reply, Autofill.process_asRead]
    rfl

/-! ## Responses -/

/-- The JSON object of the messages of rows, by the keys of the rows. -/
def errorMap (errors : List (String × List String)) : Json :=
  .object (errors.map fun (row, messages) => (row, .array (messages.map .string)))

theorem tree_errorMap (errors : List (String × List String)) :
    (errorMap errors).tree =
      .object (errors.map fun e => (some e.1, .array (e.2.map fun message => .string (some message)))) := by
  rw [errorMap, tree, fieldTrees_eq, List.map_map]
  refine congrArg Tree.object (List.map_congr_left fun e _ => ?_)
  simp [tree, itemTrees_eq, Function.comp_def]

/-- Maps of messages are told apart by their texts. -/
theorem compact_errorMap_inj {errors errors' : List (String × List String)} :
    (errorMap errors).compact = (errorMap errors').compact ↔ errorMap errors = errorMap errors' := by
  refine ⟨fun h => ?_, congrArg Json.compact⟩
  have htree := tree_eq_of_compact h
  rw [tree_errorMap, tree_errorMap, Tree.object.injEq] at htree
  refine congrArg errorMap ((List.map_inj_right fun e e' he => ?_).1 htree)
  obtain ⟨hrow, hmessages⟩ := Prod.mk.inj he
  rw [Tree.array.injEq, List.map_inj_right (by simp)] at hmessages
  exact Prod.ext (Option.some.inj hrow) hmessages

/-- No map of messages reads like the message about a request that is not read. -/
theorem compact_errorMap_ne (errors : List (String × List String)) :
    (errorMap errors).compact ≠ "Malformed input:" := by
  intro h
  have hhead : (errorMap errors).compactChars.head? = some '{' := by cases errors <;> rfl
  have hchars : (errorMap errors).compactChars = "Malformed input:".toList := by
    rw [← h, Json.compact, String.toList_ofList]
  rw [hchars] at hhead
  cases hhead

/-- A rejection is a map of messages. -/
theorem exists_errorMap (e : Rejection) : ∃ errors, e.toJson = errorMap errors := by
  refine ⟨e.violations.map fun v => ("row_" ++ toString v.1, v.2.map Violation.message), ?_⟩
  simp [Rejection.toJson, errorMap, Function.comp_def]

namespace Reply

variable {r : Reply} {filled : List Row} {errors : List (String × List String)}

theorem response_eq_saved_iff :
    r.response false = ⟨200, .json (.object [("success", .bool true),
        ("message", .string ("Data saved for table '" ++ table ++ "'")), ("processed_data", rowsToJson filled)])⟩ ↔
      r = .saved table filled := by
  cases r with
  | saved t rows =>
    have hname : "Data saved for table '" ++ t ++ "'" = "Data saved for table '" ++ table ++ "'" ↔ t = table := by
      simp [← String.toList_inj]
    simp [response, isSuccess, toJson, content, hname, rowsToJson_inj]
  | _ => simp [response, isSuccess, toJson, content]

theorem response_eq_rejected_iff :
    r.response false =
        ⟨400, .json (.object [("success", .bool false), ("message", .string (errorMap errors).compact)])⟩ ↔
      ∃ e, r = .rejected e ∧ e.toJson = errorMap errors := by
  cases r with
  | rejected e =>
    obtain ⟨errors', herrors⟩ := exists_errorMap e
    simp [response, isSuccess, toJson, content, herrors, compact_errorMap_inj]
  | malformed => simp [response, isSuccess, toJson, content, (compact_errorMap_ne errors).symm]
  | _ => simp [response, isSuccess]

theorem response_eq_malformed_iff :
    r.response false =
        ⟨400, .json (.object [("success", .bool false), ("message", .string "Malformed input:")])⟩ ↔
      r = .malformed := by
  cases r with
  | rejected e =>
    obtain ⟨errors, herrors⟩ := exists_errorMap e
    simp [response, isSuccess, toJson, content, herrors, compact_errorMap_ne errors]
  | malformed => simp [response, isSuccess, toJson, content]
  | _ => simp [response, isSuccess]

end Reply

/-! ## Statements -/

/-- The statement that saves rows in a table. -/
def saveStatement (table : String) (rows : List Row) : List Char :=
  "SAVE ".toList ++ table.toList ++ ' ' :: (rowsToJson rows).compactChars

theorem getLast?_compactChars_array (items : List Json) : (Json.array items).compactChars.getLast? = some ']' := by
  have hitems : ∀ xs : List Json, (compactItems xs).getLast? = some ']' := by
    intro xs
    induction xs with
    | nil => rfl
    | cons x xs ih =>
      rw [compactItems, List.getLast?_append, ih]
      rfl
  cases items with
  | nil => rfl
  | cons x xs =>
    rw [compactChars, List.getLast?_append, hitems]
    rfl

/-- Rows in the form of a text end a text without white space. -/
theorem trim_append_rows {s : List Char} (hs : ∀ c ∈ s.head?, Text.isBlank c = false) (rows : List Row) :
    Text.trim (s ++ (rowsToJson rows).compactChars) = s ++ (rowsToJson rows).compactChars := by
  apply Text.trimBy_eq_self
  · intro c hc
    cases s with
    | nil =>
      have hhead : (rowsToJson rows).compactChars.head? = some '[' := by cases rows <;> rfl
      rw [List.nil_append, hhead] at hc
      cases hc
      decide
    | cons d s => exact hs c hc
  · intro c hc
    rw [List.getLast?_append, rowsToJson, getLast?_compactChars_array] at hc
    cases hc
    decide

theorem trim_saveStatement (table : String) (rows : List Row) :
    Text.trim (saveStatement table rows) = saveStatement table rows := by
  unfold saveStatement
  rw [List.append_cons]
  apply trim_append_rows
  rintro c ⟨⟩
  decide

theorem kind_saveStatement (table : String) (rows : List Row) :
    Session.kind (saveStatement table rows) = .saving := by
  have hupper : Text.upper (saveStatement table rows) =
      "SAVE ".toList ++ Text.upper (table.toList ++ ' ' :: (rowsToJson rows).compactChars) := by
    unfold saveStatement
    rw [List.append_assoc, Text.upper, List.flatMap_append]
    rfl
  rw [Session.kind, trim_saveStatement]
  simp only [hupper]
  rfl

/-- The table and the rows that follow the word `SAVE`. -/
theorem operand_saveStatement (ht : IsTableName table) :
    (Session.operand (saveStatement table rows)).span (!Text.isBlank ·) =
      (table.toList, ' ' :: (rowsToJson rows).compactChars) := by
  have hblank : ∀ c ∈ table.toList, Text.isBlank c = false := by
    intro c hc
    cases h : Text.isBlank c with
    | false => rfl
    | true =>
      have hword := ht.2 c hc
      rw [Text.isWord_of_isBlank h] at hword
      cases hword
  have hdrop : Text.dropBytes? 4 (saveStatement table rows) =
      some ([' '] ++ (table.toList ++ ' ' :: (rowsToJson rows).compactChars)) := rfl
  have htrim : Text.trim (table.toList ++ ' ' :: (rowsToJson rows).compactChars) =
      table.toList ++ ' ' :: (rowsToJson rows).compactChars := by
    rw [List.append_cons]
    apply trim_append_rows
    intro c hc
    obtain ⟨d, r, hd⟩ := List.exists_cons_of_ne_nil ht.1
    rw [hd] at hc hblank
    cases hc
    exact hblank _ List.mem_cons_self
  have hoperand : Session.operand (saveStatement table rows) =
      table.toList ++ ' ' :: (rowsToJson rows).compactChars := by
    rw [Session.operand, hdrop, Option.getD_some, Text.trim, Text.trimBy_append_left (by decide)]
    exact htrim
  rw [hoperand, List.span_eq_takeWhile_dropWhile, List.takeWhile_append_of_pos (by simpa using hblank),
    List.dropWhile_append_of_pos (by simpa using hblank)]
  simp [Text.isBlank]

/-- What comes of rows in the form of a text that a session saves. -/
def savingOutcome (session : Session) (number : Nat) (table : String) (columns : List Column) (text : List Char) :
    Outcome :=
  match decodeRows.read? text with
  | none => .error ⟨number, .fault .invalidRows⟩
  | some rows =>
    match Autofill.process session.interpreter.now rows columns with
    | .error e => .error ⟨number, .rejected e⟩
    | .ok filled =>
      .ok (.message ("Saved " ++ toString filled.length ++ " rows to '" ++ table ++ "'"),
        { session with data := session.data.setRows table filled })

theorem execute_saveStatement {session : Session} (ht : IsTableName table)
    (hcs : session.schema.columns? table = some cs) (rows : List Row) (number : Nat) :
    session.execute number (saveStatement table rows) =
      savingOutcome session number table cs (rowsToJson rows).compactChars := by
  rw [Session.execute_eq, kind_saveStatement, trim_saveStatement]
  have hpayload : Text.trim (' ' :: (rowsToJson rows).compactChars) = (rowsToJson rows).compactChars := by
    show Text.trimBy Text.isBlank ([' '] ++ (rowsToJson rows).compactChars) = _
    rw [Text.trimBy_append_left (by decide)]
    exact trim_append_rows (s := []) (by simp) rows
  show session.runSave (saveStatement table rows) number = _
  unfold Session.runSave Session.saveStep Session.refuse
  dsimp only
  rw [operand_saveStatement ht]
  dsimp only
  rw [hpayload, String.ofList_toList, hcs, savingOutcome]
  cases decodeRows.read? (rowsToJson rows).compactChars with
  | none => rfl
  | some rows =>
    dsimp only
    cases Autofill.process session.interpreter.now rows cs <;> rfl

/-! ## Agreement -/

/-- Rows in the form of a text come to the same in both ways. -/
theorem savingReply_agrees {i : Interpreter} {session : Session} (hnow : session.interpreter.now = i.now)
    (table : String) (cs : List Column) (text : List Char) (number : Nat) :
    (∀ filled, savingReply i table cs text = .saved table filled ↔ ∃ out after,
      savingOutcome session number table cs text = .ok (out, after) ∧ after.data.rows table = filled) ∧
    (∀ e, savingReply i table cs text = .rejected e ↔
      savingOutcome session number table cs text = .error ⟨number, .rejected e⟩) ∧
    (savingReply i table cs text = .malformed ↔
      savingOutcome session number table cs text = .error ⟨number, .fault .invalidRows⟩) := by
  rw [savingReply, savingOutcome, hnow]
  cases decodeRows.read? text with
  | none => simp
  | some rows =>
    simp only [Call.reply]
    cases Autofill.process i.now rows cs with
    | error e => simp
    | ok filled => simp [Dataset.rows_setRows]

/-- **Rows that a client sends with the columns it was told come to what a `SAVE` of them comes to**: they are sent back
as a session stores them, or refused with the same messages, or not read. -/
theorem save_agrees {session : Session} (hnow : session.interpreter.now = service.interpreter.now) {text : String}
    (hcs : (migrationSchema text).columns? table = some cs)
    (hfinite : ∀ c ∈ cs, ∀ negative, c.default? ≠ some (.float (.infinite negative)))
    (hread : ∀ c ∈ cs, ∀ x s, c.default? = some (.float x) → x.stored? = some s →
      Value.decode.read? s = some (.float x))
    (hdepth : (rowsToJson rows).depth < Decoder.maxDepth)
    (htables : (tablesRequest text).body.utf8ByteSize ≤ service.maxRequestBytes)
    (hsaving : (savingRequest table rows (columnsToJson cs)).body.utf8ByteSize ≤ service.maxRequestBytes)
    (number : Nat) :
    let told := service.respond (tablesRequest text)
    let posted := service.respond (savingRequest table rows (columnsToJson cs))
    let outcome := (session.declare (migrationSchema text)).execute number (saveStatement table rows)
    (told.status = 200 ∧ told.columns? table = some (columnsToJson cs)) ∧
      (∀ filled, posted = ⟨200, .json (.object [("success", .bool true),
          ("message", .string ("Data saved for table '" ++ table ++ "'")), ("processed_data", rowsToJson filled)])⟩ ↔
        ∃ out after, outcome = .ok (out, after) ∧ after.data.rows table = filled) ∧
      (∀ errors, posted =
          ⟨400, .json (.object [("success", .bool false), ("message", .string (errorMap errors).compact)])⟩ ↔
        ∃ e, outcome = .error ⟨number, .rejected e⟩ ∧ e.toJson = errorMap errors) ∧
      (posted = ⟨400, .json (.object [("success", .bool false), ("message", .string "Malformed input:")])⟩ ↔
        outcome = .error ⟨number, .fault .invalidRows⟩) := by
  have hreadable : ∀ c ∈ cs, c.IsReadable := by
    intro c hc
    apply isReadable_of_columns? hcs hc
    intro x hx
    apply Value.isReadable_float
    · intro hstored
      cases x with
      | finite negative units => cases hstored
      | infinite negative => exact hfinite c hc negative hx
    · exact fun s hs => hread c hc x s hx hs
  have hdeclared := Session.columns?_declare session (nodup_names_migrationSchema text) hcs
  have hnow' : (session.declare (migrationSchema text)).interpreter.now = service.interpreter.now := hnow
  obtain ⟨hsaved, hrejected, hmalformed⟩ := savingReply_agrees hnow' table cs (rowsToJson rows).compactChars number
  dsimp only
  rw [respond_tablesRequest htables, respond_savingRequest hreadable hdepth hsaving,
    execute_saveStatement (isTableName_of_columns? hcs) hdeclared]
  refine ⟨⟨rfl, ?_⟩, fun filled => ?_, fun errors => ?_, ?_⟩
  · rw [columns?_tables, hcs]
    rfl
  · rw [Reply.response_eq_saved_iff]
    exact hsaved filled
  · rw [Reply.response_eq_rejected_iff]
    simp only [hrejected]
  · rw [Reply.response_eq_malformed_iff]
    exact hmalformed

/-- A migration of a table with a limit for a text and a default that is a number. -/
def pricedItems : String :=
  "Schema::create('items', function (Blueprint $table) \x7b\n  $table->string('code', 3);\n" ++
    "  $table->decimal('price')->default(1.5);\n\x7d);"

/-- The columns of that table. -/
def pricedColumns : List Column :=
  [{ name := "code", type := .string, maxLength := some 3 },
    { name := "price", type := .decimal, default? := some (.float (.finite false (3 <<< 1073))) }]

theorem save_agrees_pricedItems :
    let service : Service := { interpreter := { naming := .extend .empty .empty, now := "2024-01-01 00:00:00" } }
    let session : Session := { interpreter := service.interpreter }
    let declared := session.declare (migrationSchema pricedItems)
    let told := columnsToJson pricedColumns
    let good : List Row := [⟨[("code", .text "ab")]⟩]
    let filled : List Row := [⟨[("code", .text "ab"), ("price", .float (.finite false (3 <<< 1073)))]⟩]
    let bad : List Row := [⟨[("code", .text "abcd")]⟩, .empty]
    let errors := [("row_0", ["Field 'code' exceeds maximum length of 3 characters"]),
      ("row_1", ["Field 'code' is required"])]
    ((service.respond (tablesRequest pricedItems)).status = 200 ∧
        (service.respond (tablesRequest pricedItems)).columns? "items" = some told) ∧
      (service.respond (savingRequest "items" good told) = ⟨200, .json (.object [("success", .bool true),
          ("message", .string "Data saved for table 'items'"), ("processed_data", rowsToJson filled)])⟩ ∧
        ∃ out after, declared.execute 1 (saveStatement "items" good) = .ok (out, after) ∧
          after.data.rows "items" = filled) ∧
      service.respond (savingRequest "items" bad told) =
          ⟨400, .json (.object [("success", .bool false), ("message", .string (errorMap errors).compact)])⟩ ∧
        ∃ e, declared.execute 1 (saveStatement "items" bad) = .error ⟨1, .rejected e⟩ ∧ e.toJson = errorMap errors := by
  intro service session declared told good filled bad errors
  have hcs : (migrationSchema pricedItems).columns? "items" = some pricedColumns := by decide +kernel
  have hfinite : ∀ c ∈ pricedColumns, ∀ negative, c.default? ≠ some (.float (.infinite negative)) := by decide
  have hread : ∀ c ∈ pricedColumns, ∀ x s, c.default? = some (.float x) → x.stored? = some s →
      Value.decode.read? s = some (.float x) := by
    intro c hc x s hx hs
    simp only [pricedColumns, List.mem_cons, List.not_mem_nil, or_false] at hc
    obtain rfl | rfl := hc
    · cases hx
    · cases hx
      have htext : (Binary64.finite false (3 <<< 1073)).stored? = some "1.5".toList := by decide +kernel
      rw [htext] at hs
      cases hs
      decide +kernel
  have hsaved : (declared.execute 1 (saveStatement "items" good)).toOption.map (·.2.data.rows "items") =
      some filled := by decide +kernel
  have hstored : ∃ out after, declared.execute 1 (saveStatement "items" good) = .ok (out, after) ∧
      after.data.rows "items" = filled := by
    cases hexecute : declared.execute 1 (saveStatement "items" good) with
    | error e => rw [hexecute] at hsaved; cases hsaved
    | ok r =>
      rw [hexecute] at hsaved
      exact ⟨r.1, r.2, rfl, Option.some.inj hsaved⟩
  let rejection : Rejection := ⟨[(0, [.tooLong "code" 3]), (1, [.required "code"])],
    [⟨[("code", .text "abcd"), ("price", .float (.finite false (3 <<< 1073)))]⟩,
      ⟨[("price", .float (.finite false (3 <<< 1073)))]⟩]⟩
  have hcause : (declared.execute 1 (saveStatement "items" bad)).map (fun _ => ()) =
      .error ⟨1, .rejected rejection⟩ := by decide +kernel
  have hrefused : ∃ e, declared.execute 1 (saveStatement "items" bad) = .error ⟨1, .rejected e⟩ ∧
      e.toJson = errorMap errors := by
    refine ⟨rejection, ?_, rfl⟩
    cases hexecute : declared.execute 1 (saveStatement "items" bad) with
    | ok r => rw [hexecute] at hcause; cases hcause
    | error e =>
      rw [hexecute] at hcause
      cases hcause
      rfl
  have hnow : session.interpreter.now = service.interpreter.now := rfl
  have hdepth : (rowsToJson good).depth < Decoder.maxDepth ∧ (rowsToJson bad).depth < Decoder.maxDepth := by decide
  have htables : (tablesRequest pricedItems).body.utf8ByteSize ≤ service.maxRequestBytes := by decide +kernel
  have hsaving : (savingRequest "items" good told).body.utf8ByteSize ≤ service.maxRequestBytes ∧
      (savingRequest "items" bad told).body.utf8ByteSize ≤ service.maxRequestBytes := by decide +kernel
  obtain ⟨htold, hgood, -, -⟩ := save_agrees hnow hcs hfinite hread hdepth.1 htables hsaving.1 1
  obtain ⟨-, -, hbad, -⟩ := save_agrees hnow hcs hfinite hread hdepth.2 htables hsaving.2 1
  exact ⟨htold, ⟨(hgood filled).2 hstored, hstored⟩, (hbad errors).2 hrefused, hrefused⟩

end Api

end FluentTables
