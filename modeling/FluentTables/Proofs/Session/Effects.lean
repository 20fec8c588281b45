import FluentTables.Session.Statement

/-!
# What a statement does

A statement belongs to one of five kinds, which its text alone decides (`kind`, `step_eq_kind`). What the step of a
statement can do is said once (`step_cases`): it fails and leaves the session that it was given, or it succeeds and has
one of six effects (`Effect`), of which only those of a `SAVE`, of a declaration and of a query that creates a row leave
another session behind. The number of its line goes into the error of a statement that fails and nowhere else
(`execute_number`).
-/

namespace FluentTables.Session

variable {s t : Session} {o : Output} {statement : List Char}

/-- A session with data and without declared tables. -/
def start (i : Interpreter) (d : Dataset) : Session := { interpreter := i, data := d }

/-! ## Kinds of statements -/

/-- The kinds of statements. -/
inductive StatementKind where
  /-- Nothing, or a comment. -/
  | silent
  | showing
  | saving
  | declaring
  | query
deriving DecidableEq

/-- The kind of a statement. -/
def kind (statement : List Char) : StatementKind :=
  let line := Text.trim statement
  if isSilent line then .silent
  else if Text.startsWith "SHOW ".toList (Text.upper line) then .showing
  else if Text.startsWith "SAVE ".toList (Text.upper line) then .saving
  else if isDeclaration line then .declaring
  else .query

/-- The step of a statement is that of its kind. -/
theorem step_eq_kind (s : Session) (n : Nat) (statement : List Char) :
    s.step n statement =
      match kind statement with
      | .silent => (.ok .nothing, s)
      | .showing => s.showStep (Text.trim statement) n
      | .saving => s.saveStep (Text.trim statement) n
      | .declaring => s.declarationStep (Text.trim statement) n
      | .query => (.ok (s.runQuery (Text.trim statement)).1, (s.runQuery (Text.trim statement)).2) := by
  unfold step kind
  dsimp only
  split
  · rfl
  · split
    · rfl
    · split
      · rfl
      · split
        · rfl
        · cases s.runQuery (Text.trim statement)
          rfl

/-- A statement is carried out by its kind. -/
theorem execute_eq (s : Session) (n : Nat) (statement : List Char) :
    s.execute n statement =
      match kind statement with
      | .silent => .ok (.nothing, s)
      | .showing => s.runShow (Text.trim statement) n
      | .saving => s.runSave (Text.trim statement) n
      | .declaring => s.runDeclaration (Text.trim statement) n
      | .query => .ok (s.runQuery (Text.trim statement)) := by
  rw [execute, step_eq_kind]
  cases kind statement with
  | query =>
    cases s.runQuery (Text.trim statement)
    rfl
  | silent | showing | saving | declaring => rfl

/-- A declaration declares its tables, if it has any. -/
theorem runDeclaration_eq (s : Session) (line : List Char) (n : Nat) :
    s.runDeclaration line n =
      let declared := migrationSchema (String.ofList line)
      if declared.isEmpty then .error ⟨n, .fault .unknownDeclaration⟩
      else .ok (.tables declared, s.declare declared) := by
  unfold runDeclaration declarationStep
  dsimp only
  split <;> rfl

/-! ## Effects -/

/-- The table and the rows that a `SAVE` names. -/
def saveRequest? (line : List Char) : Option (String × List Row) :=
  match (operand line).span (!Text.isBlank ·) with
  | (_, []) => none
  | (name, payload) => (decodeRows.read? (Text.trim payload)).map (String.ofList name, ·)

/-- What a statement that succeeds gives out, and the session that it leaves. -/
inductive Effect (s : Session) (statement : List Char) : Output → Session → Prop
  | silent (h : kind statement = .silent) : Effect s statement .nothing s
  | shown {o : Output} (h : kind statement = .showing) (ho : ∀ r, o ≠ .result r) : Effect s statement o s
  | saved {table : String} {rows filled : List Row} {columns : List Column} (h : kind statement = .saving)
      (hrequest : saveRequest? (Text.trim statement) = some (table, rows))
      (hcolumns : s.schema.columns? table = some columns)
      (hfilled : Autofill.process s.interpreter.now rows columns = .ok filled) :
      Effect s statement (.message ("Saved " ++ toString filled.length ++ " rows to '" ++ table ++ "'"))
        { s with data := s.data.setRows table filled }
  | declared (h : kind statement = .declaring) :
      Effect s statement (.tables (migrationSchema (String.ofList (Text.trim statement))))
        (s.declare (migrationSchema (String.ofList (Text.trim statement))))
  | created {table : String} {row : Row} (h : kind statement = .query)
      (hresult : s.interpreter.interpret (String.ofList (Text.trim statement)) s.data = .created table row) :
      Effect s statement (.result (.created table row)) { s with data := s.data.push table row }
  | answered {r : QueryResult} (h : kind statement = .query)
      (hresult : s.interpreter.interpret (String.ofList (Text.trim statement)) s.data = r)
      (hr : ∀ table row, r ≠ .created table row) : Effect s statement (.result r) s

section Steps

variable (s) (line : List Char)

/-- Showing fails, or it gives out something that is no answer to a query. The session stays as it is. -/
theorem showStep_cases : (∃ cause, ∀ n, s.showStep line n = (.error ⟨n, cause⟩, s)) ∨
    ∃ o, (∀ r, o ≠ .result r) ∧ ∀ n, s.showStep line n = (.ok o, s) := by
  by_cases hall : Text.sameAscii (operand line) "tables".toList = true
  · exact Or.inr ⟨.message s.tableList, fun _ => nofun, fun n => by simp only [showStep, hall, if_true]⟩
  by_cases hnothing : (operand line).isEmpty = true
  · exact Or.inl ⟨_, fun n => by simp only [showStep, hall, hnothing, if_true]; rfl⟩
  by_cases hunknown : (!s.data.contains (String.ofList (operand line)) &&
      (s.schema.columns? (String.ofList (operand line))).isNone) = true
  · exact Or.inl ⟨_, fun n => by simp only [showStep, hall, hnothing, hunknown, if_true]; rfl⟩
  · exact Or.inr ⟨.rows (String.ofList (operand line)) (s.data.rows (String.ofList (operand line))), fun _ => nofun,
      fun n => by simp only [showStep, hall, hnothing, hunknown]; rfl⟩

/-- Saving fails and leaves the session, or the rows filled in replace those of the table. -/
theorem saveStep_cases : (∃ cause, ∀ n, s.saveStep line n = (.error ⟨n, cause⟩, s)) ∨
    ∃ table rows columns filled, saveRequest? line = some (table, rows) ∧ s.schema.columns? table = some columns ∧
      Autofill.process s.interpreter.now rows columns = .ok filled ∧ ∀ n, s.saveStep line n =
        (.ok (.message ("Saved " ++ toString filled.length ++ " rows to '" ++ table ++ "'")),
          { s with data := s.data.setRows table filled }) := by
  rcases hspan : (operand line).span (!Text.isBlank ·) with ⟨name, payload⟩
  simp only [saveStep, saveRequest?, refuse, hspan]
  cases payload with
  | nil => exact Or.inl ⟨_, fun _ => rfl⟩
  | cons c r =>
    dsimp only
    cases hrows : decodeRows.read? (Text.trim (c :: r)) with
    | none => exact Or.inl ⟨_, fun _ => rfl⟩
    | some rows =>
      cases hcolumns : s.schema.columns? (String.ofList name) with
      | none => exact Or.inl ⟨_, fun _ => rfl⟩
      | some columns =>
        cases hfilled : Autofill.process s.interpreter.now rows columns with
        | error e => exact Or.inl ⟨.rejected e, fun n => by simp only [hfilled]⟩
        | ok filled =>
          exact Or.inr ⟨_, rows, columns, filled, rfl, hcolumns, hfilled, fun n => by simp only [hfilled]⟩

/-- A declaration without tables fails and leaves the session; any other declares its tables. -/
theorem declarationStep_cases : (∃ cause, ∀ n, s.declarationStep line n = (.error ⟨n, cause⟩, s)) ∨
    ∀ n, s.declarationStep line n =
      (.ok (.tables (migrationSchema (String.ofList line))), s.declare (migrationSchema (String.ofList line))) := by
  by_cases hempty : (migrationSchema (String.ofList line)).isEmpty = true
  · exact Or.inl ⟨_, fun n => by simp only [declarationStep, hempty, if_true]; rfl⟩
  · exact Or.inr fun n => by simp only [declarationStep, hempty]; rfl

end Steps

/-- **A statement fails and leaves the session that it was given, or it has one of the effects.** The number of its
line only goes into the error. -/
theorem step_cases (s : Session) (statement : List Char) :
    (∃ cause, ∀ n, s.step n statement = (.error ⟨n, cause⟩, s)) ∨
      ∃ o t, s.Effect statement o t ∧ ∀ n, s.step n statement = (.ok o, t) := by
  cases hk : kind statement with
  | silent => exact Or.inr ⟨_, _, .silent hk, fun n => by rw [step_eq_kind, hk]⟩
  | showing =>
    simp only [step_eq_kind, hk]
    rcases s.showStep_cases (Text.trim statement) with hrefused | ⟨o, ho, hstep⟩
    · exact Or.inl hrefused
    · exact Or.inr ⟨o, s, .shown hk ho, hstep⟩
  | saving =>
    simp only [step_eq_kind, hk]
    rcases s.saveStep_cases (Text.trim statement) with
      hrefused | ⟨table, rows, columns, filled, hrequest, hcolumns, hfilled, hstep⟩
    · exact Or.inl hrefused
    · exact Or.inr ⟨_, _, .saved hk hrequest hcolumns hfilled, hstep⟩
  | declaring =>
    simp only [step_eq_kind, hk]
    rcases s.declarationStep_cases (Text.trim statement) with hrefused | hstep
    · exact Or.inl hrefused
    · exact Or.inr ⟨_, _, .declared hk, hstep⟩
  | query =>
    simp only [step_eq_kind, hk, runQuery]
    cases hresult : s.interpreter.interpret (String.ofList (Text.trim statement)) s.data
    case created table row => exact Or.inr ⟨_, _, .created hk hresult, fun _ => rfl⟩
    all_goals exact Or.inr ⟨_, _, .answered hk hresult fun _ _ => nofun, fun _ => rfl⟩

/-! ## What every statement keeps to -/

variable {n : Nat} {e : StatementError}

/-- **A statement that fails leaves the session that it was given.** -/
theorem session_of_refused (h : s.step n statement = (.error e, t)) : t = s := by
  rcases step_cases s statement with ⟨cause, hstep⟩ | ⟨o, u, -, hstep⟩
  · rw [hstep] at h
    cases h
    rfl
  · rw [hstep] at h
    cases h

/-- A step is told by what its statement comes to. -/
theorem step_eq (s : Session) (n : Nat) (statement : List Char) :
    s.step n statement =
      match s.execute n statement with
      | .ok (o, t) => (.ok o, t)
      | .error e => (.error e, s) := by
  unfold execute
  rcases hstep : s.step n statement with ⟨e | o, t⟩
  · rw [session_of_refused hstep]
    rfl
  · rfl

/-- A statement that succeeds has one of the effects. -/
theorem effect_of_execute (h : s.execute n statement = .ok (o, t)) : s.Effect statement o t := by
  unfold execute at h
  rcases step_cases s statement with ⟨cause, hstep⟩ | ⟨o', t', heffect, hstep⟩
  · rw [hstep] at h
    cases h
  · rw [hstep] at h
    cases h
    exact heffect

/-- The number of its line only goes into the error of a statement. -/
theorem execute_number (s : Session) (n : Nat) (statement : List Char) :
    s.execute n statement = (s.execute 0 statement).mapError fun e => ⟨n, e.cause⟩ := by
  unfold execute
  rcases step_cases s statement with ⟨cause, hstep⟩ | ⟨o, t, -, hstep⟩
  · rw [hstep, hstep]
    rfl
  · rw [hstep, hstep]
    rfl

theorem line_of_execute (h : s.execute n statement = .error e) : e.line = n := by
  unfold execute at h
  rcases step_cases s statement with ⟨cause, hstep⟩ | ⟨o, t, -, hstep⟩
  · rw [hstep] at h
    cases h
    rfl
  · rw [hstep] at h
    cases h

end FluentTables.Session
