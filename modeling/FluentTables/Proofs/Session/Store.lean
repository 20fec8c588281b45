import FluentTables.Proofs.Session.Effects

/-!
# What a session stores

However a session is used, every declared table has a place in its data (`DeclaredStored`). One statement adds table
names at the end and keeps the others in their order, and it changes the rows of one table at most: a `SAVE` puts the
rows that it fills in there, a query that creates a row adds it at the end, and nothing else changes any rows
(`Keeps`). Both hold of every session that statements lead to, failing ones included (`store_of_run`).
-/

namespace FluentTables.Session

variable {s t : Session} {o : Output} {statement : List Char}

/-! ## Runs of statements -/

/-- The session that the step of a statement gives back, whether it fails or not. -/
def next (s : Session) (number : Nat) (statement : List Char) : Session := (s.step number statement).2

/-- The session after some statements, each with the number of its line. -/
def nextAll (s : Session) (statements : List (Nat × List Char)) : Session :=
  statements.foldl (fun s e => s.next e.1 e.2) s

theorem next_of_ok {n : Nat} (h : s.execute n statement = .ok (o, t)) : s.next n statement = t := by
  simp only [next, step_eq, h]

/-- A statement that fails changes nothing. -/
theorem next_of_error {n : Nat} {e : StatementError} (h : s.execute n statement = .error e) :
    s.next n statement = s := by
  simp only [next, step_eq, h]

/-- A statement leaves the session or has one of the effects. -/
theorem next_cases (s : Session) (n : Nat) (statement : List Char) :
    (∃ e, s.execute n statement = .error e ∧ s.next n statement = s) ∨
      ∃ o, s.execute n statement = .ok (o, s.next n statement) ∧ s.Effect statement o (s.next n statement) := by
  cases h : s.execute n statement with
  | error e => exact Or.inl ⟨e, rfl, next_of_error h⟩
  | ok p =>
    obtain ⟨o, t⟩ := p
    rw [next_of_ok h]
    exact Or.inr ⟨o, rfl, effect_of_execute h⟩

/-! ## Declarations -/

theorem rows_foldl_ensure (ts : List String) (d : Dataset) (u : String) :
    (ts.foldl Dataset.ensure d).rows u = d.rows u := by
  induction ts generalizing d with
  | nil => rfl
  | cons t ts ih => rw [List.foldl_cons, ih, Dataset.rows_ensure]

theorem names_prefix_foldl_ensure (ts : List String) (d : Dataset) :
    d.names <+: (ts.foldl Dataset.ensure d).names := by
  induction ts generalizing d with
  | nil => exact List.prefix_refl _
  | cons t ts ih =>
    refine List.IsPrefix.trans ?_ (ih (d.ensure t))
    rw [Dataset.names, Dataset.names, Dataset.ensure, OrderedMap.keys_insertNew]
    split
    · exact List.prefix_refl _
    · exact List.prefix_append _ _

theorem mem_names_foldl_ensure {ts : List String} {d : Dataset} {t : String} (h : t ∈ ts) :
    t ∈ (ts.foldl Dataset.ensure d).names := by
  induction ts generalizing d with
  | nil => cases h
  | cons a ts ih =>
    rcases List.mem_cons.1 h with rfl | h
    · refine (names_prefix_foldl_ensure ts (d.ensure t)).subset ?_
      rw [Dataset.names, Dataset.ensure, OrderedMap.keys_insertNew]
      split
      · assumption
      · simp
    · exact ih h

/-- A declaration changes no rows. -/
theorem rows_declare (s : Session) (declared : Schema) (u : String) :
    (s.declare declared).data.rows u = s.data.rows u :=
  rows_foldl_ensure _ _ _

theorem schema_names_prefix_declare (s : Session) (declared : Schema) :
    s.schema.names <+: (s.declare declared).schema.names :=
  OrderedMap.keys_prefix_insertAll _ _

theorem data_names_prefix_declare (s : Session) (declared : Schema) :
    s.data.names <+: (s.declare declared).data.names :=
  names_prefix_foldl_ensure _ _

theorem mem_data_names_declare (s : Session) {declared : Schema} {t : String} (h : t ∈ declared.names) :
    t ∈ (s.declare declared).data.names :=
  mem_names_foldl_ensure h

theorem mem_schema_names_declare (s : Session) (declared : Schema) (t : String) :
    t ∈ (s.declare declared).schema.names ↔ t ∈ s.schema.names ∨ t ∈ declared.names :=
  OrderedMap.mem_keys_insertAll _ _ _

/-- A table that was declared last has its columns in the schema. -/
theorem columns?_declare (s : Session) {declared : Schema} {t : String} {cs : List Column}
    (hnodup : declared.names.Nodup) (h : declared.columns? t = some cs) :
    (s.declare declared).schema.columns? t = some cs := by
  rw [Schema.columns?] at h ⊢
  show (s.schema.tables.insertAll declared.tables.entries).get? t = some cs
  rw [OrderedMap.get?_insertAll hnodup, ← OrderedMap.get?, h]
  rfl

/-! ## The invariant -/

/-- Every declared table has a place in the data. -/
def DeclaredStored (s : Session) : Prop := ∀ t ∈ s.schema.names, t ∈ s.data.names

theorem Effect.schema_names (h : s.Effect statement o t) : s.schema.names <+: t.schema.names := by
  cases h with
  | declared _ => exact schema_names_prefix_declare s _
  | _ => exact List.prefix_refl _

theorem Effect.data_names (h : s.Effect statement o t) : s.data.names <+: t.data.names := by
  cases h with
  | saved => exact OrderedMap.keys_prefix_alter _ _ _
  | declared => exact data_names_prefix_declare s _
  | created => exact OrderedMap.keys_prefix_alter _ _ _
  | _ => exact List.prefix_refl _

theorem Effect.declaredStored (h : s.Effect statement o t) (hs : s.DeclaredStored) : t.DeclaredStored := by
  intro u hu
  have hold : u ∈ s.schema.names → u ∈ t.data.names := fun hu => h.data_names.subset (hs u hu)
  cases h with
  | declared _ =>
    rcases (mem_schema_names_declare s _ u).1 hu with hu | hu
    · exact hold hu
    · exact mem_data_names_declare s hu
  | _ => exact hold hu

theorem next_declaredStored (hs : s.DeclaredStored) (n : Nat) (statement : List Char) :
    (s.next n statement).DeclaredStored := by
  rcases next_cases s n statement with ⟨e, -, heq⟩ | ⟨o, -, heffect⟩
  · rw [heq]; exact hs
  · exact heffect.declaredStored hs

theorem nextAll_declaredStored (hs : s.DeclaredStored) (statements : List (Nat × List Char)) :
    (s.nextAll statements).DeclaredStored := by
  induction statements generalizing s with
  | nil => exact hs
  | cons e r ih => exact ih (next_declaredStored hs e.1 e.2)

/-! ## One step -/

/-- What a statement keeps of a session, and what it writes. -/
structure Keeps (s : Session) (n : Nat) (statement : List Char) : Prop where
  schema_names : s.schema.names <+: (s.next n statement).schema.names
  data_names : s.data.names <+: (s.next n statement).data.names
  /-- One table at most has other rows. -/
  one_table : ∃ table, ∀ u, u ≠ table → (s.next n statement).data.rows u = s.data.rows u
  /-- A `SAVE` that succeeds replaces the rows of its table by its own rows filled in. -/
  saved : ∀ o t, kind statement = .saving → s.execute n statement = .ok (o, t) →
    ∃ table rows columns filled, saveRequest? (Text.trim statement) = some (table, rows) ∧
      s.schema.columns? table = some columns ∧ Autofill.process s.interpreter.now rows columns = .ok filled ∧
      ∀ u, t.data.rows u = if table = u then filled else s.data.rows u
  /-- A row that was created is added to its table. -/
  created : ∀ table row t, s.execute n statement = .ok (.result (.created table row), t) →
    ∀ u, t.data.rows u = if table = u then s.data.rows u ++ [row] else s.data.rows u
  /-- Nothing else changes any rows. -/
  kept : (∀ o t, s.execute n statement = .ok (o, t) →
      kind statement ≠ .saving ∧ ∀ table row, o ≠ .result (.created table row)) →
    ∀ u, (s.next n statement).data.rows u = s.data.rows u

theorem Effect.one_table (h : s.Effect statement o t) : ∃ table, ∀ u, u ≠ table → t.data.rows u = s.data.rows u := by
  cases h with
  | @saved table rows filled columns _ _ _ _ =>
    refine ⟨table, fun u hu => ?_⟩
    rw [Dataset.rows_setRows, if_neg (Ne.symm hu)]
  | declared _ => exact ⟨"", fun u _ => rows_declare s _ u⟩
  | @created table row _ _ =>
    refine ⟨table, fun u hu => ?_⟩
    rw [Dataset.rows_push, if_neg (Ne.symm hu)]
  | _ => exact ⟨"", fun _ _ => rfl⟩

theorem Effect.rows_of_saving (h : s.Effect statement o t) (hk : kind statement = .saving) :
    ∃ table rows columns filled, saveRequest? (Text.trim statement) = some (table, rows) ∧
      s.schema.columns? table = some columns ∧ Autofill.process s.interpreter.now rows columns = .ok filled ∧
      ∀ u, t.data.rows u = if table = u then filled else s.data.rows u := by
  cases h with
  | @saved table rows filled columns _ hrequest hcolumns hfilled =>
    exact ⟨table, rows, columns, filled, hrequest, hcolumns, hfilled, fun u => Dataset.rows_setRows _ _ _ _⟩
  | silent h => rw [hk] at h; cases h
  | shown h _ => rw [hk] at h; cases h
  | declared h => rw [hk] at h; cases h
  | created h _ => rw [hk] at h; cases h
  | answered h _ _ => rw [hk] at h; cases h

theorem Effect.rows_of_created {table : String} {row : Row} (h : s.Effect statement (.result (.created table row)) t)
    (u : String) : t.data.rows u = if table = u then s.data.rows u ++ [row] else s.data.rows u := by
  cases h with
  | created _ _ => exact Dataset.rows_push _ _ _ _
  | shown _ ho => exact absurd rfl (ho _)
  | answered _ _ hr => exact absurd rfl (hr _ _)

theorem Effect.rows_kept (h : s.Effect statement o t) (hk : kind statement ≠ .saving)
    (ho : ∀ table row, o ≠ .result (.created table row)) (u : String) : t.data.rows u = s.data.rows u := by
  cases h with
  | saved h _ _ _ => exact absurd h hk
  | declared _ => exact rows_declare s _ u
  | created _ _ => exact absurd rfl (ho _ _)
  | _ => rfl

/-- Every statement keeps what it should. -/
theorem keeps (s : Session) (n : Nat) (statement : List Char) : s.Keeps n statement := by
  rcases next_cases s n statement with ⟨e, herr, heq⟩ | ⟨o, hok, heffect⟩
  · have hne : ∀ p, s.execute n statement ≠ .ok p := fun p hp => by rw [herr] at hp; cases hp
    exact {
      schema_names := by simp [heq]
      data_names := by simp [heq]
      one_table := ⟨"", fun u _ => by rw [heq]⟩
      saved := fun o t _ hok => absurd hok (hne _)
      created := fun table row t hok => absurd hok (hne _)
      kept := fun _ u => by rw [heq] }
  · exact {
      schema_names := heffect.schema_names
      data_names := heffect.data_names
      one_table := heffect.one_table
      saved := fun o t hk hok => (effect_of_execute hok).rows_of_saving hk
      created := fun table row t hok => (effect_of_execute hok).rows_of_created
      kept := fun h u => heffect.rows_kept (h o _ hok).1 (h o _ hok).2 u }

/-- **The store of a session**: whatever statements have been run, every declared table has a place in the data, and
the next statement keeps the tables in their order and writes to one of them at most. -/
theorem store_of_run (i : Interpreter) (d : Dataset) (statements : List (Nat × List Char)) :
    ((start i d).nextAll statements).DeclaredStored ∧
      ∀ n statement, ((start i d).nextAll statements).Keeps n statement :=
  ⟨nextAll_declaredStored (fun _ h => by cases h) statements, fun n statement => keeps _ n statement⟩

end FluentTables.Session
