import FluentTables.Proofs.Migration.ColumnNames

/-!
# The attributes of columns

A migration is read in one form from end to end: as blueprints if a block occurs in it, and otherwise as SQL
(`migrationSchema_eq_schema`). What a declaration in a block says of a column fits the type of the column, and a column
that fills itself is one of the few that do (`isCoherent_lineColumns`). In SQL a column has a name and a type
(`isPlain_of_mem`). So the columns of all tables are coherent, and those of SQL are plain (`columns_coherent`).
-/

namespace FluentTables

open Pattern

namespace Column

/-- A name and a type, of which nothing else is declared. -/
def IsPlain (c : Column) : Prop := c = { name := c.name, type := c.type }

/-- What is declared of a column goes with its type and its name. -/
structure IsCoherent (c : Column) : Prop where
  /-- Only a string has a length. -/
  maxLength : c.maxLength.isSome = true → c.type = .string
  /-- Only a decimal has a precision. -/
  precision : c.precision.isSome = true → c.type = .decimal
  /-- Only a decimal has a scale. -/
  scale : c.scale.isSome = true → c.type = .decimal
  /-- Only the key counts up, and nothing else is declared of it. -/
  counter : c.autoIncrement = true → c = { name := "id", type := .bigint, autoIncrement := true }
  /-- Only the two stamps take the time. -/
  stamp : c.autoFill = true → (c.name = "created_at" ∨ c.name = "updated_at") ∧ c.type = .timestamp

theorem IsPlain.isCoherent {c : Column} (h : c.IsPlain) : c.IsCoherent := by
  rw [h]
  constructor <;> rintro ⟨⟩

/-- A column that does not fill itself is coherent if its sizes go with its type. -/
theorem isCoherent_of_given {c : Column} (hcounter : c.autoIncrement = false) (hstamp : c.autoFill = false)
    (hlength : c.maxLength.isSome = true → c.type = .string)
    (hprecision : c.precision.isSome = true → c.type = .decimal)
    (hscale : c.scale.isSome = true → c.type = .decimal) : c.IsCoherent where
  maxLength := hlength
  precision := hprecision
  scale := hscale
  counter h := absurd h (by simp [hcounter])
  stamp h := absurd h (by simp [hstamp])

theorem isCoherent_id : Column.id.IsCoherent where
  maxLength := by rintro ⟨⟩
  precision := by rintro ⟨⟩
  scale := by rintro ⟨⟩
  counter _ := rfl
  stamp := by rintro ⟨⟩

end Column

/-! ## Columns of a declaration -/

namespace Blueprint

/-- The type decides which of the numbers behind the name are read. -/
theorem isCoherent_modified (line : List Char) (m : Match) (type : ColumnType) :
    (modified line (typedColumn m type)).IsCoherent := by
  cases type with
  | string => exact Column.isCoherent_of_given rfl rfl (fun _ => rfl) (by rintro ⟨⟩) (by rintro ⟨⟩)
  | decimal => exact Column.isCoherent_of_given rfl rfl (by rintro ⟨⟩) (fun _ => rfl) fun _ => rfl
  | _ => exact Column.isCoherent_of_given rfl rfl (by rintro ⟨⟩) (by rintro ⟨⟩) (by rintro ⟨⟩)

theorem isCoherent_stamp {name : String} (h : name = "created_at" ∨ name = "updated_at") :
    Column.IsCoherent { name, type := .timestamp, autoFill := true } where
  maxLength := by rintro ⟨⟩
  precision := by rintro ⟨⟩
  scale := by rintro ⟨⟩
  counter := by rintro ⟨⟩
  stamp _ := ⟨h, rfl⟩

/-- **What a line declares is coherent**, whichever declaration it is. -/
theorem isCoherent_columns (line : List Char) (m : Match) (d : Declaration) : ∀ c ∈ columns line m d, c.IsCoherent := by
  intro c hc
  cases d with
  | id =>
    obtain rfl := List.mem_singleton.1 hc
    exact Column.isCoherent_id
  | timestamps =>
    obtain ⟨name, hname, rfl⟩ := List.mem_map.1 hc
    exact isCoherent_stamp (by simpa using hname)
  | softDeletes =>
    obtain rfl := List.mem_singleton.1 hc
    exact Column.isCoherent_of_given rfl rfl (by rintro ⟨⟩) (by rintro ⟨⟩) (by rintro ⟨⟩)
  | typed type =>
    obtain rfl := List.mem_singleton.1 hc
    exact isCoherent_modified line m type

theorem isCoherent_lineColumns {line : List Char} {c : Column} (hc : c ∈ lineColumns line) : c.IsCoherent := by
  rw [lineColumns] at hc
  split at hc
  · next m d _ => exact isCoherent_columns line m d c hc
  · cases hc

end Blueprint

theorem Sql.isPlain_of_column? {fragment : List Char} {c : Column} (h : Sql.column? fragment = some c) :
    c.IsPlain := by
  rw [Sql.column?] at h
  split at h
  · cases h
  · obtain ⟨m, -, rfl⟩ := Option.map_eq_some_iff.1 h
    rfl

namespace TableForm

theorem isCoherent_of_mem {form : TableForm} {d : List Char} {c : Column} (hc : c ∈ form.columns d) :
    c.IsCoherent := by
  cases form with
  | blueprint => exact Blueprint.isCoherent_lineColumns hc
  | sql => exact (Sql.isPlain_of_column? (Option.mem_toList.1 hc)).isCoherent

theorem isPlain_of_mem {d : List Char} {c : Column} (hc : c ∈ sql.columns d) : c.IsPlain :=
  Sql.isPlain_of_column? (Option.mem_toList.1 hc)

/-! ## One form for a migration -/

/-- The form in which a migration is read. -/
def ofText (s : List Char) : TableForm := if Blueprint.block.isIn s then blueprint else sql

/-- The columns of a body. -/
def bodyColumns (form : TableForm) (body : List Char) : List Column :=
  (form.declarations body).flatMap form.columns

/-- The tables that a text declares in a form. -/
def schema (form : TableForm) (s : List Char) : Schema :=
  .ofList ((form.table.matchesIn s).map fun m => (String.ofList (m.group 1), form.bodyColumns (m.group 2)))

theorem schema_blueprint (s : List Char) : blueprint.schema s = Blueprint.schema s := rfl

theorem schema_sql (s : List Char) : sql.schema s = Sql.schema s := by
  have hbody : ∀ body, sql.bodyColumns body = Sql.columns body := by
    intro body
    rw [bodyColumns, declarations, List.flatMap_map, Sql.columns]
    exact (List.filterMap_eq_flatMap_toList _ _).symm
  simp only [schema, hbody]
  rfl

end TableForm

/-- A schema is empty just if nothing is declared. -/
theorem Schema.isEmpty_ofList_iff {declarations : List (String × List Column)} :
    (Schema.ofList declarations).isEmpty = true ↔ declarations = [] := by
  constructor
  · intro hempty
    have hentries : (OrderedMap.ofList declarations).entries = [] := List.isEmpty_iff.1 hempty
    cases declarations with
    | nil => rfl
    | cons d ds =>
      have hmem : d.1 ∈ (OrderedMap.ofList (d :: ds)).keys :=
        (OrderedMap.mem_keys_insertAll _ _ _).2 (Or.inr List.mem_cons_self)
      rw [OrderedMap.keys, hentries] at hmem
      cases hmem
  · rintro rfl
    rfl

theorem Blueprint.isEmpty_schema_iff {s : List Char} : (Blueprint.schema s).isEmpty = true ↔ block.isIn s = false := by
  rw [Blueprint.schema, Schema.isEmpty_ofList_iff, List.map_eq_nil_iff, matchesIn_eq_nil_iff]

/-- **A migration is read in one form**: whether there is a block decides for all tables. -/
theorem migrationSchema_eq_schema (text : String) :
    migrationSchema text = (TableForm.ofText text.toList).schema text.toList := by
  unfold migrationSchema TableForm.ofText
  dsimp only
  by_cases hblock : Blueprint.block.isIn text.toList = true
  · have hne : ¬ (Blueprint.schema text.toList).isEmpty = true := by
      rw [Blueprint.isEmpty_schema_iff, hblock]
      exact Bool.noConfusion
    rw [if_neg hne, if_pos hblock, TableForm.schema_blueprint]
  · rw [if_pos (Blueprint.isEmpty_schema_iff.2 (Bool.eq_false_iff.2 hblock)), if_neg hblock, TableForm.schema_sql]

/-- A column of a table is declared in the form of the migration. -/
theorem exists_declaration_of_mem {text t : String} {cs : List Column}
    (h : (migrationSchema text).columns? t = some cs) {c : Column} (hc : c ∈ cs) :
    ∃ d, c ∈ (TableForm.ofText text.toList).columns d := by
  rw [migrationSchema_eq_schema] at h
  obtain ⟨m, -, heq⟩ := List.mem_map.1 (mem_of_columns? h)
  cases heq
  obtain ⟨d, -, hd⟩ := List.mem_flatMap.1 hc
  exact ⟨d, hd⟩

/-- **The columns of all tables are coherent**, and those of a migration in SQL are plain; no migration declares tables
in both forms. -/
theorem columns_coherent (text : String) :
    migrationSchema text = (TableForm.ofText text.toList).schema text.toList ∧
      ∀ t cs, (migrationSchema text).columns? t = some cs → ∀ c ∈ cs,
        c.IsCoherent ∧ (TableForm.ofText text.toList = .sql → c.IsPlain) := by
  refine ⟨migrationSchema_eq_schema text, fun t cs h c hc => ?_⟩
  obtain ⟨d, hd⟩ := exists_declaration_of_mem h hc
  refine ⟨TableForm.isCoherent_of_mem hd, fun hsql => ?_⟩
  rw [hsql] at hd
  exact TableForm.isPlain_of_mem hd

/-- A block with sizes, a counter and stamps; the statement behind it is passed over. -/
def itemsAndLogs : String :=
  "Schema::create('items', function (Blueprint $t) \x7b\n" ++
    "$t->id();\n$t->string('code', 8)->unique();\n$t->decimal('price', 6, 2)->default(0);\n" ++
    "$t->timestamps();\n\x7d);\n" ++
    "CREATE TABLE logs (id INT);"

theorem columns_coherent_itemsAndLogs :
    (migrationSchema itemsAndLogs).names = ["items"] ∧
      ∃ cs, (migrationSchema itemsAndLogs).columns? "items" = some cs ∧
        cs.map (fun c => (c.name, c.maxLength, c.scale)) = [("id", none, none), ("code", some 8, none),
          ("price", none, some 2), ("created_at", none, none), ("updated_at", none, none)] ∧
        ∀ c ∈ cs, c.IsCoherent := by
  have hview : (migrationSchema itemsAndLogs).tables.entries.map
      (fun e => (e.1, e.2.map fun c => (c.name, c.maxLength, c.scale))) =
        [("items", [("id", none, none), ("code", some 8, none), ("price", none, some 2), ("created_at", none, none),
          ("updated_at", none, none)])] := by decide +kernel
  obtain ⟨⟨t, cs⟩, hentries, heq⟩ := List.map_eq_singleton_iff.1 hview
  obtain ⟨rfl, hlist⟩ := Prod.mk.inj heq
  have hnames : (migrationSchema itemsAndLogs).names = ["items"] := by
    rw [Schema.names, OrderedMap.keys, hentries, List.map_singleton]
  have hcs : (migrationSchema itemsAndLogs).columns? "items" = some cs := by
    rw [Schema.columns?, OrderedMap.get?, hentries]
    rfl
  exact ⟨hnames, cs, hcs, hlist, fun c hc => ((columns_coherent itemsAndLogs).2 "items" cs hcs c hc).1⟩

end FluentTables
