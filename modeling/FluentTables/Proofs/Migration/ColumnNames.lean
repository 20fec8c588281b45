import FluentTables.Proofs.Migration.Declarations
import FluentTables.Proofs.Migration.Fragments
import FluentTables.Proofs.Migration.ParsedTables
import Mathlib.Data.List.Nodup

/-!
# The names of columns

A table is read from its body, declaration by declaration, and what each of them declares is kept
(`exists_form_of_columns?`). One declaration names no column twice (`TableForm.nodup_columnNames`), but nothing looks at
two of them together. So the names of a table are distinct just if no two declarations share one
(`nodup_columnNames_iff`). A written declaration has the name that it spells, a key and the stamps have names of their
own, and a clause has none (`columnNames_line`, `columnNames_fragment`).
-/

namespace FluentTables

open Pattern

/-- The forms in which tables are declared. -/
inductive TableForm where
  /-- A block of `Schema::create`. -/
  | blueprint
  /-- A statement in SQL. -/
  | sql
deriving DecidableEq

namespace TableForm

/-- What declares a table; group 1 is its name, group 2 its body. -/
def table : TableForm → Pattern
  | blueprint => Blueprint.block
  | sql => Sql.table

/-- The declarations of a body: its lines, or what its commas part. -/
def declarations : TableForm → List Char → List (List Char)
  | blueprint, body => (Text.lines body).map Text.trim
  | sql, body => (Text.splitOn ',' body).map Text.trim

/-- The columns of a declaration. -/
def columns : TableForm → List Char → List Column
  | blueprint, d => Blueprint.lineColumns d
  | sql, d => (Sql.column? d).toList

/-- The names of the columns of a declaration. -/
def columnNames (form : TableForm) (d : List Char) : List String := (form.columns d).map (·.name)

/-- **One declaration names no column twice**: all declare one at most, but the one of the two stamps. -/
theorem nodup_columnNames (form : TableForm) (d : List Char) : (form.columnNames d).Nodup := by
  cases form with
  | blueprint =>
    show ((Blueprint.lineColumns d).map (·.name)).Nodup
    rw [Blueprint.lineColumns]
    split
    · next m declaration _ =>
      cases declaration with
      | timestamps =>
        show ["created_at", "updated_at"].Nodup
        decide
      | id | typed type | softDeletes => exact List.nodup_singleton _
    · exact List.nodup_nil
  | sql =>
    show ((Sql.column? d).toList.map (·.name)).Nodup
    cases Sql.column? d with
    | none => exact List.nodup_nil
    | some c => exact List.nodup_singleton _

end TableForm

/-! ## The names of written declarations -/

/-- The names that a line of a block declares. -/
def Blueprint.Line.names : Line → List String
  | key _ _ _ => ["id"]
  | typed t _ => [t.name.text]
  | timestamps => ["created_at", "updated_at"]
  | softDeletes => ["deleted_at"]

theorem TableForm.columnNames_line (l : Blueprint.Line) : blueprint.columnNames l.text = l.names := by
  rw [columnNames, columns, l.lineColumns_text]
  cases l with
  | typed t ms => cases t <;> rfl
  | key m n h | timestamps | softDeletes => rfl

theorem TableForm.columnNames_fragment (f : Sql.Fragment) :
    sql.columnNames f.text = if f.isClause then [] else [f.name.text] := by
  rw [columnNames, columns, f.toList_column?_text, f.columns_eq]
  split <;> rfl

/-! ## Tables -/

variable {text t : String} {cs : List Column}

/-- **The columns of a table are those of its declarations, in their order.** -/
theorem exists_form_of_columns? (h : (migrationSchema text).columns? t = some cs) :
    ∃ form : TableForm, ∃ m ∈ form.table.matchesIn text.toList, t = String.ofList (m.group 1) ∧
      cs = (form.declarations (m.group 2)).flatMap form.columns := by
  rcases columns?_cases h with ⟨m, hm, ht, rfl⟩ | ⟨m, hm, ht, rfl⟩
  · exact ⟨.blueprint, m, hm, ht, rfl⟩
  · refine ⟨.sql, m, hm, ht, ?_⟩
    rw [Sql.columns, TableForm.declarations, List.flatMap_map]
    exact List.filterMap_eq_flatMap_toList _ _

/-- **The names of a table are distinct just if no two of its declarations share one.** A line has the name that it
spells, `"id"`, or the names of its stamps, whatever its modifiers; two words of SQL have the first for their name,
unless they begin a clause. -/
theorem nodup_columnNames_iff (h : (migrationSchema text).columns? t = some cs) :
    (∃ form : TableForm, ∃ m ∈ form.table.matchesIn text.toList, t = String.ofList (m.group 1) ∧
      cs = (form.declarations (m.group 2)).flatMap form.columns ∧ (∀ d, (form.columnNames d).Nodup) ∧
      ((cs.map (·.name)).Nodup ↔ (form.declarations (m.group 2)).Pairwise fun d e =>
        ∀ name ∈ form.columnNames d, name ∉ form.columnNames e)) ∧
    (∀ l : Blueprint.Line, TableForm.blueprint.columnNames l.text = l.names) ∧
    ∀ f : Sql.Fragment, TableForm.sql.columnNames f.text = if f.isClause then [] else [f.name.text] := by
  refine ⟨?_, TableForm.columnNames_line, TableForm.columnNames_fragment⟩
  obtain ⟨form, m, hm, ht, hcs⟩ := exists_form_of_columns? h
  refine ⟨form, m, hm, ht, hcs, form.nodup_columnNames, ?_⟩
  rw [hcs, List.map_flatMap]
  show ((form.declarations (m.group 2)).flatMap form.columnNames).Nodup ↔ _
  rw [List.nodup_flatMap]
  constructor
  · exact fun hboth => hboth.2.imp fun hdisjoint name hd he => hdisjoint hd he
  · intro hpairs
    exact ⟨fun d _ => form.nodup_columnNames d, hpairs.imp fun hd name hname he => hd name hname he⟩

/-- A block whose declarations share no name. -/
def stampedNotes : String :=
  "Schema::create('notes', function (Blueprint $t) \x7b\n" ++
    "$t->id();\n$t->string('title', 9);\n$t->timestamps();\n\x7d);"

/-- Stamps and a column that is written with the name of one of them share it; a column of SQL may have the name of a
keyword. -/
theorem nodup_columnNames_iff_stampedNotes :
    let created : Blueprint.Line :=
      .typed (.plain ("timestamp", .timestamp) { text := "created_at" }) [.nullable]
    let key : Sql.Fragment := { name := { text := "Primary" }, type := { text := "KEY" } }
    (∃ cs, (migrationSchema stampedNotes).columns? "notes" = some cs ∧
      cs.map (·.name) = ["id", "title", "created_at", "updated_at"] ∧
      ∃ form : TableForm, ∃ m ∈ form.table.matchesIn stampedNotes.toList, String.ofList (m.group 1) = "notes" ∧
        (form.declarations (m.group 2)).Pairwise fun d e =>
          ∀ name ∈ form.columnNames d, name ∉ form.columnNames e) ∧
      TableForm.blueprint.columnNames "$table->timestamps();".toList = ["created_at", "updated_at"] ∧
      TableForm.blueprint.columnNames "$table->timestamp('created_at')->nullable();".toList = ["created_at"] ∧
      TableForm.sql.columnNames "Primary KEY".toList = ["Primary"] ∧
      created.text = "$table->timestamp('created_at')->nullable();".toList ∧ key.text = "Primary KEY".toList := by
  intro created key
  have hnames : ((migrationSchema stampedNotes).columns? "notes").map (·.map (·.name)) =
      some ["id", "title", "created_at", "updated_at"] := by decide +kernel
  obtain ⟨cs, hcs, hlist⟩ := Option.map_eq_some_iff.1 hnames
  obtain ⟨⟨form, m, hm, hname, -, -, hiff⟩, hlines, hfragments⟩ := nodup_columnNames_iff hcs
  have hstamps : Blueprint.Line.timestamps.text = "$table->timestamps();".toList := by decide +kernel
  have hcreated : created.text = "$table->timestamp('created_at')->nullable();".toList := by decide +kernel
  have hkey : key.text = "Primary KEY".toList := by decide +kernel
  exact ⟨⟨cs, hcs, hlist, form, m, hm, hname.symm, hiff.1 (by rw [hlist]; decide)⟩, hstamps ▸ hlines .timestamps,
    hcreated ▸ hlines created, hkey ▸ (hfragments key).trans (if_neg (by decide +kernel)), hcreated, hkey⟩

/-- A name may be declared twice: in a block, also by a declaration that does not spell it, and in SQL. -/
theorem columnNames_repeat :
    let block := fun body : String => "Schema::create('t', function ($t) \x7b\n" ++ body ++ "\n\x7d);"
    let names := fun text => ((migrationSchema text).columns? "t").map (·.map (·.name))
    ∀ e ∈ [(block "$t->string('a');\n$t->integer('a');", ["a", "a"]),
      (block "$t->timestamps();\n$t->timestamp('created_at');", ["created_at", "updated_at", "created_at"]),
      ("CREATE TABLE t (a INT, a TEXT);", ["a", "a"])], names e.1 = some e.2 ∧ ¬ e.2.Nodup := by
  decide +kernel

end FluentTables
