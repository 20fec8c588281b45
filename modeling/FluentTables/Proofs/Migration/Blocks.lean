import FluentTables.Proofs.Migration.Declarations
import FluentTables.Proofs.Text.Lines

/-!
# Migrations as they are written

A table is written as a block with a declaration on each line. No line has a brace that closes, so a block is read up
to its own end (`takes_block`) and the blocks of a migration one after another (`matchTexts_text`); the tables are
those that were written (`migrationSchema_text`).
-/

namespace FluentTables

namespace Blueprint

open Pattern Text Query

/-! ## Blocks -/

/-- The characters of a line neither end its block nor the line. -/
theorem Line.not_mem_text (l : Line) : '}' ∉ l.text ∧ '\n' ∉ l.text := by
  have hall : ∀ c ∈ l.text, c ≠ '}' ∧ c ≠ '\n' := by
    have hinline : ∀ s, IsInline s → ∀ c ∈ s, c ≠ '}' ∧ c ≠ '\n' := by
      intro s hs c hc
      have hmarks := hs c hc
      simp only [List.mem_cons, not_or] at hmarks
      exact ⟨hmarks.2.2.1, hmarks.2.2.2.1⟩
    intro c hc
    rw [text, List.mem_append, written, List.mem_flatMap] at hc
    rcases hc with ⟨call, hcall, hc⟩ | hc
    · have hmethod := l.isMethodCall call hcall
      simp only [Call.text, List.mem_append, List.mem_cons, List.not_mem_nil, or_false] at hc
      rcases hc with hc | rfl | hc | rfl
      · exact hinline _ hmethod.isInline_link c hc
      · decide
      · exact hinline _ hmethod.args c hc
      · decide
    · rw [List.mem_singleton.1 hc]
      decide
  exact ⟨fun h => (hall _ h).1 rfl, fun h => (hall _ h).2 rfl⟩

theorem Line.trim_text (l : Line) : trim ("    ".toList ++ l.text) = l.text := by
  have hspace : ∀ c ∈ "    ".toList, isBlank c = true := by decide
  obtain ⟨s, hs⟩ : ∃ s, l.text = '$' :: (s ++ [';']) := by
    rw [l.text_eq]
    exact ⟨"table->".toList ++ (l.head.1.toList ++ '(' :: (l.head.2 ++ [')'])) ++
      written (l.modifiers.map Modifier.call), by simp⟩
  rw [trim, trimBy_append_left hspace, ← trim, hs]
  exact trim_of_ends (by decide) (by decide) s

/-- A table as it is written. -/
structure Table where
  name : Name
  lines : List Line

namespace Table

variable (t : Table)

/-- The declarations, each on a line of its own. -/
def body : List Char := '\n' :: (t.lines.map fun l => "    ".toList ++ l.text).flatMap fun x => x ++ ['\n']

/-- `Schema::create('name', function (Blueprint $table) {...});` -/
def block : List Char :=
  "Schema::create(".toList ++ (quoted t.name.text.toList ++ ", ".toList) ++
    ("function (Blueprint $table) \x7b".toList ++ (t.body ++ '}' :: ");".toList))

/-- The columns that the declarations stand for. -/
def columns : List Column := t.lines.flatMap Line.columns

/-- **The declarations of a block are read as their columns**, in their order. -/
theorem bodyColumns_body : bodyColumns t.body = t.columns := by
  have hlines : ∀ x ∈ t.lines.map (fun l => "    ".toList ++ l.text), '\n' ∉ x := by
    intro x hx hmem
    obtain ⟨l, -, rfl⟩ := List.mem_map.1 hx
    rcases List.mem_append.1 hmem with hmem | hmem
    · exact absurd hmem (by decide)
    · exact l.not_mem_text.2 hmem
  have hread : (Text.lines t.body).map trim = [] :: t.lines.map Line.text := by
    rw [body, Text.lines, linesFrom_newline, List.map_cons, map_trim_lines_flatMap hlines, List.map_map]
    exact congrArg _ (List.map_congr_left fun l _ => l.trim_text)
  have hempty : lineColumns [] = [] := by decide
  rw [bodyColumns, hread, List.flatMap_cons, hempty, List.nil_append, List.flatMap_map, columns]
  exact List.flatMap_congr fun l _ => l.lineColumns_text

theorem not_mem_body : '}' ∉ t.body := by
  intro hmem
  rcases List.mem_cons.1 hmem with hmem | hmem
  · cases hmem
  · obtain ⟨x, hx, hmem⟩ := List.mem_flatMap.1 hmem
    obtain ⟨l, -, rfl⟩ := List.mem_map.1 hx
    simp only [List.mem_append, List.mem_singleton] at hmem
    rcases hmem with (hmem | hmem) | hmem
    · exact absurd hmem (by decide)
    · exact l.not_mem_text.1 hmem
    · cases hmem

variable {b : Option Char} {rest : List Char}

theorem takes_blockName (n : Name) (hrest : rest.head?.any isBlank = false) :
    Takes (chain [Pattern.text "Schema::create", blanks, char '(', blanks, quotedName, blanks, char ',', blanks]) b
      ("Schema::create(".toList ++ (quoted n.text.toList ++ ", ".toList)) rest [(1, n.text.toList)] := by
  have h : Takes (chain [Pattern.text "Schema::create", blanks, char '(', blanks, quotedName, blanks, char ',',
      blanks]) b _ rest _ :=
    (takes_text "Schema::create").chain_cons <| (Shape.takes_blanks (w := []) (by simp) (by rfl)).chain_cons <|
      (takes_char '(').chain_cons <| (Shape.takes_blanks (w := []) (by simp) (by rfl)).chain_cons <|
      (takes_quotedName n).chain_cons <| (Shape.takes_blanks (w := []) (by simp) (by rfl)).chain_cons <|
      (takes_char ',').chain_cons <| (Shape.takes_blanks (w := [' ']) (by decide) hrest).chain_cons takes_chain_nil
  simpa using h

theorem takes_hint :
    Takes (opt (chain [Pattern.text "Blueprint", blanks1])) b "Blueprint ".toList ('$' :: rest) [] := by
  have h : Takes (chain [Pattern.text "Blueprint", blanks1]) b _ ('$' :: rest) _ :=
    (takes_text "Blueprint").chain_cons <|
      (takes_some1 (w := [' ']) (by decide) (by decide) (by rfl)).chain_cons takes_chain_nil
  simpa using h.opt

theorem takes_blockFunction :
    Takes (chain [Pattern.text "function", blanks, char '(', blanks, opt (chain [Pattern.text "Blueprint", blanks1]),
      char '$', some1 Text.isWord, blanks, char ')', blanks, char '{']) b
      "function (Blueprint $table) \x7b".toList rest [] := by
  have h : Takes (chain [Pattern.text "function", blanks, char '(', blanks,
      opt (chain [Pattern.text "Blueprint", blanks1]), char '$', some1 Text.isWord, blanks, char ')', blanks,
      char '{']) b _ rest _ :=
    (takes_text "function").chain_cons <| (Shape.takes_blanks (w := [' ']) (by decide) (by rfl)).chain_cons <|
      (takes_char '(').chain_cons <| (Shape.takes_blanks (w := []) (by simp) (by rfl)).chain_cons <|
      takes_hint.chain_cons <| (takes_char '$').chain_cons <|
      (takes_some1 (w := "table".toList) (by decide) (by decide) (by rfl)).chain_cons <|
      (Shape.takes_blanks (w := []) (by simp) (by rfl)).chain_cons <| (takes_char ')').chain_cons <|
      (Shape.takes_blanks (w := [' ']) (by decide) (by rfl)).chain_cons <| (takes_char '{').chain_cons takes_chain_nil
  simpa using h

theorem takes_blockEnd : Takes (chain [blanks, char ')', blanks, char ';']) b ");".toList rest [] := by
  have h : Takes (chain [blanks, char ')', blanks, char ';']) b _ rest _ :=
    (Shape.takes_blanks (w := []) (by simp) (by rfl)).chain_cons <| (takes_char ')').chain_cons <|
      (Shape.takes_blanks (w := []) (by simp) (by rfl)).chain_cons <| (takes_char ';').chain_cons takes_chain_nil
  simpa using h

/-- **A block is taken up to its own end**, with its name and its declarations. -/
theorem takes_block : Takes Blueprint.block b t.block rest [(2, t.body), (1, t.name.text.toList)] := by
  have hbody : ∀ b, Takes (chain [Pattern.group 2 (span false fun _ => true), char '}', blanks, char ')', blanks,
      char ';']) b (t.body ++ '}' :: ");".toList) rest [(2, t.body)] := fun b =>
    takes_blockEnd.chain_lazy_upTo t.not_mem_body 2
  exact (takes_blockName t.name (by rfl)).chain_append (takes_blockFunction.chain_append (hbody _))

end Table

/-! ## Migrations -/

/-- A migration as it is written: tables of distinct names, one block behind another. -/
structure Migration where
  tables : List Table
  names_nodup : (tables.map fun t => t.name.text).Nodup := by decide

namespace Migration

/-- The blocks of tables, one behind another. -/
def blocks (tables : List Table) : List Char := tables.flatMap fun t => t.block ++ ['\n']

/-- The text of a migration. -/
def text (m : Migration) : List Char := blocks m.tables

theorem fails_block {c : Char} (hc : c ≠ 'S') {b : Option Char} {s : List Char} : Fails block ⟨b, c :: s⟩ := by
  refine fails_of_spells fun w rest hw hspells => ?_
  obtain ⟨u, v, rfl, hu, -⟩ := hspells
  rw [spells_text] at hu
  subst hu
  exact hc (List.cons_eq_cons.1 hw).1

theorem fails_block_nil {b : Option Char} : Fails block ⟨b, []⟩ := by
  refine fails_of_spells fun w rest hw hspells => ?_
  obtain ⟨u, v, rfl, hu, -⟩ := hspells
  rw [spells_text] at hu
  subst hu
  cases hw

/-- No block begins at the line end behind a block. -/
theorem skips_newline {u : List Char} (hu : ∀ c ∈ u, c = '\n') (b : Option Char) (s : List Char) :
    Skips block b u s := by
  refine skips_of_forall fun p c v hv => fails_block ?_
  rw [hu c (by simp [hv])]
  decide

/-- **The blocks are found one after another**, behind a line end or not. -/
theorem matchTexts_blocks (tables : List Table) {u : List Char} (hu : ∀ c ∈ u, c = '\n') (b : Option Char) :
    (block.matchTexts b (u ++ blocks tables)).map (fun t => (textOf 1 t, textOf 2 t)) =
      tables.map fun t => (t.name.text.toList, t.body) := by
  induction tables generalizing u b with
  | nil =>
    have hnone : block.searchAt ⟨b, u ++ blocks []⟩ = none := by
      simpa [blocks] using searchAt_eq_none (skips_newline hu b []) fails_block_nil
    rw [matchTexts_none hnone]
    rfl
  | cons t tables ih =>
    have htext : u ++ blocks (t :: tables) = u ++ (t.block ++ (['\n'] ++ blocks tables)) := by
      simp [blocks]
    have hne : t.block ≠ [] := 
      List.append_ne_nil_of_left_ne_nil (List.append_ne_nil_of_left_ne_nil (by decide) _) _
    rw [htext, matchTexts_take (skips_newline hu b _) t.takes_block hne, List.map_cons, List.map_cons,
      ih (u := ['\n']) (by simp)]
    rfl

theorem schema_text (m : Migration) :
    schema m.text = .ofList (m.tables.map fun t => (t.name.text, t.columns)) := by
  let read (t : List Char × List Char) : String × List Column := (String.ofList t.1, bodyColumns t.2)
  have hblocks := congrArg (List.map read) (matchTexts_blocks m.tables (u := []) (by simp) none)
  rw [List.map_map, List.map_map] at hblocks
  have hmatches := map_matchesIn Blueprint.block m.text fun t => read (textOf 1 t, textOf 2 t)
  simp only [schema, Match.group_eq]
  refine congrArg Schema.ofList (hmatches.trans (hblocks.trans (List.map_congr_left fun t _ => ?_)))
  simp only [Function.comp, read, String.ofList_toList, t.bodyColumns_body]

end Migration

end Blueprint

open Blueprint in
/-- **A written migration is read as its tables, in their order, with the columns that were declared**, each with what
the literal of its first default stands for. -/
theorem migrationSchema_text (m : Migration) :
    (migrationSchema (String.ofList m.text)).tables.entries = m.tables.map (fun t => (t.name.text, t.columns)) ∧
      ∀ (l : Query.Literal) (v : Value), l.StandsFor v ↔ v = l.value := by
  have hnodup : ((m.tables.map fun t => (t.name.text, t.columns)).map (·.1)).Nodup := by
    rw [List.map_map]
    exact m.names_nodup
  have hentries : (Blueprint.schema m.text).tables.entries = m.tables.map fun t => (t.name.text, t.columns) := by
    rw [m.schema_text]
    exact OrderedMap.entries_ofList hnodup
  have hempty : Sql.schema [] = .ofList [] := by decide
  refine ⟨?_, fun l v => Query.Literal.standsFor_iff⟩
  unfold migrationSchema
  rw [String.toList_ofList]
  dsimp only
  split
  · next h =>
    have hnil : m.tables = [] := by
      have hisEmpty : (Blueprint.schema m.text).tables.entries.isEmpty = true := h
      rw [hentries, List.isEmpty_iff, List.map_eq_nil_iff] at hisEmpty
      exact hisEmpty
    have htext : m.text = [] := by rw [Migration.text, hnil]; rfl
    rw [htext, hempty, hnil]
    rfl
  · exact hentries

/-- Of two defaults the first counts, and a number in quotes is a number. -/
theorem migrationSchema_text_products :
    let products : Blueprint.Table := ⟨{ text := "products" }, [.key "bigIncrements" (some { text := "product" }),
      .typed (.string { text := "name" } (some 100)) [.unique],
      .typed (.decimal { text := "price" } (some (8, 2))) [.default (.text '"' "0"), .nullable, .default (.int 7)],
      .typed (.plain ("foreignId", .foreignId) { text := "brand_id" }) [.default .null], .softDeletes]⟩
    let notes : Blueprint.Table := ⟨{ text := "notes" }, [.key "id",
      .typed (.string { text := "title" }) [.default (.text '\'' "to do")],
      .typed (.plain ("boolean", .boolean) { text := "done" }) [.default (.bool false)], .timestamps]⟩
    let m : Blueprint.Migration := { tables := [products, notes] }
    let lines := ["Schema::create('products', function (Blueprint $table) \x7b",
      "    $table->bigIncrements('product');",
      "    $table->string('name', 100)->unique();",
      "    $table->decimal('price', 8, 2)->default(\"0\")->nullable()->default(7);",
      "    $table->foreignId('brand_id')->default(null);",
      "    $table->softDeletes();",
      "\x7d);",
      "Schema::create('notes', function (Blueprint $table) \x7b",
      "    $table->id();",
      "    $table->string('title')->default('to do');",
      "    $table->boolean('done')->default(false);",
      "    $table->timestamps();",
      "\x7d);"]
    m.text = lines.flatMap (fun line => line.toList ++ ['\n']) ∧
      (migrationSchema (String.ofList m.text)).tables.entries =
        [("products", [{ name := "id", type := .bigint, autoIncrement := true },
            { name := "name", type := .string, maxLength := some 100, unique := true },
            { name := "price", type := .decimal, precision := some 8, scale := some 2, nullable := true,
              default? := some (.int 0) },
            { name := "brand_id", type := .foreignId, default? := some .null },
            { name := "deleted_at", type := .timestamp, nullable := true }]),
          ("notes", [{ name := "id", type := .bigint, autoIncrement := true },
            { name := "title", type := .string, default? := some (.text "to do") },
            { name := "done", type := .boolean, default? := some (.bool false) },
            { name := "created_at", type := .timestamp, autoFill := true },
            { name := "updated_at", type := .timestamp, autoFill := true }])] ∧
      Query.Literal.StandsFor (.text '"' "0") (.int 0) := by
  intro products notes m lines
  obtain ⟨hentries, hliterals⟩ := migrationSchema_text m
  exact ⟨by decide +kernel, hentries.trans (by decide +kernel), (hliterals _ _).2 (by decide)⟩

end FluentTables
