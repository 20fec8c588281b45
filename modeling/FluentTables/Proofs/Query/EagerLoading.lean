import FluentTables.Proofs.Query.Closures

/-!
# Statements with lists of relations

The list of a statement may hold anything that looks like another statement, but no call of a model
(`not_opens_entries`), so the statement is recognized by its list (`recognize`). It is answered by the rows of its
table that its conditions leave, with the relations of its list (`interpret_eager`).
-/

namespace FluentTables

namespace Query

open Pattern Text Shape

/-- `Model::with([...])->get()`. -/
def bracketed (model : String) (content : List Char) (a : Arrow) : List Char :=
  model.toList ++ ("::with(".toList ++ '[' :: (content ++ ']' :: ')' :: (Call.next a "get" []).text))

section Bracketed

variable {model : String} {gap : List Char} {a : Arrow}

theorem isPlain_get : ∀ c ∈ [Call.next a "get" []], c.IsPlain := by
  intro c hc
  rw [List.mem_singleton.1 hc]
  exact Call.isPlain_last a (by decide)

/-! ## Shapes that come before that of a list -/

section Opens

variable {m : String} (hgap : ∀ c ∈ gap, isBlank c = true) (hm : m ∈ methods)

include hm in
/-- What stands in front of the bracket of a model's call. -/
theorem colons_method : ParenFree ("::".toList ++ m.toList) ∧
    ∀ c ∈ [',', '\'', '[', ']', '{'], c ∉ "::".toList ++ m.toList := by
  have hmarks : ∀ m ∈ methods, ∀ c ∈ [',', '\'', '[', ']', '{'], c ∉ "::".toList ++ m.toList := by decide
  exact ⟨ParenFree.append (by decide) (parenFree_method hm), hmarks m hm⟩

include hgap hm in
/-- Entries open brackets behind `function` and `where` only. -/
theorem not_opens_entry (hne : m ≠ "where") (e : Entry) : ¬ Opens ("::".toList ++ m.toList) (e.text gap) := by
  obtain ⟨hfree, hmarks⟩ := colons_method hm
  have hquoted : ∀ n : RelationName, ParenFree (quoted n.text.toList) := by
    intro n c hc
    rcases mem_quotedBy.1 hc with rfl | hc
    · decide
    · exact (n.isPlainText.1.1 c hc).2.2
  cases e with
  | plain n => exact not_opens (hquoted n)
  | closure n clauses hclosed =>
    intro hopens
    have htext : (Entry.closure n clauses hclosed).text gap = (quoted n.text.toList ++ " => function ".toList) ++
        '(' :: ("$q".toList ++ ')' :: ([' '] ++ '{' ::
          (written (closureCalls gap clauses) ++ (closureTail clauses ++ ['}'])))) := by
      simp [Entry.text, closureText]
    rw [htext] at hopens
    rcases hopens.of_open hfree ((hquoted n).append (by decide)) with hsuffix | hopens
    · have hmethods : ∀ m ∈ methods, ¬ "::".toList ++ m.toList <:+ " => function ".toList ∧
          ¬ " => function ".toList <:+ "::".toList ++ m.toList := by decide
      rcases List.suffix_or_suffix_of_suffix hsuffix (List.suffix_append _ _) with h | h
      · exact (hmethods m hm).1 h
      · exact (hmethods m hm).2 h
    rcases hopens.of_cons hfree.not_mem.2 (by decide) with hopens | hopens
    · exact not_opens (by decide) hopens
    rcases hopens.of_cons (hmarks '{' (by simp)) (by decide) with hopens | hopens
    · exact not_opens (by decide) hopens
    rcases link_of_opens (fun c hc => (isPlain_closureCalls hgap c hc).hasOwnParens) hfree hopens with
      ⟨c, hc, hlink⟩ | hopens
    · obtain ⟨-, -, hname, -⟩ := mem_closureCalls hc
      exact hne ((((isPlain_closureCalls hgap c hc).name_eq hm hlink).1).symm.trans hname)
    · exact not_opens (parenFree_closureTail.append (by decide)) hopens

include hgap hm in
theorem not_opens_entries (hne : m ≠ "where") (entries : List Entry) :
    ¬ Opens ("::".toList ++ m.toList) (joined gap (entries.map (Entry.text gap))) := by
  obtain ⟨hfree, hmarks⟩ := colons_method hm
  induction entries with
  | nil => exact not_opens (by simp [joined, ParenFree])
  | cons e entries ih =>
    cases entries with
    | nil => simpa [joined_singleton] using not_opens_entry hgap hm hne e
    | cons f entries =>
      intro hopens
      obtain ⟨t, ht⟩ : ∃ t, joined gap ((f :: entries).map (Entry.text gap)) = '\'' :: t := by
        have hhead : ∃ t, f.text gap = '\'' :: t := by cases f <;> exact ⟨_, rfl⟩
        obtain ⟨t, ht⟩ := hhead
        cases entries with
        | nil => exact ⟨t, by simp [joined_singleton, ht]⟩
        | cons g entries => exact ⟨_, by rw [List.map_cons, List.map_cons, joined_cons_cons, ht, List.cons_append]⟩
      rw [List.map_cons, List.map_cons, joined_cons_cons] at hopens
      rcases hopens.of_cons (hmarks ',' (by simp)) (by decide) with hopens | hopens
      · exact not_opens_entry hgap hm hne e hopens
      rw [← List.map_cons, ht] at hopens
      rcases hopens.of_cons (hmarks '\'' (by simp)) (by decide) with hopens | hopens
      · exact not_opens (fun c hc => isParen_of_isBlank (hgap c hc)) hopens
      · exact ih (hopens.mono (ht ▸ (List.suffix_cons '\'' t).isInfix))

end Opens

variable (hmodel : IsAsciiWord model.toList) (hgap : ∀ c ∈ gap, isBlank c = true) (entries : List Entry)

include hmodel hgap in
theorem search_bracketed {m : String} (hm : m ∈ methods) (hwith : m ≠ "with") (hwhere : m ≠ "where") (hget : m ≠ "get")
    {ps : List Pattern} (hps : Shape.firstCall m ∈ ps) :
    (chain ps).search (bracketed model (joined gap (entries.map (Entry.text gap))) a) = none := by
  obtain ⟨hfree, hmarks⟩ := colons_method hm
  refine search_eq_none_of_spells fun w hw hspells => ?_
  have hopens := (opens_firstCall hps hspells).mono hw
  have hcall : (Call.first model "with" []).IsPlain := Call.isPlain_first hmodel (by decide) (by decide) rfl
  have htext : ∀ content, bracketed model content a = (Call.first model "with" []).link ++
      '(' :: ([] ++ '[' :: (content ++ ']' :: ([] ++ ')' :: written [Call.next a "get" []]))) := by
    simp [bracketed, Call.link, Call.first, written]
  rw [htext] at hopens
  rcases hopens.of_open hfree hcall.link with hsuffix | hopens
  · exact hwith (hcall.name_eq hm hsuffix).1.symm
  rcases hopens.of_cons (hmarks '[' (by simp)) (by decide) with hopens | hopens
  · exact not_opens (by decide) hopens
  rcases hopens.of_cons (hmarks ']' (by simp)) (by decide) with hopens | hopens
  · exact not_opens_entries hgap hm hwhere entries hopens
  rcases hopens.of_cons hfree.not_mem.2 (by decide) with hopens | hopens
  · exact not_opens (by decide) hopens
  obtain ⟨c, hc, hname, -⟩ := call_of_opens isPlain_get (by decide) hm hopens
  rw [List.mem_singleton.1 hc] at hname
  exact hget hname.symm

/-! ## Reading a statement with a list -/

theorem hasDecimalComma_entry (hgap : ∀ c ∈ gap, isBlank c = true) (e : Entry) :
    (e.text gap).head?.any isDigit = false ∧ hasDecimalComma (e.text gap) = false := by
  have hquoted : ∀ (n : RelationName) (r : List Char),
      hasDecimalComma (quoted n.text.toList ++ r) = hasDecimalComma r := by
    intro n r
    rw [quoted, hasDecimalComma_quotedBy rfl, n.isPlainText.1.2, Bool.false_or]
  cases e with
  | plain n =>
    have h := hquoted n []
    rw [List.append_nil] at h
    exact ⟨by rfl, h⟩
  | closure n clauses hclosed =>
    have htail : hasDecimalComma (closureTail clauses ++ ['}']) = false ∧
        (closureTail clauses ++ ['}']).head?.any isDigit = false ∧
        startsCommaDigit (closureTail clauses ++ ['}']) = false := by
      cases clauses <;> exact ⟨by rfl, by rfl, by rfl⟩
    have hbody : hasDecimalComma (closureText gap clauses ++ ['}']) = false := by
      rw [closureText, List.append_assoc, hasDecimalComma_append htail.2.1 htail.2.2,
        hasDecimalComma_written (isPlain_closureCalls hgap), htail.1]
      rfl
    have hhead :
        hasDecimalComma ((" => function ($q) ".toList ++ ['{']) ++ (closureText gap clauses ++ ['}'])) = false := by
      rw [hasDecimalComma_append_left (by decide), hbody]
    refine ⟨by rfl, ?_⟩
    rw [Entry.text, hquoted]
    simpa using hhead

include hmodel hgap in
theorem prepare_bracketed : prepare (bracketed model (joined gap (entries.map (Entry.text gap))) a) =
    bracketed model (joined gap (entries.map (Entry.text gap))) a := by
  have hentries : ∀ e ∈ entries.map (Entry.text gap), e.head?.any isDigit = false ∧ hasDecimalComma e = false := by
    intro t ht
    obtain ⟨e, -, rfl⟩ := List.mem_map.1 ht
    exact hasDecimalComma_entry hgap e
  have hcontent : hasDecimalComma (joined gap (entries.map (Entry.text gap))) = false :=
    (hasDecimalComma_joined hgap hentries).2
  revert hcontent
  generalize joined gap (entries.map (Entry.text gap)) = content
  intro hcontent
  have htrim := trim_statement hmodel
    ("::with([".toList ++ (content ++ "])".toList ++ ((Call.next a "get" []).link ++ ['('])))
  have hlast : hasDecimalComma (Call.next a "get" []).text = false := by
    simpa [written] using hasDecimalComma_written isPlain_get
  have hclose : hasDecimalComma (content ++ ("])".toList ++ (Call.next a "get" []).text)) = false := by
    rw [hasDecimalComma_append (by rfl) (by rfl), hcontent, hasDecimalComma_append_left (by decide), hlast]
    rfl
  have hdecimal := hasDecimalComma_statement hmodel
    (":with([".toList ++ (content ++ ("])".toList ++ (Call.next a "get" []).text)))
  have hopen : ∀ c ∈ ":with([".toList, isDigit c = false := by decide
  rw [hasDecimalComma_append_left hopen, hclose] at hdecimal
  refine prepare_eq_self ?_ ?_
  · simpa [bracketed, Call.text, Call.next] using htrim
  · simpa [bracketed] using hdecimal

include hmodel hgap in
theorem recognize_bracketed :
    ∃ m, Shape.recognize? (bracketed model (joined gap (entries.map (Entry.text gap))) a) = some (.closureWith, m) ∧
      m.group 1 = model.toList ∧ m.group 2 = joined gap (entries.map (Entry.text gap)) := by
  have hget : "get" ∈ methods := by decide
  have hbracket : ']' ∉ ([')'] ++ (Call.next a "get" []).text) ++ [] := by
    have harrow : ']' ∉ a.text := fun hmem => absurd (a.eq_or_isBlank_of_mem hmem) (by decide)
    simp [Call.text, Call.link, Call.next, harrow]
  have htakes : ∀ content, Takes Shape.closureWith.pattern none _ [] _ := fun content =>
    (takes_model hmodel (by rfl)).chain_cons <| (takes_firstCall "with").chain_cons <|
      (takes_blanks (w := []) (by simp) (by rfl)).chain_cons <| (takes_char '[').chain_cons <|
      (takes_close.chain_cons (Selection.takes_last (a := a) hget)).chain_greedy_upTo (w := content) hbracket 2
  obtain ⟨m, hm, htexts⟩ := search_of_takes (htakes (joined gap (entries.map (Entry.text gap))))
  have hsearch : Shape.closureWith.pattern.search (bracketed model (joined gap (entries.map (Entry.text gap))) a) =
      some m := by
    simpa [bracketed] using hm
  refine ⟨m, ?_, by rw [m.group_eq, htexts]; rfl, by rw [m.group_eq, htexts]; rfl⟩
  have hcreate : Shape.create.pattern.search (bracketed model (joined gap (entries.map (Entry.text gap))) a) = none :=
    search_bracketed hmodel hgap entries (m := "create") (by decide) (by decide) (by decide) (by decide) (by simp)
  have hall : Shape.all.pattern.search (bracketed model (joined gap (entries.map (Entry.text gap))) a) = none :=
    search_bracketed hmodel hgap entries (m := "all") (by decide) (by decide) (by decide) (by decide) (by simp)
  simp [Shape.recognize?, Shape.inOrder, hcreate, hall, hsearch]

end Bracketed

/-! ## Statements with lists of entries -/

/-- A statement with a list of relations as it is written. White space may stand behind the commas. -/
structure Eager where
  model : String
  gap : List Char := []
  entries : List Entry
  model_word : IsAsciiWord model.toList := by decide
  gap_blank : ∀ c ∈ gap, isBlank c = true := by decide
  names_nodup : (entries.map fun e => e.name.text).Nodup := by decide

namespace Eager

variable (s : Eager) {a : Arrow}

/-- The list of a statement. -/
def content : List Char := joined s.gap (s.entries.map (Entry.text s.gap))

/-- The text of a statement: `Model::with([...])->get()`. -/
def text (a : Arrow) : List Char := bracketed s.model s.content a

theorem prepare_text : prepare (s.text a) = s.text a := prepare_bracketed s.model_word s.gap_blank s.entries

theorem recognize : ∃ m, Shape.recognize? (s.text a) = some (.closureWith, m) ∧ m.group 1 = s.model.toList ∧
    m.group 2 = s.content := recognize_bracketed s.model_word s.gap_blank s.entries

end Eager

end Query

namespace Interpreter

open Query

variable (i : Interpreter) (s : Eager) (a : Arrow)

/-- **A statement with a list of relations is answered by the rows of its table**, in their order, with the relations
of the list attached, first those that have closures; only rows stay from which every name that has conditions leads to
a row. -/
theorem interpret_eager (data : Dataset) :
    i.interpret (String.ofList (s.text a)) data =
      .rows ((i.attachAll (entryPaths s.entries) (i.naming.tableOf s.model) data
        (data.rows (i.naming.tableOf s.model))).filter fun row =>
          ∀ e ∈ s.entries, e.conditions ≠ [] → pathHasResults row e.name.text = true) := by
  obtain ⟨m, hm, hmodel, hcontent⟩ := s.recognize (a := a)
  rw [i.interpret_ofList s.prepare_text hm]
  simp only [dispatch, hmodel, hcontent, String.ofList_toList, withClosures, Eager.content,
    relationPaths_joined s.gap_blank s.names_nodup]
  refine congrArg QueryResult.rows (List.filter_congr fun row _ => ?_)
  rw [Bool.eq_iff_iff, List.all_eq_true, decide_eq_true_iff]
  constructor
  · intro h e he hconditions
    refine h e.path (List.mem_filter.2 ⟨mem_entryPaths.2 ⟨e, he, rfl⟩, ?_⟩)
    simpa [Entry.path] using hconditions
  · intro h p hp
    obtain ⟨hp, hconditions⟩ := List.mem_filter.1 hp
    obtain ⟨e, he, rfl⟩ := mem_entryPaths.1 hp
    exact h e he (by simpa [Entry.path] using hconditions)

/-- A brand stays for its dear pads; the relations without conditions keep no row out. No brand stays for a sign that
is none. -/
theorem interpret_eager_brands :
    let i : Interpreter := ⟨.extend .empty .empty, "<now>"⟩
    let product (id brand : Int64) (name : String) (price : Int64) : Row :=
      ⟨[("id", .int id), ("brand_id", .int brand), ("name", .text name), ("price", .int price)]⟩
    let data : Dataset := ⟨⟨[("brands", [⟨[("id", .int 1)]⟩, ⟨[("id", .int 2)]⟩]),
      ("products", [product 1 1 "Pad" 3, product 2 2 "Pad" 3, product 3 2 "Big pad" 5, product 4 1 "Pen" 5])]⟩⟩
    let dear : Clause := { column := "price", sign := (">", .gt), value := "4" }
    let pad : Clause := { column := "name", sign := ("Like", .like), value := "%PAD" }
    let other : Clause := { column := "price", sign := ("!=", .unsupported "!="), value := "4" }
    let s : Eager := { model := "Brand", gap := [' '], entries := [.plain { text := "owner" },
      .closure { text := "products" } [({}, dear), ({}, pad)], .closure { text := "products.brand" } []] }
    let t : Eager := { model := "Brand", entries := [.closure { text := "products" } [({}, other)]] }
    i.interpret (String.ofList (s.text {})) data = .rows [⟨[("id", .int 2),
      ("products", .list [.record ((product 3 2 "Big pad" 5).insert "brand" (.record ⟨[("id", .int 2)]⟩))]),
      ("owner", .null)]⟩] ∧
      i.interpret (String.ofList (t.text {})) data = .rows [] := by
  intro i product data dear pad other s t
  exact ⟨(i.interpret_eager s {} data).trans (by decide +kernel),
    (i.interpret_eager t {} data).trans (by decide +kernel)⟩

end Interpreter

end FluentTables
