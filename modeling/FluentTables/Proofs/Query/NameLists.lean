import FluentTables.Proofs.Query.EagerLoading
import FluentTables.Proofs.Relation.Existence

/-!
# Lists of names, with and without brackets

Names of relations may be given in a bracketed list or as bare arguments. The two statements have different shapes, and
their names are read by different passes; only the first pass leaves a name out that it has read before. The trees of
the names are the same, since a path that is there already adds nothing to them (`ofPaths_foldl_addPath`), so both
statements have the same answer (`interpret_bracketed`, `interpret_bare`).
-/

namespace FluentTables

/-! ## Paths that are there already -/

/-- A list of paths with a name at its end, unless one of the paths has it. -/
def addPath (paths : List RelationPath) (name : String) : List RelationPath :=
  if paths.any (·.path == name) then paths else paths ++ [{ path := name }]

theorem conditions_of_mem_foldl_addPath {names : List String} {paths : List RelationPath}
    (h : ∀ p ∈ paths, p.conditions = []) : ∀ p ∈ names.foldl addPath paths, p.conditions = [] := by
  induction names generalizing paths with
  | nil => exact h
  | cons name names ih =>
    apply ih
    intro p hp
    unfold addPath at hp
    split at hp
    · exact h p hp
    · rcases List.mem_append.1 hp with hp | hp
      · exact h p hp
      · rw [List.mem_singleton.1 hp]

namespace RelationNode

theorem ofPaths_append_singleton (paths : List RelationPath) (p : RelationPath) :
    ofPaths (paths ++ [p]) = insertPath p.conditions (pathSegments p.path) (ofPaths paths) := by
  rw [ofPaths_eq_grow, ofPaths_eq_grow, List.map_append]
  exact grow_append_singleton _ _

/-- The trees do not depend on whether a name that is there already is added. -/
theorem ofPaths_addPath (paths : List RelationPath) (name : String) :
    ofPaths (addPath paths name) = ofPaths (paths ++ [{ path := name }]) := by
  unfold addPath
  split
  · next hname =>
    obtain ⟨p, hp, hpath⟩ := List.any_eq_true.1 hname
    obtain rfl : p.path = name := by simpa using hpath
    have hroute : p.route ∈ paths.map RelationPath.route := List.mem_map_of_mem hp
    rw [ofPaths_append_singleton, ofPaths_eq_grow]
    exact (insertPath_of_mem hroute).symm
  · rfl

theorem ofPaths_append_congr {paths paths' : List RelationPath} (h : ofPaths paths = ofPaths paths')
    (more : List RelationPath) : ofPaths (paths ++ more) = ofPaths (paths' ++ more) := by
  unfold ofPaths at h ⊢
  rw [List.foldl_append, List.foldl_append, h]

/-- **Names that are left out because they are there already are not missed.** -/
theorem ofPaths_foldl_addPath (names : List String) (paths : List RelationPath) :
    ofPaths (names.foldl addPath paths) = ofPaths (paths ++ names.map fun name => { path := name }) := by
  induction names generalizing paths with
  | nil => simp
  | cons name names ih =>
    rw [List.foldl_cons, ih, ofPaths_append_congr (ofPaths_addPath paths name), List.map_cons, List.append_assoc,
      List.singleton_append]

end RelationNode

namespace Query

open Pattern Text Shape

/-- A model and the names of relations, as they are written. White space may stand behind the commas. -/
structure NameList where
  model : String
  gap : List Char := []
  names : List RelationName
  model_word : IsAsciiWord model.toList := by decide
  gap_blank : ∀ c ∈ gap, isBlank c = true := by decide
  names_ne : names ≠ [] := by simp

namespace NameList

variable (s : NameList) (a : Arrow)

/-- The names in quotes. -/
def args : List Char := joined s.gap (s.names.map fun n => quoted n.text.toList)

/-- `Model::with('r1', ..., 'rn')->get()`. -/
def bare : List Char := written [Call.first s.model "with" s.args, Call.next a "get" []]

theorem args_eq : s.args = joined s.gap ((s.names.map Entry.plain).map (Entry.text s.gap)) := by
  rw [args, List.map_map]
  rfl

/-! ## The names of a bracketed list -/

theorem relationPaths_args : relationPaths s.args = (s.names.map RelationName.text).foldl addPath [] := by
  have hclosures : (s.names.map Entry.plain).filter Entry.isClosure = [] := by
    apply List.filter_eq_nil_iff.2
    intro e he
    obtain ⟨n, -, rfl⟩ := List.mem_map.1 he
    simp [Entry.isClosure]
  have hplain : (s.names.map Entry.plain).filter (fun e => !e.isClosure) = s.names.map Entry.plain := by
    apply List.filter_eq_self.2
    intro e he
    obtain ⟨n, -, rfl⟩ := List.mem_map.1 he
    rfl
  rw [args_eq, relationPaths, plainPaths_joined s.gap_blank, closurePaths_joined s.gap_blank, hclosures, hplain,
    List.map_map]
  rfl

/-- No name of a list has conditions. -/
theorem conditions_of_mem {p : RelationPath} (h : p ∈ relationPaths s.args) : p.conditions = [] := by
  rw [relationPaths_args] at h
  exact conditions_of_mem_foldl_addPath (by simp) p h

/-- **The trees of a bracketed list are those of its names.** -/
theorem ofPaths_relationPaths :
    RelationNode.ofPaths (relationPaths s.args) = RelationNode.ofPaths (s.names.map RelationName.path) := by
  rw [relationPaths_args, RelationNode.ofPaths_foldl_addPath, List.nil_append, List.map_map]
  rfl

/-! ## The shape of bare names -/

theorem isPlain_calls : ∀ c ∈ [Call.first s.model "with" s.args, Call.next a "get" []], c.IsPlain := by
  have hplain : ∀ t ∈ s.names.map fun n => n.text.toList, IsPlainText t := by
    intro t ht
    obtain ⟨n, -, rfl⟩ := List.mem_map.1 ht
    exact n.isPlainText.1
  obtain ⟨hfree, hdecimal⟩ := parenFree_joined s.gap_blank hplain
  rw [List.map_map] at hfree hdecimal
  intro c hc
  rcases List.mem_pair.1 hc with rfl | rfl
  · exact Call.isPlain_first s.model_word (by decide) hfree hdecimal
  · exact Call.isPlain_last a (by decide)

theorem prepare_bare : prepare (s.bare a) = s.bare a :=
  @prepare_written [] _ _ _ s.model_word _ (s.isPlain_calls a)

/-- The call of the model is no other one. -/
theorem search_firstCall {m : String} {ps : List Pattern} (hps : Shape.firstCall m ∈ ps) (hm : m ∈ methods)
    (hne : m ≠ "with") : (chain ps).search (s.bare a) = none := by
  refine search_eq_none_of_firstCall (fun w hw => opens_firstCall hps hw) hm (s.isPlain_calls a) fun c hc hcm => ?_
  rcases List.mem_pair.1 hc with rfl | rfl
  · exact absurd hcm.symm hne
  · exact a.not_colons_suffix

theorem search_find : Shape.find.pattern.search (s.bare a) = none := by
  refine search_eq_none_of_spells fun w hw hspells => ?_
  have hopens : Opens "::find".toList (s.bare a) :=
    (opens_firstCall (m := "find") (by simp) hspells).mono hw
  rw [bare, ← List.append_nil (written _)] at hopens
  rcases link_of_opens (fun c hc => (s.isPlain_calls a c hc).hasOwnParens) (by decide) hopens with ⟨c, hc, hlink⟩ | hnil
  · have hends : ∀ m ∈ ["with", "get"], ¬ "::find".toList <:+ m.toList ∧ ¬ m.toList <:+ "::find".toList := by decide
    have hname : c.name ∈ ["with", "get"] := by
      rcases List.mem_pair.1 hc with rfl | rfl
      · exact List.mem_pair.2 (Or.inl rfl)
      · exact List.mem_pair.2 (Or.inr rfl)
    rcases List.suffix_or_suffix_of_suffix hlink (List.suffix_append c.lead c.name.toList) with h | h
    · exact (hends _ hname).1 h
    · exact (hends _ hname).2 h
  · exact not_opens (by decide) hnil

theorem not_mem_args : '[' ∉ s.args := by
  intro hmem
  rcases mem_joined hmem with ⟨t, ht, hc⟩ | hc | hc
  · obtain ⟨n, -, rfl⟩ := List.mem_map.1 ht
    rcases mem_quotedBy.1 hc with hc | hc
    · cases hc
    · exact absurd (n.isPathChar _ hc) (by decide)
  · cases hc
  · exact absurd (s.gap_blank _ hc) (by decide)

/-- Bare names stand in no bracket. -/
theorem search_closureWith : Shape.closureWith.pattern.search (s.bare a) = none := by
  refine search_eq_none_of_spells fun w hw hspells => ?_
  obtain ⟨u, hu, hbracket⟩ := exists_infix_of_spells_chain (a := char '[') (by simp) hspells
  rw [spells_char] at hbracket
  subst hbracket
  have hmem : '[' ∈ s.bare a := (hu.trans hw).subset (List.mem_singleton_self '[')
  have hmodel : '[' ∉ s.model.toList := fun hc => (ascii_word (s.model_word.2 _ hc)).2.2 (by simp)
  have harrow : '[' ∉ a.text := fun hc => absurd (a.eq_or_isBlank_of_mem hc) (by decide)
  simp [bare, written, Call.text, Call.link, Call.first, Call.next, hmodel, harrow, s.not_mem_args] at hmem

theorem recognize_bare : ∃ m, Shape.recognize? (s.bare a) = some (.withGet, m) ∧ m.group 1 = s.model.toList ∧
    m.group 2 = s.args := by
  have hne : s.args ≠ [] := by
    rw [args]
    cases hnames : s.names with
    | nil => exact absurd hnames s.names_ne
    | cons n names => cases names <;> simp [joined_singleton, joined_cons_cons, quoted, quotedBy]
  have hargs : ∀ c ∈ s.args, (c != ')') = true := by
    intro c hc
    have hfree : ParenFree s.args := (s.isPlain_calls a _ List.mem_cons_self).args
    have hparen : c ≠ ')' := fun hp => hfree.not_mem.2 (hp ▸ hc)
    simpa using hparen
  have htakes : Takes Shape.withGet.pattern none _ [] _ :=
    (takes_model s.model_word (by rfl)).chain_cons <| (takes_firstCall "with").chain_cons <|
      ((takes_some1 hne hargs (by rfl)).group 2).chain_cons <| (takes_char ')').chain_cons <|
      Selection.takes_last (a := a) (by decide)
  obtain ⟨m, hm, htexts⟩ := search_of_takes htakes
  have hsearch : Shape.withGet.pattern.search (s.bare a) = some m := by
    simpa [bare, written, Call.text, Call.link, Call.first, Call.next] using hm
  refine ⟨m, ?_, by rw [m.group_eq, htexts]; rfl, by rw [m.group_eq, htexts]; rfl⟩
  have hcreate : Shape.create.pattern.search (s.bare a) = none :=
    s.search_firstCall a (m := "create") (by simp) (by decide) (by decide)
  have hall : Shape.all.pattern.search (s.bare a) = none :=
    s.search_firstCall a (m := "all") (by simp) (by decide) (by decide)
  have hwhere : ∀ ps, Shape.firstCall "where" ∈ ps → (chain ps).search (s.bare a) = none := fun ps hps =>
    s.search_firstCall a hps (by decide) (by decide)
  have hmultiWhere : Shape.multiWhere.pattern.search (s.bare a) = none := hwhere _ (by simp)
  have hwhereWith : Shape.whereWith.pattern.search (s.bare a) = none := hwhere _ (by simp)
  have hwhereGet : Shape.whereGet.pattern.search (s.bare a) = none := hwhere _ (by simp)
  have hwhereFirst : Shape.whereFirst.pattern.search (s.bare a) = none := hwhere _ (by simp)
  simp [Shape.recognize?, Shape.inOrder, hcreate, hall, s.search_closureWith a, hmultiWhere, hwhereWith, hwhereGet,
    hwhereFirst, s.search_find a, hsearch]

end NameList

end Query

namespace Interpreter

open Query

variable (i : Interpreter) (s : NameList) (a : Arrow) (data : Dataset)

/-- **Bare names are answered** by the rows of the table with the relations of these names attached. -/
theorem interpret_bare : i.interpret (String.ofList (s.bare a)) data =
    .rows (i.attachAll (s.names.map RelationName.path) (i.naming.tableOf s.model) data
      (data.rows (i.naming.tableOf s.model))) := by
  obtain ⟨m, hm, hmodel, hargs⟩ := s.recognize_bare a
  rw [i.interpret_ofList (s.prepare_bare a) hm]
  simp only [dispatch, hmodel, hargs, String.ofList_toList, NameList.args, namedPaths_joined s.gap_blank]

/-- **Names in brackets are answered like bare names**, also where a name stands in the list more than once, and
where some begin with others. -/
theorem interpret_bracketed (a' : Arrow) : i.interpret (String.ofList (bracketed s.model s.args a)) data =
    i.interpret (String.ofList (s.bare a')) data := by
  obtain ⟨m, hm, hmodel, hcontent⟩ := recognize_bracketed (a := a) s.model_word s.gap_blank (s.names.map Entry.plain)
  have hprepare := prepare_bracketed (a := a) s.model_word s.gap_blank (s.names.map Entry.plain)
  rw [← s.args_eq] at hm hcontent hprepare
  have hall : ∀ row : Row, ((relationPaths s.args).filter (!·.conditions.isEmpty)).all
      (pathHasResults row ·.path) = true := by
    intro row
    have hnone : (relationPaths s.args).filter (!·.conditions.isEmpty) = [] :=
      List.filter_eq_nil_iff.2 fun p hp => by simp [s.conditions_of_mem hp]
    rw [hnone]
    rfl
  rw [i.interpret_bare, i.interpret_ofList hprepare hm]
  simp only [dispatch, hmodel, hcontent, String.ofList_toList, withClosures, hall, List.filter_true, attachAll,
    s.ofPaths_relationPaths]

/-- A list that names a relation twice, and the beginning of a path behind the path. -/
theorem interpret_bracketed_brands :
    let i : Interpreter := ⟨.extend .empty .empty, "<now>"⟩
    let brand : Row := ⟨[("id", .int 1)]⟩
    let product : Row := ⟨[("id", .int 7), ("brand_id", .int 1)]⟩
    let data : Dataset := ⟨⟨[("brands", [brand]), ("products", [product])]⟩⟩
    let names : List RelationName :=
      [{ text := "products.brand" }, { text := "products" }, { text := "owner" }, { text := "products" }]
    let s : NameList := { model := "Brand", gap := [' '], names }
    let answer : QueryResult := .rows [⟨[("id", .int 1),
      ("products", .list [.record (product.insert "brand" (.record brand))]), ("owner", .null)]⟩]
    String.ofList (bracketed s.model s.args {}) =
        "Brand::with(['products.brand', 'products', 'owner', 'products'])->get()" ∧
      String.ofList (s.bare {}) = "Brand::with('products.brand', 'products', 'owner', 'products')->get()" ∧
      i.interpret (String.ofList (bracketed s.model s.args {})) data = answer ∧
      i.interpret (String.ofList (s.bare {})) data = answer := by
  intro i brand product data names s answer
  have hbare : i.interpret (String.ofList (s.bare {})) data = answer :=
    (i.interpret_bare s {} data).trans (by decide +kernel)
  exact ⟨by decide +kernel, by decide +kernel, (i.interpret_bracketed s {} data {}).trans hbare, hbare⟩

end Interpreter

end FluentTables
