import FluentTables.Proofs.Query.NameLists
import FluentTables.Proofs.Query.Preparation
import FluentTables.Proofs.Relation.Overlays

/-!
# Where the rows of an answer come from

Attaching relations writes cells of the names at the beginning of the requested paths and leaves every other cell as it
is (`overlays_attach`); the paths that a written statement requests are those of its calls (`requested_selection`,
`requested_eager`, `requested_bare`). Every shape selects rows of the table of its model in their order
(`dispatch_eq_rows`), and the model stands in the text (`mentions_of_search`). So whatever the text, an answer is made
of rows of a table that it names (`answer_of_table`).
-/

namespace FluentTables

/-! ## Names of the trees -/

/-- The first segments of paths. -/
def RelationPath.firstSegments (paths : List RelationPath) : List String :=
  paths.filterMap fun p => (pathSegments p.path).head?

/-- The trees of paths are named for the first segments. -/
theorem RelationNode.name_mem_firstSegments {paths : List RelationPath} {node : RelationNode}
    (h : node ∈ ofPaths paths) : node.name ∈ RelationPath.firstSegments paths := by
  rw [ofPaths_eq_grow] at h
  obtain ⟨names, -, hmem, heq⟩ := grow_eq (paths.map RelationPath.route)
  obtain ⟨s, hs, rfl⟩ := List.mem_map.1 (heq ▸ h)
  obtain ⟨r, hr, hhead⟩ := (hmem s).1 hs
  obtain ⟨p, hp, rfl⟩ := List.mem_map.1 hr
  exact List.mem_filterMap.2 ⟨p, hp, hhead⟩

/-! ## Rows selected -/

namespace Shape

open Pattern

/-- The paths that a statement of a shape asks for. -/
def requestedPaths (shape : Shape) (m : Match) (statement : List Char) : List RelationPath :=
  match shape with
  | closureWith => Query.relationPaths (m.group 2)
  | multiWhere => ((Query.withCall.search statement).map fun call => Query.namedPaths (call.group 1)).getD []
  | whereWith => Query.namedPaths (m.group 3)
  | withGet => Query.namedPaths (m.group 2)
  | _ => []

end Shape

namespace Interpreter

variable (i : Interpreter) {shape : Shape} {m : Pattern.Match} {statement : List Char} {data : Dataset}

/-- Selecting rows keeps their order, and relations are attached to each. -/
theorem selectWith_eq (cs : List Condition) (relations : Option (List Char)) (table : String) (data : Dataset) :
    i.selectWith cs relations table data =
      i.attachAll ((relations.map Query.namedPaths).getD []) table data (Condition.select cs (data.rows table)) := by
  cases relations with
  | none => exact (List.map_id' _).symm
  | some args => rfl

/-- **The rows that a shape answers with** are rows of the table of its model, in their order, with the requested
relations attached. -/
theorem dispatch_eq_rows {rs : List Row} (h : i.dispatch shape m statement data = .rows rs) :
    let table := i.naming.tableOf (String.ofList (m.group 1))
    ∃ source, source.Sublist (data.rows table) ∧
      rs = i.attachAll (shape.requestedPaths m statement) table data source := by
  have hselect : ∀ cs table, (Condition.select cs (data.rows table)).Sublist (data.rows table) :=
    fun cs table => List.filter_sublist
  cases shape <;> simp only [dispatch] at h
  case all =>
    cases h
    exact ⟨_, List.Sublist.refl _, (List.map_id' _).symm⟩
  case closureWith =>
    cases h
    exact ⟨_, List.filter_sublist, List.filter_map⟩
  case multiWhere =>
    split at h
    · next cs _ =>
      cases h
      refine ⟨_, hselect cs _, ?_⟩
      rw [selectWith_eq, Option.map_map]
      rfl
    · cases h
  case whereWith =>
    split at h
    · next c _ =>
      cases h
      exact ⟨_, hselect [c] _, i.selectWith_eq _ _ _ _⟩
    · cases h
  case whereGet =>
    split at h
    · next c _ =>
      cases h
      exact ⟨_, hselect [c] _, i.selectWith_eq _ _ _ _⟩
    · cases h
  case withGet =>
    cases h
    exact ⟨_, List.Sublist.refl _, rfl⟩
  case whereFirst => split at h <;> cases h
  all_goals cases h

/-- **A single row** that a shape answers with is a row of the table of its model. -/
theorem dispatch_eq_single {r : Row} (h : i.dispatch shape m statement data = .single (some r)) :
    r ∈ data.rows (i.naming.tableOf (String.ofList (m.group 1))) := by
  cases shape <;> simp only [dispatch] at h
  case find => exact List.mem_of_find?_eq_some (QueryResult.single.inj h)
  case whereFirst =>
    split at h
    · exact List.mem_of_find?_eq_some (QueryResult.single.inj h)
    · cases h
  case multiWhere | whereWith | whereGet => split at h <;> cases h
  all_goals cases h

theorem overlays_attachAll (paths : List RelationPath) (table : String) (data : Dataset) (rows : List Row) :
    List.Forall₂ (Row.Overlays (RelationPath.firstSegments paths)) rows (i.attachAll paths table data rows) := by
  rw [attachAll, List.forall₂_map_right_iff]
  exact List.forall₂_same.2 fun row _ => i.naming.overlays_attach data
    (fun _ hnode => RelationNode.name_mem_firstSegments hnode) table (Row.overlays_refl _ row)

end Interpreter

/-! ## The model in the text -/

namespace Query

/-- A query names a model: a word in front of two colons. -/
def Mentions (query model : String) : Prop :=
  model ≠ "" ∧ (∀ c ∈ model.toList, Text.isWord c = true) ∧ model.toList ++ "::".toList <:+: query.toList

/-- The names of the cells that the relations requested by a query are put into. -/
def requested (query : String) : List String :=
  let statement := prepare query.toList
  match Shape.recognize? statement with
  | some (shape, m) => RelationPath.firstSegments (shape.requestedPaths m statement)
  | none => []

/-! ### What written statements request -/

theorem requested_ofList {s : List Char} {shape : Shape} {m : Pattern.Match} (hs : prepare s = s)
    (hm : Shape.recognize? s = some (shape, m)) :
    requested (String.ofList s) = RelationPath.firstSegments (shape.requestedPaths m s) := by
  simp only [requested, String.toList_ofList, hs, hm]

/-- A selection requests the relations of its `with` call. -/
theorem requested_selection (s : Selection) (a : Arrow) :
    requested (String.ofList (s.text a "get")) = RelationPath.firstSegments s.paths := by
  have hget : "get" ∈ methods := by decide
  have hprepare : prepare (s.text a "get") = s.text a "get" := s.prepare_text hget
  have hnames : ∀ names, namedPaths (s.nameArgs names) = names.map RelationName.path := fun names =>
    namedPaths_joined s.gap_blank names
  by_cases hclauses : s.clauses = []
  · cases hrelations : s.relations with
    | none =>
      obtain ⟨m, hm, -⟩ := s.recognize_whereGet (a := a) hclauses hrelations
      rw [requested_ofList hprepare hm, Selection.paths, hrelations]
      rfl
    | some r =>
      obtain ⟨m, hm, -, -, hargs⟩ := s.recognize_whereWith (a := a) hclauses hrelations
      rw [requested_ofList hprepare hm, Shape.requestedPaths, hargs, hnames, Selection.paths, hrelations]
      rfl
  · obtain ⟨m, hm, -⟩ := s.recognize_multiWhere (a := a) hclauses
    have hcall := congrArg (Option.map namedPaths) (s.search_withCall_text (a := a) hget (by decide))
    rw [Option.map_map] at hcall
    rw [requested_ofList hprepare hm, Shape.requestedPaths, Selection.paths]
    refine congrArg RelationPath.firstSegments ((congrArg (Option.getD · []) hcall).trans ?_)
    cases s.relations with
    | none => rfl
    | some r => exact hnames r.2

/-- A list in brackets requests its names, with closures or without. -/
theorem requested_eager (s : Eager) (a : Arrow) :
    requested (String.ofList (s.text a)) = RelationPath.firstSegments (entryPaths s.entries) := by
  obtain ⟨m, hm, -, hcontent⟩ := s.recognize (a := a)
  rw [requested_ofList s.prepare_text hm, Shape.requestedPaths, hcontent, Eager.content,
    relationPaths_joined s.gap_blank s.names_nodup]

/-- Bare names request themselves. -/
theorem requested_bare (s : NameList) (a : Arrow) :
    requested (String.ofList (s.bare a)) = RelationPath.firstSegments (s.names.map RelationName.path) := by
  obtain ⟨m, hm, -, hargs⟩ := s.recognize_bare a
  rw [requested_ofList (s.prepare_bare a) hm, Shape.requestedPaths, hargs, NameList.args, namedPaths_joined s.gap_blank]

end Query

namespace Shape

open Pattern Query

/-- Every shape begins with a model and two colons, and no other part of it writes the group of the model. -/
theorem pattern_eq (shape : Shape) : ∃ t ps, shape.pattern = chain (model :: text t :: ps) ∧
    "::".toList <+: t.toList ∧ kept 1 (chain (text t :: ps)) = [] := by
  cases shape <;> exact ⟨_, _, rfl, by decide, by decide⟩

theorem search_of_recognize? {s : List Char} {shape : Shape} {m : Match} (h : recognize? s = some (shape, m)) :
    shape.pattern.search s = some m := by
  obtain ⟨k, -, hk⟩ := List.exists_of_findSome?_eq_some h
  obtain ⟨m', hm', heq⟩ := Option.map_eq_some_iff.1 hk
  cases heq
  exact hm'

/-- **The model of a match stands in the query.** -/
theorem mentions_of_search {shape : Shape} {query : String} {m : Match}
    (h : shape.pattern.search (prepare query.toList) = some m) : Mentions query (String.ofList (m.group 1)) := by
  obtain ⟨t, ps, hpattern, ⟨t', ht⟩, hkept⟩ := shape.pattern_eq
  rw [hpattern, model] at h
  obtain ⟨p, u, v, hs, ⟨hne, hword⟩, ⟨w, rest, rfl, hw, -⟩, hgroup⟩ := group_of_search (by decide) hkept h
  rw [spells_text] at hw
  rw [Mentions, String.toList_ofList, hgroup]
  have hpoint : '.' ∉ u ++ "::".toList := by
    intro hpoint
    rcases List.mem_append.1 hpoint with hpoint | hpoint
    · exact absurd (hword _ hpoint) (by decide)
    · exact absurd hpoint (by decide)
  refine ⟨by simpa using hne, hword, infix_of_infix_prepare hpoint ⟨p, t' ++ rest ++ m.stop.rest, ?_⟩⟩
  rw [hs, hw, ← ht]
  simp only [List.append_assoc]

end Shape

open Query in
/-- **Every answer is made of rows of a table that the query names.** Rows that are answered are some rows of the
table in their order, with nothing written into them but cells of the requested relations; a single row is a row of the
table as it stands. -/
theorem Interpreter.answer_of_table (i : Interpreter) (query : String) (data : Dataset) :
    (∀ rs, i.interpret query data = .rows rs → ∃ model, Mentions query model ∧
      ∃ source, source.Sublist (data.rows (i.naming.tableOf model)) ∧
        List.Forall₂ (Row.Overlays (requested query)) source rs) ∧
    ∀ r, i.interpret query data = .single (some r) →
      ∃ model, Mentions query model ∧ r ∈ data.rows (i.naming.tableOf model) := by
  cases hrecognize : Shape.recognize? (prepare query.toList) with
  | none =>
    have hinterpret : i.interpret query data = .status (.executed (String.ofList (Text.trim query.toList))) := by
      simp only [interpret, hrecognize]
    rw [hinterpret]
    exact ⟨fun _ h => (nomatch h), fun _ h => (nomatch h)⟩
  | some found =>
    obtain ⟨shape, m⟩ := found
    have hinterpret : i.interpret query data = i.dispatch shape m (prepare query.toList) data := by
      simp only [interpret, hrecognize]
    have hmodel : Mentions query (String.ofList (m.group 1)) :=
      Shape.mentions_of_search (Shape.search_of_recognize? hrecognize)
    have hrequested : requested query = RelationPath.firstSegments (shape.requestedPaths m (prepare query.toList)) := by
      simp only [requested, hrecognize]
    rw [hinterpret]
    refine ⟨fun rs h => ⟨_, hmodel, ?_⟩, fun r h => ⟨_, hmodel, i.dispatch_eq_single h⟩⟩
    obtain ⟨source, hsource, rfl⟩ := i.dispatch_eq_rows h
    exact ⟨source, hsource, hrequested ▸ i.overlays_attachAll _ _ data source⟩

/-- Two brands, of which only one has a product that costs more than nine. -/
def pricedProducts : Dataset := ⟨⟨[
  ("brands", [⟨[("id", .int 1), ("products", .null), ("name", .text "one")]⟩, ⟨[("id", .int 2)]⟩]),
  ("products", [⟨[("id", .int 7), ("brand_id", .int 1), ("price", .int 3)]⟩,
    ⟨[("id", .int 8), ("brand_id", .int 1), ("price", .int 12)]⟩])]⟩⟩

open Query in
theorem answer_of_table_pricedProducts :
    let i : Interpreter := ⟨Naming.extend .empty .empty, "2024-01-01 00:00:00"⟩
    let query := "Brand::with(['products' => function ($q) \x7b $q->where('price', '>', 9,5); \x7d])->get()"
    let product : Row := ⟨[("id", .int 8), ("brand_id", .int 1), ("price", .int 12)]⟩
    let brand : Row := ⟨[("id", .int 1), ("products", .list [.record product]), ("name", .text "one")]⟩
    requested query = ["products"] ∧
      (i.interpret query pricedProducts = .rows [brand] ∧ ∃ model, Mentions query model ∧
        ∃ source, source.Sublist (pricedProducts.rows (i.naming.tableOf model)) ∧
          List.Forall₂ (Row.Overlays ["products"]) source [brand]) ∧
      i.interpret "Product::find(8)" pricedProducts = .single (some product) ∧
        ∃ model, Mentions "Product::find(8)" model ∧ product ∈ pricedProducts.rows (i.naming.tableOf model) := by
  intro i query product brand
  have hrequested : requested query = ["products"] := by decide +kernel
  have hrows : i.interpret query pricedProducts = .rows [brand] := by decide +kernel
  have hsingle : i.interpret "Product::find(8)" pricedProducts = .single (some product) := by decide +kernel
  obtain ⟨model, hmodel, source, hsource, hcells⟩ := (i.answer_of_table query pricedProducts).1 _ hrows
  exact ⟨hrequested, ⟨hrows, model, hmodel, source, hsource, hrequested ▸ hcells⟩, hsingle,
    (i.answer_of_table "Product::find(8)" pricedProducts).2 _ hsingle⟩

end FluentTables
