import Mathlib.Data.List.Induction
import Mathlib.Data.List.Nodup
import FluentTables.Relation.Join

/-!
# Rows that lead somewhere

The trees of a list of paths have a node for each first segment, with the conditions of the paths that end there and
the trees of what follows it (`grow_eq`). When no segment names a cell that a join reads, every node attaches what the
row itself is related to (`get?_attach`), and a value with relations attached has results exactly when one of the
rows it was made of leads on (`hasResults_mapRows_fetch`). So after attaching, a path has results iff there is a
chain of related rows along it (`pathHasResults_attach_iff`).
-/

namespace FluentTables

/-! ## Trees by first segments -/

/-- The segments of a path, and the conditions at its end. -/
abbrev Route := List String × List Condition

/-- The route of a path. -/
def RelationPath.route (p : RelationPath) : Route := (pathSegments p.path, p.conditions)

namespace Route

/-- All conditions of routes along the given segments. -/
def conditionsAt (routes : List Route) (segments : List String) : List Condition :=
  routes.flatMap fun r => if r.1 = segments then r.2 else []

/-- What is left of a route behind its first segment, if that is `s` and not the last one. -/
def tail? (s : String) : Route → Option Route
  | (t :: u :: rest, conditions) => if t = s then some (u :: rest, conditions) else none
  | _ => none

/-- The routes behind a first segment. -/
def below (s : String) (routes : List Route) : List Route := routes.filterMap (tail? s)

theorem tail?_eq_some_iff {s : String} {r t : Route} : tail? s r = some t ↔ t.1 ≠ [] ∧ r = (s :: t.1, t.2) := by
  obtain ⟨segments, conditions⟩ := r
  obtain ⟨rest, conditions'⟩ := t
  match segments, rest with
  | [], _ | [_], [] => simp [tail?]
  | [_], _ :: _ => simp [tail?]
  | a :: b :: _, [] => simp [tail?]
  | a :: b :: _, _ :: _ =>
    by_cases ha : a = s
    · simp [tail?, ha]
    · simp [tail?, ha]

theorem mem_below {s : String} {routes : List Route} {t : Route} :
    t ∈ below s routes ↔ t.1 ≠ [] ∧ (s :: t.1, t.2) ∈ routes := by
  rw [below, List.mem_filterMap]
  constructor
  · rintro ⟨r, hr, ht⟩
    obtain ⟨hne, rfl⟩ := tail?_eq_some_iff.1 ht
    exact ⟨hne, hr⟩
  · rintro ⟨hne, hr⟩
    exact ⟨_, hr, tail?_eq_some_iff.2 ⟨hne, rfl⟩⟩

theorem mem_conditionsAt {routes : List Route} {segments : List String} {c : Condition} :
    c ∈ conditionsAt routes segments ↔ ∃ conditions, (segments, conditions) ∈ routes ∧ c ∈ conditions := by
  rw [conditionsAt, List.mem_flatMap]
  constructor
  · rintro ⟨⟨t, cs⟩, hr, hc⟩
    split at hc
    · next h => exact ⟨cs, h ▸ hr, hc⟩
    · cases hc
  · rintro ⟨cs, hr, hc⟩
    exact ⟨_, hr, by simpa using hc⟩

theorem conditionsAt_append (segments : List String) (routes more : List Route) :
    conditionsAt (routes ++ more) segments = conditionsAt routes segments ++ conditionsAt more segments :=
  List.flatMap_append

theorem below_append (s : String) (routes more : List Route) :
    below s (routes ++ more) = below s routes ++ below s more := List.filterMap_append

theorem conditionsAt_singleton (segments : List String) (r : Route) :
    conditionsAt [r] segments = if r.1 = segments then r.2 else [] := by
  simp [conditionsAt]

theorem below_singleton (s : String) (r : Route) : below s [r] = (tail? s r).toList := by
  simp [below, List.filterMap_cons]
  cases tail? s r <;> rfl

/-- Behind a first segment the conditions are those of the whole routes. -/
theorem conditionsAt_below (s t : String) (rest : List String) (routes : List Route) :
    conditionsAt (below s routes) (t :: rest) = conditionsAt routes (s :: t :: rest) := by
  induction routes with
  | nil => rfl
  | cons r routes ih =>
    have hone : conditionsAt (below s [r]) (t :: rest) = conditionsAt [r] (s :: t :: rest) := by
      obtain ⟨segments, conditions⟩ := r
      rw [below_singleton, conditionsAt_singleton]
      match segments with
      | [] | [_] => simp [tail?, conditionsAt]
      | a :: b :: rest' => by_cases ha : a = s <;> simp [conditionsAt, tail?, ha]
    rw [← List.singleton_append, below_append, conditionsAt_append, conditionsAt_append, hone, ih]

end Route

namespace RelationNode

open Route

/-- The trees of routes. -/
def grow (routes : List Route) : List RelationNode :=
  routes.foldl (fun nodes r => insertPath r.2 r.1 nodes) []

theorem ofPaths_eq_grow (paths : List RelationPath) : ofPaths paths = grow (paths.map RelationPath.route) := by
  rw [grow, List.foldl_map]
  rfl

theorem grow_append_singleton (routes : List Route) (r : Route) :
    grow (routes ++ [r]) = insertPath r.2 r.1 (grow routes) := by
  simp [grow]

/-- The node of a first segment. -/
def nodeOf (routes : List Route) (s : String) : RelationNode :=
  ⟨s, conditionsAt routes [s], grow (below s routes)⟩

theorem map_name_nodeOf (routes : List Route) (names : List String) :
    (names.map (nodeOf routes)).map name = names := by
  rw [List.map_map]
  exact List.map_id' names

/-- A node with a route through it added, given by what is left of the route. -/
def extend (conditions : List Condition) : List String → RelationNode → RelationNode
  | [], n => { n with conditions := n.conditions ++ conditions }
  | t :: rest, n => { n with children := insertPath conditions (t :: rest) n.children }

theorem insertPath_cons (conditions : List Condition) (s : String) (rest : List String) (nodes : List RelationNode) :
    insertPath conditions (s :: rest) nodes = alter s (extend conditions rest) nodes := by
  cases rest <;> rfl

/-- A route through the node. -/
theorem nodeOf_append_self (routes : List Route) (s : String) (rest : List String) (conditions : List Condition) :
    nodeOf (routes ++ [(s :: rest, conditions)]) s = extend conditions rest (nodeOf routes s) := by
  unfold nodeOf
  rw [conditionsAt_append, below_append, conditionsAt_singleton, below_singleton]
  cases rest with
  | nil => simp [extend, tail?]
  | cons t rest => simp [extend, tail?, grow_append_singleton]

/-- A route past the node. -/
theorem nodeOf_append_ne (routes : List Route) {s : String} {r : Route} (h : r.1.head? ≠ some s) :
    nodeOf (routes ++ [r]) s = nodeOf routes s := by
  obtain ⟨segments, conditions⟩ := r
  unfold nodeOf
  rw [conditionsAt_append, below_append, conditionsAt_singleton, below_singleton]
  match segments with
  | [] => simp [tail?]
  | [a] => simp_all [tail?]
  | a :: b :: _ => simp_all [tail?]

/-- A node that no route goes through. -/
theorem nodeOf_eq_empty {routes : List Route} {s : String} (h : ∀ r ∈ routes, r.1.head? ≠ some s) :
    nodeOf routes s = { name := s } := by
  have hconditions : conditionsAt routes [s] = [] := by
    refine List.eq_nil_iff_forall_not_mem.2 fun c hc => ?_
    obtain ⟨cs, hr, -⟩ := mem_conditionsAt.1 hc
    exact h _ hr rfl
  have hbelow : below s routes = [] :=
    List.eq_nil_iff_forall_not_mem.2 fun t ht => h _ (mem_below.1 ht).2 rfl
  rw [nodeOf, hconditions, hbelow]
  rfl

/-- Names with one more at the end, unless it is there. -/
def addName (names : List String) (s : String) : List String := if s ∈ names then names else names ++ [s]

theorem mem_addName {names : List String} {s t : String} : t ∈ addName names s ↔ t ∈ names ∨ t = s := by
  unfold addName
  split
  · next h => exact ⟨Or.inl, fun ht => ht.elim id fun hts => hts ▸ h⟩
  · simp

theorem nodup_addName {names : List String} (h : names.Nodup) (s : String) : (addName names s).Nodup := by
  unfold addName
  split
  · exact h
  · next hs => exact List.nodup_append.2 ⟨h, by simp, by rintro a ha b hb rfl; simp_all⟩

/-- Among nodes of distinct names the one of a name is changed, or a new one is added. -/
theorem alter_map {g h : String → RelationNode} {f : RelationNode → RelationNode} {s : String} {names : List String}
    (hname : ∀ t, (g t).name = t) (hother : ∀ t, t ≠ s → h t = g t) (hold : s ∈ names → h s = f (g s))
    (hnew : s ∉ names → h s = f { name := s }) (hnodup : names.Nodup) :
    alter s f (names.map g) = (addName names s).map h := by
  unfold addName
  induction names with
  | nil => simp [alter, hnew]
  | cons t names ih =>
    rw [List.nodup_cons] at hnodup
    rw [List.map_cons, alter, hname]
    by_cases hts : t = s
    · subst hts
      have hrest : names.map h = names.map g :=
        List.map_congr_left fun u hu => hother u fun hut => hnodup.1 (hut ▸ hu)
      rw [if_pos rfl, if_pos List.mem_cons_self, List.map_cons, hrest, hold List.mem_cons_self]
    · rw [if_neg hts, ih (fun hmem => hold (List.mem_cons_of_mem t hmem))
        (fun hmem => hnew (by simp [hmem, Ne.symm hts])) hnodup.2]
      by_cases hmem : s ∈ names
      · simp [hmem, hother t hts]
      · simp [hmem, Ne.symm hts, hother t hts]

/-- **The trees of routes**: a node for each first segment, with the conditions of the routes that end there and the
trees of what lies behind it. -/
theorem grow_eq (routes : List Route) : ∃ names : List String, names.Nodup ∧
    (∀ s, s ∈ names ↔ ∃ r ∈ routes, r.1.head? = some s) ∧ grow routes = names.map (nodeOf routes) := by
  induction routes using List.reverseRecOn with
  | nil => exact ⟨[], List.nodup_nil, by simp, rfl⟩
  | append_singleton routes r ih =>
    obtain ⟨names, hnodup, hmem, heq⟩ := ih
    obtain ⟨segments, conditions⟩ := r
    rw [grow_append_singleton, heq]
    cases segments with
    | nil =>
      refine ⟨names, hnodup, fun s => by simp [hmem, or_and_right, exists_or], ?_⟩
      exact List.map_congr_left fun s _ => (nodeOf_append_ne routes (by simp)).symm
    | cons s rest =>
      refine ⟨addName names s, nodup_addName hnodup s, fun t => ?_, ?_⟩
      · simp [mem_addName, hmem, or_and_right, exists_or, eq_comm]
      · rw [insertPath_cons]
        refine alter_map (fun _ => rfl) (fun t ht => nodeOf_append_ne routes (by simpa using ht.symm))
          (fun _ => nodeOf_append_self routes s rest conditions) (fun hs => ?_) hnodup
        rw [nodeOf_append_self, nodeOf_eq_empty fun r hr hrs => hs ((hmem s).2 ⟨r, hr, hrs⟩)]

/-- A route that is there already adds nothing but its conditions. -/
theorem insertPath_of_mem {routes : List Route} {segments : List String} {conditions : List Condition}
    (h : (segments, conditions) ∈ routes) : insertPath [] segments (grow routes) = grow routes := by
  induction segments generalizing routes with
  | nil => rfl
  | cons s rest ih =>
    obtain ⟨names, hnodup, hmem, heq⟩ := grow_eq routes
    have hs : s ∈ names := (hmem s).2 ⟨_, h, rfl⟩
    have hnode : extend [] rest (nodeOf routes s) = nodeOf routes s := by
      cases rest with
      | nil => simp [extend, nodeOf]
      | cons t rest =>
        have hbelow : (t :: rest, conditions) ∈ below s routes := mem_below.2 ⟨List.cons_ne_nil t rest, h⟩
        have htrees : insertPath [] (t :: rest) (grow (below s routes)) = grow (below s routes) := ih hbelow
        simp only [extend, nodeOf, htrees]
    rw [heq, insertPath_cons, alter_map (fun _ => rfl) (fun _ _ => rfl) (fun _ => hnode.symm) (absurd hs) hnodup,
      addName, if_pos hs]

end RelationNode

/-! ## Related rows -/

/-- A row that a relation leads to: where there may be many, any row that points at the id and meets the conditions;
otherwise the first row that is pointed at, whatever the conditions. -/
def RelationSpec.Related (spec : RelationSpec) (data : Dataset) (conditions : List Condition) (row r : Row) : Prop :=
  match spec.kind with
  | .hasMany => r ∈ data.rows spec.table ∧
      (∃ id, cellKey? row "id" = some id ∧ cellKey? r spec.joinKey = some id) ∧ ∀ c ∈ conditions, c.holds r = true
  | .belongsTo => ∃ target, cellKey? row spec.joinKey = some target ∧
      (data.rows spec.table).find? (fun r => (r.get? "id").any (·.key == target)) = some r

/-- A row leads on along segments. -/
def leadsOn : List String → Row → Bool
  | [], _ => true
  | s :: rest, row => (row.get? s).any (Value.hasResults rest)

theorem pathHasResults_eq (row : Row) {path : String} (h : pathSegments path ≠ []) :
    pathHasResults row path = leadsOn (pathSegments path) row := by
  unfold pathHasResults
  cases hs : pathSegments path with
  | nil => exact absurd hs h
  | cons s rest => rfl

theorem hasResults_record (segments : List String) (r : Row) :
    Value.hasResults segments (.record r) = leadsOn segments r := by
  cases segments <;> simp [Value.hasResults, leadsOn, Value.isEmptyRelation]

theorem hasResults_null (segments : List String) : Value.hasResults segments .null = false := by
  cases segments <;> rfl

theorem hasResults_ofRows (segments : List String) (rows : List Row) :
    Value.hasResults segments (.ofRows rows) = rows.any (leadsOn segments) := by
  cases segments with
  | nil => cases rows <;> simp [Value.ofRows, Value.hasResults, Value.isEmptyRelation, leadsOn]
  | cons s rest =>
    simp only [Value.ofRows, Value.hasResults, List.any_map]
    rfl

theorem mapRows_ofRows (f : Row → Row) (rows : List Row) :
    (Value.ofRows rows).mapRows f = .ofRows (rows.map f) := by
  simp [Value.ofRows, Value.mapRows]

/-- **The rows of a relation, changed one by one, lead on** iff one of the related rows does. -/
theorem hasResults_mapRows_fetch (spec : RelationSpec) (data : Dataset) (conditions : List Condition) (row : Row)
    (f : Row → Row) (segments : List String) :
    Value.hasResults segments ((spec.fetch row data conditions).mapRows f) = true ↔
      ∃ r, spec.Related data conditions row r ∧ leadsOn segments (f r) = true := by
  unfold RelationSpec.fetch RelationSpec.Related
  cases spec.kind with
  | hasMany =>
    dsimp only
    cases hid : cellKey? row "id" with
    | none =>
      show Value.hasResults segments (.ofRows []) = true ↔ _
      simp [hasResults_ofRows]
    | some id =>
      dsimp only
      rw [mapRows_ofRows, hasResults_ofRows]
      simp [Condition.allHold, and_assoc]
  | belongsTo =>
    dsimp only
    cases cellKey? row spec.joinKey with
    | none => simp [Value.mapRows, hasResults_null]
    | some target =>
      dsimp only
      cases hfind : (data.rows spec.table).find? fun r => (r.get? "id").any (·.key == target) with
      | none => simp [Value.mapRows, hasResults_null, hfind]
      | some r => simp [Value.mapRows, hasResults_record, hfind]

/-- A join reads two cells of the row it starts from. -/
theorem RelationSpec.fetch_congr (spec : RelationSpec) (data : Dataset) (conditions : List Condition) {row row' : Row}
    (hid : row.get? "id" = row'.get? "id") (hkey : row.get? spec.joinKey = row'.get? spec.joinKey) :
    spec.fetch row data conditions = spec.fetch row' data conditions := by
  unfold RelationSpec.fetch cellKey?
  rw [hid, hkey]

/-! ## Attaching -/

namespace Naming

variable (n : Naming) (data : Dataset)

mutual

/-- The join keys of a node and of the trees under it. -/
def nodeJoinKeys : RelationNode → String → List String
  | ⟨name, _, children⟩, owner =>
    let spec := n.spec name owner data
    spec.joinKey :: joinKeys children spec.table

/-- The join keys of trees that are attached to rows of a table. -/
def joinKeys : List RelationNode → String → List String
  | [], _ => []
  | node :: r, owner => nodeJoinKeys node owner ++ joinKeys r owner

end

/-- A chain of related rows along segments, from a row of the table `owner` to `last`. The conditions are given by the
segments from here on. -/
inductive Chain : (conditions : List String → List Condition) → (owner : String) → Row → List String → Row → Prop
  | nil {conditions : List String → List Condition} {owner : String} {row : Row} : Chain conditions owner row [] row
  | cons {conditions : List String → List Condition} {owner s : String} {row r last : Row} {rest : List String} :
      (n.spec s owner data).Related data (conditions [s]) row r →
      Chain (fun segments => conditions (s :: segments)) (n.spec s owner data).table r rest last →
      Chain conditions owner row (s :: rest) last

variable {n data}

theorem mem_joinKeys {node : RelationNode} {nodes : List RelationNode} (h : node ∈ nodes) {owner k : String}
    (hk : k ∈ n.nodeJoinKeys data node owner) : k ∈ n.joinKeys data nodes owner := by
  induction nodes with
  | nil => cases h
  | cons m nodes ih =>
    rw [joinKeys, List.mem_append]
    rcases List.mem_cons.1 h with rfl | h
    · exact Or.inl hk
    · exact Or.inr (ih h)

/-- The cell that a node attaches. -/
def cellOf (n : Naming) (data : Dataset) (owner : String) (row : Row) (node : RelationNode) : Value :=
  ((n.spec node.name owner data).fetch row data node.conditions).mapRows
    (n.attach data node.children (n.spec node.name owner data).table)

theorem attach_cons (node : RelationNode) (nodes : List RelationNode) (owner : String) (row : Row) :
    n.attach data (node :: nodes) owner row =
      n.attach data nodes owner (row.insert node.name (n.cellOf data owner row node)) := by
  obtain ⟨name, conditions, children⟩ := node
  rw [attach, attachNode]
  rfl

theorem get?_attach_of_not_mem {nodes : List RelationNode} {s : String} (h : s ∉ nodes.map RelationNode.name)
    (owner : String) (row : Row) : (n.attach data nodes owner row).get? s = row.get? s := by
  induction nodes generalizing row with
  | nil => rfl
  | cons node nodes ih =>
    rw [List.map_cons, List.mem_cons, not_or] at h
    rw [attach_cons, ih h.2, OrderedMap.get?_insert_ne _ (Ne.symm h.1)]

/-- **A node attaches what the row is related to**, if no node writes a cell that the join of another one reads. -/
theorem get?_attach {nodes : List RelationNode} {owner : String} (hnodup : (nodes.map RelationNode.name).Nodup)
    (hfree : ∀ a ∈ nodes, ∀ b ∈ nodes, a.name ≠ b.name → a.name ≠ "id" ∧ a.name ≠ (n.spec b.name owner data).joinKey)
    {node : RelationNode} (hnode : node ∈ nodes) (row : Row) :
    (n.attach data nodes owner row).get? node.name = some (n.cellOf data owner row node) := by
  induction nodes generalizing row with
  | nil => cases hnode
  | cons a nodes ih =>
    rw [List.map_cons, List.nodup_cons] at hnodup
    rw [attach_cons]
    rcases List.mem_cons.1 hnode with rfl | hmem
    · rw [get?_attach_of_not_mem hnodup.1, OrderedMap.get?_insert_self]
    · rw [ih hnodup.2 (fun b hb c hc => hfree b (List.mem_cons_of_mem a hb) c (List.mem_cons_of_mem a hc)) hmem]
      -- The cell written by `a` is not read by `node`.
      have hne : a.name ≠ node.name := fun heq => hnodup.1 (List.mem_map.2 ⟨node, hmem, heq.symm⟩)
      obtain ⟨hid, hkey⟩ := hfree a List.mem_cons_self node hnode hne
      unfold cellOf
      rw [RelationSpec.fetch_congr _ data _ (OrderedMap.get?_insert_ne row hid _)
        (OrderedMap.get?_insert_ne row hkey _)]

/-- A chain reads the conditions at its own segments only. -/
theorem Chain.congr {conditions conditions' : List String → List Condition} {owner : String} {row last : Row}
    {segments : List String} (h : n.Chain data conditions owner row segments last)
    (heq : ∀ s rest, conditions (s :: rest) = conditions' (s :: rest)) :
    n.Chain data conditions' owner row segments last := by
  induction h generalizing conditions' with
  | nil => exact .nil
  | cons hrel _ ih => exact .cons (heq _ [] ▸ hrel) (ih fun s rest => heq _ (s :: rest))

section Free

open RelationNode Route

variable {routes : List Route} {owner s : String}
  (hfree : ∀ r ∈ routes, ∀ s ∈ r.1, s ≠ "id" ∧ s ∉ n.joinKeys data (grow routes) owner)

include hfree in
/-- A name in the trees is a segment, and the trees have the keys of their nodes. -/
theorem name_free {a b : RelationNode} (ha : a ∈ grow routes) (hb : b ∈ grow routes) :
    a.name ≠ "id" ∧ a.name ≠ (n.spec b.name owner data).joinKey := by
  obtain ⟨names, -, hmem, heq⟩ := grow_eq routes
  obtain ⟨s, hs, rfl⟩ := List.mem_map.1 (heq ▸ ha)
  obtain ⟨⟨segments, conditions⟩, hr, hhead⟩ := (hmem s).1 hs
  obtain ⟨hid, hkeys⟩ := hfree _ hr s (List.mem_of_mem_head? hhead)
  refine ⟨hid, fun hkey => hkeys (mem_joinKeys hb ?_)⟩
  obtain ⟨bname, bconditions, bchildren⟩ := b
  rw [show s = _ from hkey, nodeJoinKeys]
  exact List.mem_cons_self

include hfree in
/-- Behind a node the keys are keys of the whole trees, and the segments are segments of whole routes. -/
theorem below_free (hnode : nodeOf routes s ∈ grow routes) : ∀ r ∈ below s routes, ∀ t ∈ r.1,
    t ≠ "id" ∧ t ∉ n.joinKeys data (grow (below s routes)) (n.spec s owner data).table := by
  intro r hr t ht
  obtain ⟨hid, hkeys⟩ := hfree _ (mem_below.1 hr).2 t (List.mem_cons_of_mem s ht)
  refine ⟨hid, fun hkey => hkeys (mem_joinKeys hnode ?_)⟩
  rw [nodeOf, nodeJoinKeys]
  exact List.mem_cons_of_mem _ hkey

end Free

open RelationNode Route in
/-- After attaching the trees of routes, a row leads on along one of them iff there is a chain along it. -/
theorem leadsOn_attach_iff {routes : List Route} {owner : String}
    (hfree : ∀ r ∈ routes, ∀ s ∈ r.1, s ≠ "id" ∧ s ∉ n.joinKeys data (grow routes) owner) {segments : List String}
    (hseg : segments = [] ∨ ∃ conditions, (segments, conditions) ∈ routes) (row : Row) :
    leadsOn segments (n.attach data (grow routes) owner row) = true ↔
      ∃ last, n.Chain data (conditionsAt routes) owner row segments last := by
  induction segments generalizing routes owner row with
  | nil => exact ⟨fun _ => ⟨row, .nil⟩, fun _ => rfl⟩
  | cons s rest ih =>
    obtain ⟨conditions, hroute⟩ := hseg.resolve_left (by simp)
    obtain ⟨names, hnodup, hmem, heq⟩ := grow_eq routes
    have hs : s ∈ names := (hmem s).2 ⟨_, hroute, rfl⟩
    have hnames : (grow routes).map RelationNode.name = names := by rw [heq, map_name_nodeOf]
    have hnode : nodeOf routes s ∈ grow routes := heq ▸ List.mem_map_of_mem hs
    have hrest : rest = [] ∨ ∃ conditions, (rest, conditions) ∈ below s routes := by
      by_cases hr : rest = []
      · exact Or.inl hr
      · exact Or.inr ⟨conditions, mem_below.2 ⟨hr, hroute⟩⟩
    have hcell : (n.attach data (grow routes) owner row).get? s = some (n.cellOf data owner row (nodeOf routes s)) :=
      get?_attach (hnames ▸ hnodup) (fun a ha b hb _ => name_free hfree ha hb) hnode row
    have hchain : ∀ r last, n.Chain data (conditionsAt (below s routes)) (n.spec s owner data).table r rest last ↔
        n.Chain data (fun segments => conditionsAt routes (s :: segments)) (n.spec s owner data).table r rest last :=
      fun r last => ⟨fun h => h.congr fun t u => conditionsAt_below s t u routes,
        fun h => h.congr fun t u => (conditionsAt_below s t u routes).symm⟩
    rw [leadsOn, hcell, Option.any_some, cellOf, hasResults_mapRows_fetch]
    constructor
    · rintro ⟨r, hrel, hr⟩
      obtain ⟨last, hlast⟩ := (ih (below_free hfree hnode) hrest r).1 hr
      exact ⟨last, .cons hrel ((hchain r last).1 hlast)⟩
    · rintro ⟨last, hlast⟩
      cases hlast with
      | cons hrel hlast =>
        exact ⟨_, hrel, (ih (below_free hfree hnode) hrest _).2 ⟨last, (hchain _ last).2 hlast⟩⟩

/-- **A path has results iff a chain of related rows goes along it**: after the trees of a list of paths have been
attached to a row, where no segment is `id` or a join key of the trees, and for each of the paths that has segments.
At every relation to many rows the chain meets all conditions that are listed for the segments up to there. -/
theorem pathHasResults_attach_iff {paths : List RelationPath} {owner : String}
    (hfree : ∀ p ∈ paths, ∀ s ∈ pathSegments p.path,
      s ≠ "id" ∧ s ∉ n.joinKeys data (RelationNode.ofPaths paths) owner)
    {p : RelationPath} (hp : p ∈ paths) (hne : pathSegments p.path ≠ []) (row : Row) :
    pathHasResults (n.attach data (RelationNode.ofPaths paths) owner row) p.path = true ↔
      ∃ last, n.Chain data (Route.conditionsAt (paths.map RelationPath.route)) owner row (pathSegments p.path) last := by
  rw [RelationNode.ofPaths_eq_grow] at hfree ⊢
  rw [pathHasResults_eq _ hne]
  refine leadsOn_attach_iff ?_ (Or.inr ⟨p.conditions, List.mem_map.2 ⟨p, hp, rfl⟩⟩) row
  intro r hr s hs
  obtain ⟨q, hq, rfl⟩ := List.mem_map.1 hr
  exact hfree q hq s hs

/-- A brand with a cheap and a dear product, of which only the dear one has a supplier that is there. -/
def suppliedProducts : Dataset := ⟨⟨[
  ("products", [⟨[("id", .int 7), ("brand_id", .text "1"), ("price", .int 3), ("supplier_id", .int 8)]⟩,
    ⟨[("id", .int 8), ("brand_id", .int 1), ("price", .text "12"), ("supplier_id", .int 9)]⟩]),
  ("suppliers", [⟨[("id", .float (.ofInt 9))]⟩])]⟩⟩

theorem pathHasResults_attach_iff_suppliedProducts :
    let n := Naming.extend .empty .empty
    let paths : List RelationPath := [⟨"products.supplier", []⟩, ⟨"products", [⟨"price", .gt, .text "5"⟩]⟩]
    let brand : Row := ⟨[("id", .int 1)]⟩
    ((∀ p ∈ paths, ∀ s ∈ pathSegments p.path,
        s ≠ "id" ∧ s ∉ n.joinKeys suppliedProducts (RelationNode.ofPaths paths) "brands") ∧
      ⟨"products.supplier", []⟩ ∈ paths ∧ pathSegments "products.supplier" ≠ []) ∧
      pathHasResults (n.attach suppliedProducts (RelationNode.ofPaths paths) "brands" brand) "products.supplier" =
        true ∧
      ∃ last, n.Chain suppliedProducts (Route.conditionsAt (paths.map RelationPath.route)) "brands" brand
        ["products", "supplier"] last := by
  intro n paths brand
  have hfree : ∀ p ∈ paths, ∀ s ∈ pathSegments p.path,
      s ≠ "id" ∧ s ∉ n.joinKeys suppliedProducts (RelationNode.ofPaths paths) "brands" := by decide +kernel
  have hmem : (⟨"products.supplier", []⟩ : RelationPath) ∈ paths := List.mem_cons_self
  have hresults : pathHasResults (n.attach suppliedProducts (RelationNode.ofPaths paths) "brands" brand)
      "products.supplier" = true := by decide +kernel
  exact ⟨⟨hfree, hmem, by decide⟩, hresults,
    (pathHasResults_attach_iff hfree hmem (by decide) brand).1 hresults⟩

end Naming

end FluentTables
