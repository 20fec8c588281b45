import Mathlib.Data.List.Perm.Basic
import FluentTables.Proofs.Relation.Existence

/-!
# Trees as merged paths

What the trees of a list of paths are is said without the way they are built: names lead to a node iff they begin a
path, a node has the conditions of the paths that end at it, and nodes that stand side by side have different names
and the order in which the list comes to them (`Merges`). All of this is seen at the roots and, for the paths behind
each root, under it (`merges_iff`). So it holds of the trees that are built path by path, and of no others
(`merges_ofPaths_iff`).
-/

namespace FluentTables

/-! ## The first path along names -/

/-- Among what a list gives, one thing comes before another iff it does so in the list. -/
theorem findIdx_filterMap_lt_iff {α β : Type} (f : α → Option β) (p q : β → Bool) (l : List α) :
    (l.filterMap f).findIdx p < (l.filterMap f).findIdx q ↔
      l.findIdx (fun x => (f x).any p) < l.findIdx fun x => (f x).any q := by
  induction l with
  | nil => simp
  | cons x l ih =>
    cases hx : f x with
    | none => simp [hx, List.findIdx_cons, ih]
    | some y =>
      rw [List.filterMap_cons_some hx]
      simp only [List.findIdx_cons, hx, Option.any_some]
      cases p y <;> cases q y <;> simp [ih]

theorem singleton_prefix_iff {α : Type} {a : α} {l : List α} : [a] <+: l ↔ l.head? = some a := by
  cases l with
  | nil => simp
  | cons b l => simp [eq_comm]

namespace Route

/-- The place of the first route along names. -/
def firstPlace (routes : List Route) (names : List String) : Nat := routes.findIdx fun r => decide (names <+: r.1)

variable {routes : List Route} {s : String} {names names' : List String}

theorem firstPlace_lt_length_iff : firstPlace routes names < routes.length ↔ ∃ r ∈ routes, names <+: r.1 := by
  simp [firstPlace, List.findIdx_lt_length]

/-- What is added at the end does not change the place of what is there. -/
theorem firstPlace_append (h : ∃ r ∈ routes, names <+: r.1) (more : List Route) :
    firstPlace (routes ++ more) names = firstPlace routes names := by
  have hlt := firstPlace_lt_length_iff.2 h
  unfold firstPlace at hlt ⊢
  rw [List.findIdx_append, if_pos hlt]

theorem length_le_firstPlace_append (h : ¬∃ r ∈ routes, names <+: r.1) (more : List Route) :
    routes.length ≤ firstPlace (routes ++ more) names := by
  have hlt := mt firstPlace_lt_length_iff.1 h
  unfold firstPlace at hlt ⊢
  rw [List.findIdx_append, if_neg hlt]
  omega

/-- A route behind its first segment goes along names iff the whole route does. -/
theorem any_tail?_eq (hne : names ≠ []) (r : Route) :
    ((tail? s r).any fun t => decide (names <+: t.1)) = decide (s :: names <+: r.1) := by
  obtain ⟨segments, conditions⟩ := r
  obtain ⟨name, names, rfl⟩ := List.exists_cons_of_ne_nil hne
  match segments with
  | [] | [_] => simp [tail?]
  | a :: b :: rest =>
    by_cases ha : a = s
    · simp [tail?, ha]
    · simp [tail?, ha, Ne.symm ha]

/-- Behind a first segment the order is that of the whole routes. -/
theorem firstPlace_below_lt_iff (h : names ≠ []) (h' : names' ≠ []) :
    firstPlace (below s routes) names < firstPlace (below s routes) names' ↔
      firstPlace routes (s :: names) < firstPlace routes (s :: names') := by
  unfold firstPlace below
  rw [findIdx_filterMap_lt_iff]
  simp only [any_tail?_eq h, any_tail?_eq h']

theorem exists_below_iff (hne : names ≠ []) :
    (∃ t ∈ below s routes, names <+: t.1) ↔ ∃ r ∈ routes, s :: names <+: r.1 := by
  constructor
  · rintro ⟨t, ht, hpre⟩
    exact ⟨_, (mem_below.1 ht).2, List.cons_prefix_cons.2 ⟨rfl, hpre⟩⟩
  · rintro ⟨⟨segments, conditions⟩, hr, hpre⟩
    obtain ⟨rest, rfl⟩ := hpre
    refine ⟨(names ++ rest, conditions), mem_below.2 ⟨by simp [hne], hr⟩, List.prefix_append names rest⟩

end Route

namespace RelationNode

open Route

/-! ## Nodes and the names that lead to them -/

/-- The nodes that stand side by side below names: the roots below none, and the children of a node below the names
that lead to it. -/
inductive Siblings : List RelationNode → List String → List RelationNode → Prop
  | roots {trees : List RelationNode} : Siblings trees [] trees
  | under {trees level : List RelationNode} {node : RelationNode} {above : List String} :
      node ∈ trees → Siblings node.children above level → Siblings trees (node.name :: above) level

/-- Names lead from a root to a node, which has the last of them. -/
def LeadsTo (trees : List RelationNode) (names : List String) (node : RelationNode) : Prop :=
  ∃ above level, Siblings trees above level ∧ node ∈ level ∧ names = above ++ [node.name]

variable {routes : List Route} {trees level : List RelationNode} {node root : RelationNode} {s : String}
  {above names : List String}

theorem siblings_nil_iff : Siblings trees [] level ↔ level = trees := by
  constructor
  · rintro ⟨⟩
    rfl
  · rintro rfl
    exact .roots

theorem siblings_cons_iff :
    Siblings trees (s :: above) level ↔ ∃ root ∈ trees, root.name = s ∧ Siblings root.children above level := by
  constructor
  · rintro ⟨⟩
    next root hroot h => exact ⟨root, hroot, rfl, h⟩
  · rintro ⟨root, hroot, rfl, h⟩
    exact .under hroot h

theorem LeadsTo.ne_nil (h : LeadsTo trees names node) : names ≠ [] := by
  obtain ⟨above, level, -, -, rfl⟩ := h
  simp

theorem leadsTo_singleton_iff : LeadsTo trees [s] node ↔ node ∈ trees ∧ node.name = s := by
  constructor
  · rintro ⟨above, level, hlevel, hnode, hnames⟩
    obtain ⟨rfl, rfl⟩ : above = [] ∧ s = node.name := by
      cases above with
      | nil => simpa using hnames
      | cons a above => simp at hnames
    rw [siblings_nil_iff.1 hlevel] at hnode
    exact ⟨hnode, rfl⟩
  · rintro ⟨hnode, rfl⟩
    exact ⟨[], trees, .roots, hnode, rfl⟩

theorem leadsTo_cons_iff (hne : names ≠ []) :
    LeadsTo trees (s :: names) node ↔ ∃ root ∈ trees, root.name = s ∧ LeadsTo root.children names node := by
  constructor
  · rintro ⟨above, level, hlevel, hnode, hnames⟩
    cases above with
    | nil =>
      rw [List.nil_append, List.cons.injEq] at hnames
      exact absurd hnames.2 hne
    | cons a above =>
      rw [List.cons_append, List.cons.injEq] at hnames
      obtain ⟨rfl, rfl⟩ := hnames
      obtain ⟨root, hroot, hname, hlevel⟩ := siblings_cons_iff.1 hlevel
      exact ⟨root, hroot, hname, above, level, hlevel, hnode, rfl⟩
  · rintro ⟨root, hroot, rfl, above, level, hlevel, hnode, rfl⟩
    exact ⟨root.name :: above, level, .under hroot hlevel, hnode, rfl⟩

/-- From a root that no other has the name of, names lead on as they do from its children. -/
theorem leadsTo_root_iff (hnodup : (trees.map name).Nodup) (hroot : root ∈ trees) (hne : names ≠ []) :
    LeadsTo trees (root.name :: names) node ↔ LeadsTo root.children names node := by
  rw [leadsTo_cons_iff hne]
  constructor
  · rintro ⟨other, hother, hname, hnode⟩
    rwa [List.inj_on_of_nodup_map hnodup hother hroot hname] at hnode
  · exact fun hnode => ⟨root, hroot, rfl, hnode⟩

/-! ## Merged routes -/

/-- Trees in which routes are merged. -/
structure Merges (routes : List Route) (trees : List RelationNode) : Prop where
  /-- Nodes that stand side by side have different names. -/
  distinct : ∀ {above level}, Siblings trees above level → (level.map name).Nodup
  /-- Names lead to a node iff they begin a route. -/
  leads_iff : ∀ {names}, (∃ node, LeadsTo trees names node) ↔ names ≠ [] ∧ ∃ r ∈ routes, names <+: r.1
  /-- A node has the conditions of all routes that end there, in the order of the routes. -/
  conditions_eq : ∀ {names node}, LeadsTo trees names node → node.conditions = conditionsAt routes names
  /-- Nodes that stand side by side are in the order in which the routes come to them. -/
  ordered : ∀ {above level}, Siblings trees above level →
    level.Pairwise fun a b => firstPlace routes (above ++ [a.name]) < firstPlace routes (above ++ [b.name])

/-- What merged routes are at the roots. -/
structure MergesAtRoots (routes : List Route) (trees : List RelationNode) : Prop where
  mem_iff : ∀ {s}, s ∈ trees.map name ↔ ∃ r ∈ routes, r.1.head? = some s
  ordered : (trees.map name).Pairwise fun s t => firstPlace routes [s] < firstPlace routes [t]
  conditions_eq : ∀ {root}, root ∈ trees → root.conditions = conditionsAt routes [root.name]

theorem MergesAtRoots.nodup (h : MergesAtRoots routes trees) : (trees.map name).Nodup := by
  refine h.ordered.imp ?_
  rintro s t hlt rfl
  exact Nat.lt_irrefl _ hlt

theorem Merges.roots (h : Merges routes trees) : MergesAtRoots routes trees where
  mem_iff {s} := by
    have hs : (∃ node, LeadsTo trees [s] node) ↔ [s] ≠ [] ∧ ∃ r ∈ routes, [s] <+: r.1 := h.leads_iff
    simp only [leadsTo_singleton_iff, singleton_prefix_iff] at hs
    simpa using hs
  ordered := List.pairwise_map.2 (h.ordered .roots)
  conditions_eq hroot := h.conditions_eq (leadsTo_singleton_iff.2 ⟨hroot, rfl⟩)

/-- Under a root the routes behind its name are merged. -/
theorem Merges.under (h : Merges routes trees) (hroot : root ∈ trees) :
    Merges (below root.name routes) root.children where
  distinct hlevel := h.distinct (.under hroot hlevel)
  leads_iff {names} := by
    by_cases hne : names = []
    · exact ⟨fun ⟨_, hnode⟩ => absurd hne hnode.ne_nil, fun hbelow => absurd hne hbelow.1⟩
    · simp only [← leadsTo_root_iff h.roots.nodup hroot hne]
      rw [h.leads_iff, exists_below_iff hne]
      simp [hne]
  conditions_eq {names node} hnode := by
    obtain ⟨s, names, rfl⟩ := List.exists_cons_of_ne_nil hnode.ne_nil
    rw [conditionsAt_below]
    exact h.conditions_eq ((leadsTo_root_iff h.roots.nodup hroot (List.cons_ne_nil s names)).2 hnode)
  ordered hlevel := (h.ordered (.under hroot hlevel)).imp fun hlt =>
    (firstPlace_below_lt_iff (by simp) (by simp)).2 hlt

/-- **Merging from the roots on**: routes are merged in trees iff they are at the roots, and under each root the
routes behind its name are. -/
theorem merges_iff : Merges routes trees ↔
    MergesAtRoots routes trees ∧ ∀ root ∈ trees, Merges (below root.name routes) root.children := by
  refine ⟨fun h => ⟨h.roots, fun root hroot => h.under hroot⟩, fun ⟨hroots, hunder⟩ => ?_⟩
  constructor
  case distinct =>
    rintro above level (_ | ⟨hroot, hlevel⟩)
    · exact hroots.nodup
    · exact (hunder _ hroot).distinct hlevel
  case leads_iff =>
    intro names
    match names with
    | [] => exact ⟨fun ⟨_, hnode⟩ => absurd rfl hnode.ne_nil, fun hne => absurd rfl hne.1⟩
    | [s] =>
      have hs : s ∈ trees.map name ↔ ∃ r ∈ routes, r.1.head? = some s := hroots.mem_iff
      simpa [leadsTo_singleton_iff, singleton_prefix_iff] using hs
    | s :: t :: names =>
      have hne : t :: names ≠ [] := List.cons_ne_nil t names
      constructor
      · rintro ⟨node, hnode⟩
        obtain ⟨root, hroot, rfl, hchild⟩ := (leadsTo_cons_iff hne).1 hnode
        obtain ⟨-, hbelow⟩ := (hunder root hroot).leads_iff.1 ⟨node, hchild⟩
        exact ⟨List.cons_ne_nil _ _, (exists_below_iff hne).1 hbelow⟩
      · rintro ⟨-, r, hr, hpre⟩
        have hhead : r.1.head? = some s := by
          obtain ⟨rest, hrest⟩ := hpre
          rw [← hrest]
          rfl
        obtain ⟨root, hroot, rfl⟩ := List.mem_map.1 (hroots.mem_iff.2 ⟨r, hr, hhead⟩)
        obtain ⟨node, hnode⟩ :=
          (hunder root hroot).leads_iff.2 ⟨hne, (exists_below_iff hne).2 ⟨r, hr, hpre⟩⟩
        exact ⟨node, (leadsTo_cons_iff hne).2 ⟨root, hroot, rfl, hnode⟩⟩
  case conditions_eq =>
    intro names node hnode
    obtain ⟨s, names, rfl⟩ := List.exists_cons_of_ne_nil hnode.ne_nil
    cases names with
    | nil =>
      obtain ⟨hroot, rfl⟩ := leadsTo_singleton_iff.1 hnode
      exact hroots.conditions_eq hroot
    | cons t names =>
      obtain ⟨root, hroot, rfl, hchild⟩ := (leadsTo_cons_iff (List.cons_ne_nil t names)).1 hnode
      rw [(hunder root hroot).conditions_eq hchild, conditionsAt_below]
  case ordered =>
    rintro above level (_ | ⟨hroot, hlevel⟩)
    · simpa only [List.nil_append, List.pairwise_map] using hroots.ordered
    · exact ((hunder _ hroot).ordered hlevel).imp fun hlt => (firstPlace_below_lt_iff (by simp) (by simp)).1 hlt

/-! ## The trees that are built -/

theorem map_name_alter {f : RelationNode → RelationNode} (hf : ∀ node, (f node).name = node.name) (s : String)
    (nodes : List RelationNode) : (alter s f nodes).map name = addName (nodes.map name) s := by
  unfold addName
  induction nodes with
  | nil => simp [alter, hf]
  | cons node nodes ih =>
    rw [alter]
    by_cases hs : node.name = s
    · simp [hs, hf]
    · rw [if_neg hs, List.map_cons, ih, List.map_cons]
      by_cases hmem : s ∈ nodes.map name
      · simp [hmem]
      · simp [hmem, Ne.symm hs]

theorem name_extend (conditions : List Condition) (rest : List String) (node : RelationNode) :
    (extend conditions rest node).name = node.name := by
  cases rest <;> rfl

/-- Roots are in the order in which the routes come to them: a new one goes to the end. -/
theorem ordered_grow (routes : List Route) :
    ((grow routes).map name).Pairwise fun s t => firstPlace routes [s] < firstPlace routes [t] := by
  induction routes using List.reverseRecOn with
  | nil => exact List.Pairwise.nil
  | append_singleton routes r ih =>
    have hfound : ∀ s, s ∈ (grow routes).map name ↔ ∃ r ∈ routes, [s] <+: r.1 := by
      obtain ⟨names, -, hmem, heq⟩ := grow_eq routes
      simpa only [heq, map_name_nodeOf, singleton_prefix_iff] using hmem
    have hplace : ∀ s ∈ (grow routes).map name, firstPlace (routes ++ [r]) [s] = firstPlace routes [s] :=
      fun s hs => firstPlace_append ((hfound s).1 hs) [r]
    have hold : ((grow routes).map name).Pairwise fun s t =>
        firstPlace (routes ++ [r]) [s] < firstPlace (routes ++ [r]) [t] := by
      refine List.Pairwise.imp_of_mem (fun {s t} hs ht hlt => ?_) ih
      rwa [hplace s hs, hplace t ht]
    obtain ⟨segments, conditions⟩ := r
    rw [grow_append_singleton]
    cases segments with
    | nil => exact hold
    | cons s rest =>
      rw [insertPath_cons, map_name_alter (name_extend conditions rest), addName]
      split
      · exact hold
      · next hs =>
        refine List.pairwise_append.2 ⟨hold, List.pairwise_singleton _ _, fun t ht u hu => ?_⟩
        obtain rfl := List.mem_singleton.1 hu
        rw [hplace t ht]
        exact Nat.lt_of_lt_of_le (firstPlace_lt_length_iff.2 ((hfound t).1 ht))
          (length_le_firstPlace_append (mt (hfound u).2 hs) _)

theorem mergesAtRoots_grow (routes : List Route) : MergesAtRoots routes (grow routes) := by
  obtain ⟨names, -, hmem, heq⟩ := grow_eq routes
  constructor
  case mem_iff =>
    intro s
    rw [heq, map_name_nodeOf, hmem]
  case ordered => exact ordered_grow routes
  case conditions_eq =>
    intro root hroot
    obtain ⟨s, -, rfl⟩ := List.mem_map.1 (heq ▸ hroot)
    rfl

/-- Routes are merged in the trees that grow of them. -/
theorem merges_grow (routes : List Route) : Merges routes (grow routes) := by
  -- The trees under a root grow of the routes behind its name.
  suffices h : ∀ trees routes, trees = grow routes → Merges routes trees from h _ routes rfl
  intro trees
  induction trees using trees_induction with
  | step trees ih =>
    rintro routes rfl
    refine merges_iff.2 ⟨mergesAtRoots_grow routes, fun root hroot => ih root hroot _ ?_⟩
    obtain ⟨names, -, -, heq⟩ := grow_eq routes
    obtain ⟨s, -, rfl⟩ := List.mem_map.1 (heq ▸ hroot)
    rfl

theorem eq_of_map_name_eq {trees' : List RelationNode} (hnames : trees.map name = trees'.map name)
    (heq : ∀ a ∈ trees, ∀ b ∈ trees', a.name = b.name → a = b) : trees = trees' := by
  induction trees generalizing trees' with
  | nil => simpa using hnames.symm
  | cons a trees ih =>
    cases trees' with
    | nil => cases hnames
    | cons b trees' =>
      rw [List.map_cons, List.map_cons, List.cons.injEq] at hnames
      rw [heq a List.mem_cons_self b List.mem_cons_self hnames.1,
        ih hnames.2 fun c hc d hd => heq c (List.mem_cons_of_mem a hc) d (List.mem_cons_of_mem b hd)]

/-- The names of the roots are determined by the routes. -/
theorem MergesAtRoots.map_name_eq {trees' : List RelationNode} (h : MergesAtRoots routes trees)
    (h' : MergesAtRoots routes trees') : trees.map name = trees'.map name := by
  have hperm : (trees.map name).Perm (trees'.map name) :=
    (List.perm_ext_iff_of_nodup h.nodup h'.nodup).2 fun s => h.mem_iff.trans h'.mem_iff.symm
  exact hperm.eq_of_pairwise (fun s t _ _ hst hts => absurd hst (Nat.lt_asymm hts)) h.ordered h'.ordered

/-- Routes are merged in one way only. -/
theorem Merges.unique {trees' : List RelationNode} (h : Merges routes trees) (h' : Merges routes trees') :
    trees = trees' := by
  induction trees using trees_induction generalizing routes trees' with
  | step trees ih =>
    refine eq_of_map_name_eq (h.roots.map_name_eq h'.roots) fun a ha b hb hname => ?_
    have hconditions : a.conditions = b.conditions := by
      rw [h.roots.conditions_eq ha, h'.roots.conditions_eq hb, hname]
    have hchildren : a.children = b.children := ih a ha (h.under ha) (hname ▸ h'.under hb)
    cases a
    cases b
    simp_all

/-- **The trees of a list of paths are those in which the paths are merged**, and there are no others: the names that
lead to their nodes are those that begin a path, a node has the conditions of the paths that end there, in the order
of the list, and nodes that stand side by side have different names, in the order in which the list comes to them. -/
theorem merges_ofPaths_iff {paths : List RelationPath} :
    Merges (paths.map RelationPath.route) trees ↔ trees = ofPaths paths := by
  rw [ofPaths_eq_grow]
  constructor
  · exact fun h => h.unique (merges_grow _)
  · rintro rfl
    exact merges_grow _

/-- Paths with empty names in them, one behind its own extension, and conditions that meet at one node. -/
theorem merges_ofPaths_iff_products :
    let cheap : Condition := ⟨"price", .lt, .int 9⟩
    let kept : Condition := ⟨"stock", .gt, .int 0⟩
    let fresh : Condition := ⟨"stock", .ge, .int 2⟩
    let paths : List RelationPath := [⟨"products..offers", [cheap]⟩, ⟨"owner", []⟩, ⟨".products", [kept]⟩,
      ⟨"", [fresh]⟩, ⟨"products.offers.", [fresh]⟩]
    let routes : List Route := [(["products", "offers"], [cheap]), (["owner"], []), (["products"], [kept]),
      ([], [fresh]), (["products", "offers"], [fresh])]
    let trees : List RelationNode := [⟨"products", [kept], [⟨"offers", [cheap, fresh], []⟩]⟩, ⟨"owner", [], []⟩]
    paths.map RelationPath.route = routes ∧ trees = ofPaths paths ∧ Merges routes trees := by
  intro cheap kept fresh paths routes trees
  have hroutes : paths.map RelationPath.route = routes := by decide +kernel
  have htrees : trees = ofPaths paths := by
    rw [ofPaths_eq_grow, hroutes]
    simp [trees, routes, grow, insertPath, alter]
  exact ⟨hroutes, htrees, hroutes ▸ merges_ofPaths_iff.2 htrees⟩

end RelationNode

end FluentTables
