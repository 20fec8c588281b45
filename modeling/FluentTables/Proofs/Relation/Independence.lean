import FluentTables.Proofs.Relation.Overlays

/-!
# Relations side by side

A join reads the `id` and the join key of a row. When no relation writes a cell that the join of another one reads
(`Independent`), each attaches what it would attach alone, in whatever order they come (`sameCells_attach`). The same
holds under every node, so trees that are rearranged at any level attach the same rows, whose cells may be in
another order (`alike_attach`).
-/

namespace FluentTables

/-! ## Rows up to the order of their cells -/

/-- The same cells, in whatever order. -/
def Row.SameCells (a b : Row) : Prop := (∀ k, a.get? k = b.get? k) ∧ a.keys.Perm b.keys

/-- Values that differ in the order of cells only, at whatever depth. -/
inductive Value.Alike : Value → Value → Prop
  | refl (v : Value) : Alike v v
  | list {a b : List Value} : List.Forall₂ Alike a b → Alike (list a) (list b)
  | record {a b : Row} : (∀ k, Option.Rel Alike (a.get? k) (b.get? k)) → a.keys.Perm b.keys →
      Alike (record a) (record b)

theorem Value.alike_mapRows {f g : Row → Row} (h : ∀ r, Alike (record (f r)) (record (g r))) (v : Value) :
    Alike (v.mapRows f) (v.mapRows g) := by
  cases v with
  | list items =>
    refine .list (List.forall₂_map_left_iff.2 (List.forall₂_map_right_iff.2 (List.forall₂_same.2 fun v _ => ?_)))
    cases v with
    | record r => exact h r
    | _ => exact .refl _
  | record r => exact h r
  | _ => exact .refl _

namespace RelationNode

/-- The same trees, with those under a node or at the roots in another order. -/
inductive Rearranged : List RelationNode → List RelationNode → Prop
  | nil : Rearranged [] []
  | cons {name : String} {conditions : List Condition} {children children' nodes nodes' : List RelationNode} :
      Rearranged children children' → Rearranged nodes nodes' →
      Rearranged (⟨name, conditions, children⟩ :: nodes) (⟨name, conditions, children'⟩ :: nodes')
  | swap (a b : RelationNode) (nodes : List RelationNode) : Rearranged (b :: a :: nodes) (a :: b :: nodes)
  | trans {nodes nodes' nodes'' : List RelationNode} :
      Rearranged nodes nodes' → Rearranged nodes' nodes'' → Rearranged nodes nodes''

namespace Rearranged

variable {nodes nodes' : List RelationNode}

theorem refl (nodes : List RelationNode) : Rearranged nodes nodes := by
  induction nodes using trees_induction with
  | step nodes ih =>
    induction nodes with
    | nil => exact .nil
    | cons node nodes ihrest =>
      have hrest : Rearranged nodes nodes := ihrest fun other hother => ih other (List.mem_cons_of_mem node hother)
      have hchildren : Rearranged node.children node.children := ih node List.mem_cons_self
      cases node
      exact .cons hchildren hrest

theorem names_perm (h : Rearranged nodes nodes') : (nodes.map name).Perm (nodes'.map name) := by
  induction h with
  | nil => exact .nil
  | cons _ _ _ ih => exact ih.cons _
  | swap a b nodes => exact .swap _ _ _
  | trans _ _ ih ih' => exact ih.trans ih'

/-- Each node is still there, with its children rearranged. -/
theorem exists_node (h : Rearranged nodes nodes') {a : RelationNode} (ha : a ∈ nodes) :
    ∃ b ∈ nodes', b.name = a.name ∧ b.conditions = a.conditions ∧ Rearranged a.children b.children := by
  induction h generalizing a with
  | nil => cases ha
  | @cons _ _ _ children' _ _ hchildren _ _ ih =>
    rcases List.mem_cons.1 ha with rfl | ha
    · exact ⟨_, List.mem_cons_self, rfl, rfl, hchildren⟩
    · obtain ⟨b, hb, hsame⟩ := ih ha
      exact ⟨b, List.mem_cons_of_mem _ hb, hsame⟩
  | swap b c nodes => exact ⟨a, (List.Perm.swap b c nodes).mem_iff.1 ha, rfl, rfl, refl _⟩
  | trans _ _ ih ih' =>
    obtain ⟨b, hb, hname, hconditions, hchildren⟩ := ih ha
    obtain ⟨c, hc, hname', hconditions', hchildren'⟩ := ih' hb
    exact ⟨c, hc, hname'.trans hname, hconditions'.trans hconditions, hchildren.trans hchildren'⟩

end Rearranged

end RelationNode

namespace Naming

open RelationNode

variable (n : Naming) (data : Dataset)

/-! ## Names that do not get in each other's way -/

/-- Relations of a table whose names differ, and of which none is `id` or the join key of another. -/
structure NamesApart (owner : String) (names : List String) : Prop where
  distinct : names.Nodup
  not_id : "id" ∉ names
  not_joinKey : ∀ s ∈ names, ∀ t ∈ names, s ≠ t → s ≠ (n.spec t owner data).joinKey

/-- Trees whose names are apart at every level. -/
inductive Independent : List RelationNode → String → Prop
  | mk {nodes : List RelationNode} {owner : String} : n.NamesApart data owner (nodes.map name) →
      (∀ node ∈ nodes, Independent node.children (n.spec node.name owner data).table) → Independent nodes owner

variable {n data} {nodes nodes' : List RelationNode} {owner : String}

theorem independent_nil (owner : String) : n.Independent data [] owner :=
  .mk ⟨List.nodup_nil, List.not_mem_nil, fun _ hs => nomatch hs⟩ fun _ hnode => nomatch hnode

theorem NamesApart.perm {names names' : List String} (h : n.NamesApart data owner names) (hp : names.Perm names') :
    n.NamesApart data owner names' where
  distinct := hp.nodup h.distinct
  not_id hid := h.not_id (hp.mem_iff.2 hid)
  not_joinKey s hs t ht := h.not_joinKey s (hp.mem_iff.2 hs) t (hp.mem_iff.2 ht)

theorem NamesApart.get?_attach (h : n.NamesApart data owner (nodes.map name)) {node : RelationNode}
    (hnode : node ∈ nodes) (row : Row) :
    (n.attach data nodes owner row).get? node.name = some (n.cellOf data owner row node) := by
  refine Naming.get?_attach h.distinct (fun a ha b hb hne => ⟨fun hid => ?_, ?_⟩) hnode row
  · exact h.not_id (hid ▸ List.mem_map_of_mem ha)
  · exact h.not_joinKey _ (List.mem_map_of_mem ha) _ (List.mem_map_of_mem hb) hne

theorem get?_attach_singleton (node : RelationNode) (owner : String) (row : Row) :
    (n.attach data [node] owner row).get? node.name = some (n.cellOf data owner row node) := by
  rw [attach_cons, attach, OrderedMap.get?_insert_self]

/-- The columns of a row with relations attached: those of the row, and then the new names. -/
theorem keys_attach (hnodup : (nodes.map name).Nodup) (row : Row) :
    (n.attach data nodes owner row).keys = row.keys ++ (nodes.map name).filter (· ∉ row.keys) := by
  induction nodes generalizing row with
  | nil => simp [attach]
  | cons node nodes ih =>
    rw [List.map_cons, List.nodup_cons] at hnodup
    rw [attach_cons, ih hnodup.2, OrderedMap.keys_insert, List.map_cons]
    by_cases hmem : node.name ∈ row.keys
    · rw [if_pos hmem, List.filter_cons_of_neg (by simpa using hmem)]
    · have hrest : (nodes.map name).filter (· ∉ row.keys ++ [node.name]) = (nodes.map name).filter (· ∉ row.keys) := by
        refine List.filter_congr fun s hs => ?_
        have hne : s ≠ node.name := fun heq => hnodup.1 (heq ▸ hs)
        simp [hne]
      rw [if_neg hmem, hrest, List.filter_cons_of_pos (by simpa using hmem), List.append_assoc, List.singleton_append]

/-- Attaching in another order puts the columns into another order. -/
theorem keys_attach_perm (hnodup : (nodes.map name).Nodup) (hp : (nodes.map name).Perm (nodes'.map name)) (row : Row) :
    (n.attach data nodes owner row).keys.Perm (n.attach data nodes' owner row).keys := by
  rw [keys_attach hnodup, keys_attach (hp.nodup hnodup)]
  exact (hp.filter _).append_left _

/-! ## Other orders -/

/-- **The order of relations side by side does not matter** for the cells that they attach. -/
theorem sameCells_attach (h : n.NamesApart data owner (nodes.map name)) (hp : nodes.Perm nodes') (row : Row) :
    (n.attach data nodes owner row).SameCells (n.attach data nodes' owner row) := by
  have hnames : (nodes.map name).Perm (nodes'.map name) := hp.map name
  refine ⟨fun k => ?_, keys_attach_perm h.distinct hnames row⟩
  by_cases hk : k ∈ nodes.map name
  · obtain ⟨node, hnode, rfl⟩ := List.mem_map.1 hk
    rw [h.get?_attach hnode, (h.perm hnames).get?_attach (hp.mem_iff.1 hnode)]
  · rw [get?_attach_of_not_mem hk, get?_attach_of_not_mem (mt hnames.mem_iff.2 hk)]

/-- **Trees rearranged at any level attach the same rows**, up to the order of cells. -/
theorem alike_attach (h : n.Independent data nodes owner) (hr : Rearranged nodes nodes') (row : Row) :
    Value.Alike (.record (n.attach data nodes owner row)) (.record (n.attach data nodes' owner row)) := by
  induction h generalizing nodes' row with
  | @mk nodes owner hnames _ ih =>
    refine .record (fun k => ?_) (keys_attach_perm hnames.distinct hr.names_perm row)
    by_cases hk : k ∈ nodes.map name
    · obtain ⟨a, ha, rfl⟩ := List.mem_map.1 hk
      obtain ⟨b, hb, hname, hconditions, hchildren⟩ := hr.exists_node ha
      have hcell : (n.attach data nodes' owner row).get? a.name = some (n.cellOf data owner row b) :=
        hname ▸ (hnames.perm hr.names_perm).get?_attach hb row
      rw [hnames.get?_attach ha, hcell, cellOf, cellOf, hname, hconditions]
      exact .some (Value.alike_mapRows (fun r => ih a ha hchildren r) _)
    · rw [get?_attach_of_not_mem hk, get?_attach_of_not_mem (mt hr.names_perm.mem_iff.2 hk)]
      cases row.get? k with
      | none => exact .none
      | some v => exact .some (.refl v)

/-- **Relations side by side are independent**, when at every level their names differ and none is `id` or the join key
of another one: in another order they attach the same cells, and rearranged at any level the same up to the order of
cells; each attaches what it would attach alone; and the cells of other names stay as they are and where they are. -/
theorem attach_independent (h : n.Independent data nodes owner) (row : Row) :
    (∀ nodes', nodes.Perm nodes' → (n.attach data nodes owner row).SameCells (n.attach data nodes' owner row)) ∧
      (∀ nodes', Rearranged nodes nodes' →
        Value.Alike (.record (n.attach data nodes owner row)) (.record (n.attach data nodes' owner row))) ∧
      (∀ node ∈ nodes, ∃ v, (n.attach data nodes owner row).get? node.name = some v ∧
        (n.attach data [node] owner row).get? node.name = some v) ∧
      Row.Overlays (nodes.map name) row (n.attach data nodes owner row) := by
  obtain ⟨hnames, -⟩ := id h
  refine ⟨fun nodes' hp => sameCells_attach hnames hp row, fun nodes' hr => alike_attach h hr row,
    fun node hnode => ⟨_, hnames.get?_attach hnode row, get?_attach_singleton node owner row⟩, ?_⟩
  exact overlays_attach n data (fun node hnode => List.mem_map_of_mem hnode) owner (Row.overlays_refl _ row)

/-- A product of a brand, whose supplier is there as a text as well. -/
def brandedProducts : Dataset := ⟨⟨[
  ("products", [⟨[("id", .int 7), ("supplier", .text "North"), ("brand_id", .text "1"), ("supplier_id", .int 8)]⟩]),
  ("brands", [⟨[("id", .int 1)]⟩]),
  ("suppliers", [⟨[("id", .text "8"), ("name", .text "North")]⟩])]⟩⟩

theorem attach_independent_brandedProducts :
    let n := extend .empty .empty
    let brand : RelationNode := { name := "brand", children := [{ name := "products" }, { name := "owner" }] }
    let brand' : RelationNode := { name := "brand", children := [{ name := "owner" }, { name := "products" }] }
    let supplier : RelationNode := { name := "supplier" }
    let row : Row :=
      ⟨[("id", .int 7), ("supplier", .text "North"), ("brand_id", .text "1"), ("supplier_id", .int 8)]⟩
    n.Independent brandedProducts [brand, supplier] "products" ∧
      (n.attach brandedProducts [brand, supplier] "products" row).SameCells
        (n.attach brandedProducts [supplier, brand] "products" row) ∧
      Value.Alike (.record (n.attach brandedProducts [brand, supplier] "products" row))
        (.record (n.attach brandedProducts [supplier, brand'] "products" row)) ∧
      (∃ v, (n.attach brandedProducts [brand, supplier] "products" row).get? "supplier" = some v ∧
        (n.attach brandedProducts [supplier] "products" row).get? "supplier" = some v) ∧
      (n.attach brandedProducts [brand, supplier] "products" row).keys =
        ["id", "supplier", "brand_id", "supplier_id", "brand"] := by
  intro n brand brand' supplier row
  have hbrand : n.Independent brandedProducts brand.children "brands" := by
    refine .mk ⟨by decide, by decide, by decide⟩ fun node hnode => ?_
    rcases List.mem_pair.1 hnode with rfl | rfl <;> exact independent_nil _
  have htable : (n.spec brand.name "products" brandedProducts).table = "brands" := by decide
  have h : n.Independent brandedProducts [brand, supplier] "products" := by
    refine .mk ⟨by decide, by decide, by decide⟩ fun node hnode => ?_
    rcases List.mem_pair.1 hnode with rfl | rfl
    · exact htable ▸ hbrand
    · exact independent_nil _
  have hr : Rearranged [brand, supplier] [supplier, brand'] :=
    .trans (.cons (.swap _ _ _) (.refl _)) (.swap supplier brand' [])
  obtain ⟨hperm, hrearranged, halone, -⟩ := attach_independent h row
  exact ⟨h, hperm _ (.swap supplier brand []), hrearranged _ hr, halone supplier (by simp), by decide⟩

end Naming

end FluentTables
