import FluentTables.Proofs.Json.Reading
import FluentTables.Proofs.Relation.Existence
import FluentTables.Proofs.Relation.ForeignKeys

/-!
# Records that are joined by their id

Whatever a relation to one row puts in place, at any depth, has an id with the key of the cell that led there
(`idKey?_of_places`). The empty key is that of null, false and the empty text (`key_eq_empty_iff`). A join looks at the
cell for null, not at the id; so an id that is null is joined from false and from the empty text, and from nothing
else (`ids_of_placed_records`, `null_id_placed`).
-/

namespace FluentTables

/-! ## Empty keys -/

theorem Decimal.positional_ne_nil (d : Decimal) : d.positional ≠ [] := by
  unfold positional
  split
  · exact List.append_ne_nil_of_left_ne_nil d.isDigits_digits.1 _
  · simp

theorem Binary64.key_ne_nil (x : Binary64) : x.key ≠ [] := by
  unfold key
  split
  · exact Numeral.toString_ne_nil x.truncate.toInt
  · cases x with
    | finite negative units => exact List.append_ne_nil_of_right_ne_nil _ (Decimal.positional_ne_nil _)
    | infinite negative => simp [display]

/-- The values with an empty key. -/
theorem Value.key_eq_empty_iff {v : Value} : v.key = "" ↔ v = .null ∨ v = .bool false ∨ v = .text "" := by
  have hcompact : ∀ j : Json, j.compact ≠ "" := fun j hj => by
    obtain ⟨c, r, hchars, -⟩ := j.compactChars_head
    simp [Json.compact, hchars] at hj
  cases v with
  | null => simp [key]
  | bool b => cases b <;> simp [key]
  | int i =>
    have hdigits : toString i.toInt ≠ "" := fun h => Numeral.toString_ne_nil i.toInt (by rw [h]; rfl)
    simp only [key, hdigits, reduceCtorEq, or_self]
  | float x => simp [key, Binary64.key_ne_nil]
  | text s => simp [key]
  | list items => simp [key, hcompact]
  | record row => simp [key, hcompact]

/-! ## Names anywhere in trees -/

namespace RelationNode

mutual

/-- The names of a node and of the trees under it. -/
def nodeNames : RelationNode → List String
  | ⟨name, _, children⟩ => name :: names children

/-- The names in trees. -/
def names : List RelationNode → List String
  | [] => []
  | node :: r => nodeNames node ++ names r

end

theorem names_cons (node : RelationNode) (nodes : List RelationNode) :
    names (node :: nodes) = node.name :: names node.children ++ names nodes := by
  cases node
  rfl

theorem map_name_subset_names (nodes : List RelationNode) : nodes.map name ⊆ names nodes := by
  induction nodes with
  | nil => exact List.nil_subset _
  | cons node nodes ih =>
    rw [names_cons, List.map_cons, List.cons_append]
    exact List.cons_subset_cons _ fun s hs => List.mem_append_right _ (ih hs)

end RelationNode

/-! ## Placing records -/

/-- A record in place of a row that was there. -/
theorem Value.mapRows_eq_record_iff {f : Row → Row} {v : Value} {r : Row} :
    v.mapRows f = .record r ↔ ∃ r', v = .record r' ∧ f r' = r := by
  cases v <;> simp [mapRows]

namespace Naming

variable (n : Naming) (data : Dataset)

/-- A record that trees attached to a row put in place, at whatever depth, through a relation to one row, and the cell
that led to it. -/
inductive Places : List RelationNode → (owner : String) → Row → (cell : Value) → (record : Row) → Prop
  | here {node : RelationNode} {nodes : List RelationNode} {owner : String} {row r : Row} {cell : Value} :
      (n.spec node.name owner data).kind = .belongsTo →
      row.get? (n.spec node.name owner data).joinKey = some cell →
      (n.attachNode data node owner row).get? node.name = some (.record r) → Places (node :: nodes) owner row cell r
  | under {node : RelationNode} {nodes : List RelationNode} {owner : String} {row related r : Row} {cell : Value} :
      (n.spec node.name owner data).Related data node.conditions row related →
      Places node.children (n.spec node.name owner data).table related cell r → Places (node :: nodes) owner row cell r
  | later {node : RelationNode} {nodes : List RelationNode} {owner : String} {row r : Row} {cell : Value} :
      Places nodes owner (n.attachNode data node owner row) cell r → Places (node :: nodes) owner row cell r

variable {n data} {nodes : List RelationNode} {node : RelationNode} {owner : String} {row r : Row} {cell : Value}

theorem attachNode_eq (node : RelationNode) (owner : String) (row : Row) :
    n.attachNode data node owner row = row.insert node.name (n.cellOf data owner row node) := by
  cases node
  rw [attachNode]
  rfl

/-- A record in the cell of a relation to one row is a row with the key of the cell that led there, with its own
relations attached. -/
theorem exists_joined (hkind : (n.spec node.name owner data).kind = .belongsTo)
    (h : n.cellOf data owner row node = .record r) :
    ∃ cell source, row.get? (n.spec node.name owner data).joinKey = some cell ∧ cell ≠ .null ∧
      idKey? source = some cell.key ∧ n.attach data node.children (n.spec node.name owner data).table source = r := by
  obtain ⟨source, hfetch, hsource⟩ := Value.mapRows_eq_record_iff.1 h
  obtain ⟨k, hkey, hfind⟩ := (RelationSpec.fetch_eq_record_iff hkind _).1 hfetch
  obtain ⟨cell, hcell, hnull, rfl⟩ := cellKey?_eq_some_iff.1 hkey
  have hany := List.find?_some hfind
  exact ⟨cell, source, hcell, hnull, any_key_iff.1 hany, hsource⟩

/-- A placed record has an id with the key of the cell that led there. -/
theorem idKey?_of_places (hid : "id" ∉ RelationNode.names nodes) (h : n.Places data nodes owner row cell r) :
    cell ≠ .null ∧ idKey? r = some cell.key := by
  induction h with
  | @here node nodes owner row r cell hkind hcell hplaced =>
    rw [attachNode_eq, OrderedMap.get?_insert_self, Option.some.injEq] at hplaced
    obtain ⟨cell', source, hcell', hnull, hkey, rfl⟩ := exists_joined hkind hplaced
    obtain rfl : cell = cell' := Option.some.inj (hcell.symm.trans hcell')
    have hchildren : "id" ∉ node.children.map RelationNode.name := fun hmem =>
      hid (by simp [RelationNode.names_cons, RelationNode.map_name_subset_names _ hmem])
    refine ⟨hnull, ?_⟩
    rw [idKey?, get?_attach_of_not_mem hchildren]
    exact hkey
  | under _ _ ih => exact ih fun hmem => hid (by simp [RelationNode.names_cons, hmem])
  | later _ ih => exact ih fun hmem => hid (by simp [RelationNode.names_cons, hmem])

/-- What stands in the cell of a relation to one row in the end has been placed. -/
theorem places_of_get?_attach (hnode : node ∈ nodes) (hkind : (n.spec node.name owner data).kind = .belongsTo)
    (h : (n.attach data nodes owner row).get? node.name = some (.record r)) :
    ∃ cell, n.Places data nodes owner row cell r := by
  induction nodes generalizing node row with
  | nil => cases hnode
  | cons first nodes ih =>
    rw [attach_cons, ← attachNode_eq] at h
    by_cases hlater : node.name ∈ nodes.map RelationNode.name
    · obtain ⟨other, hother, hname⟩ := List.mem_map.1 hlater
      obtain ⟨cell, hcell⟩ := ih hother (hname ▸ hkind) (hname ▸ h)
      exact ⟨cell, .later hcell⟩
    · obtain rfl : node = first :=
        (List.mem_cons.1 hnode).resolve_right fun hmem => hlater (List.mem_map_of_mem hmem)
      rw [get?_attach_of_not_mem hlater] at h
      have hcellOf := h
      rw [attachNode_eq, OrderedMap.get?_insert_self, Option.some.injEq] at hcellOf
      obtain ⟨cell, source, hcell, -⟩ := exists_joined hkind hcellOf
      exact ⟨cell, .here hkind hcell h⟩

/-- **What is joined by its id has one**, where nothing is attached as `id`: a record that a relation to one row puts in
place, at any depth, has an id with the key of the cell that led there, and the id is null only if the cell is false or
the empty text. The records that stand in the cells of such relations in the end are among these. -/
theorem ids_of_placed_records (hid : "id" ∉ RelationNode.names nodes) (owner : String) (row : Row) :
    (∀ cell r, n.Places data nodes owner row cell r → ∃ id, r.get? "id" = some id ∧ id.key = cell.key ∧
      (id = .null → cell = .bool false ∨ cell = .text "")) ∧
    ∀ node ∈ nodes, (n.spec node.name owner data).kind = .belongsTo → ∀ r,
      (n.attach data nodes owner row).get? node.name = some (.record r) →
      ∃ cell, n.Places data nodes owner row cell r := by
  refine ⟨fun cell r h => ?_, fun node hnode hkind r h => places_of_get?_attach hnode hkind h⟩
  obtain ⟨hnull, hkey⟩ := idKey?_of_places hid h
  obtain ⟨id, hrow, hkey⟩ := Option.map_eq_some_iff.1 hkey
  refine ⟨id, hrow, hkey, ?_⟩
  rintro rfl
  exact (Value.key_eq_empty_iff.1 hkey.symm).resolve_left hnull

theorem ids_of_placed_records_supplier :
    let n := extend .empty .empty
    let trees : List RelationNode := [{ name := "products", children := [{ name := "supplier" }] }]
    let brand : Row := ⟨[("id", .int 1)]⟩
    let supplier : Row := ⟨[("id", .float (.ofInt 9))]⟩
    ("id" ∉ RelationNode.names trees ∧ n.Places suppliedProducts trees "brands" brand (.int 9) supplier) ∧
      ∃ id, supplier.get? "id" = some id ∧ id.key = "9" ∧ id ≠ .null := by
  intro n trees brand supplier
  have hid : "id" ∉ RelationNode.names trees := by decide
  have hrelated : (n.spec "products" "brands" suppliedProducts).Related suppliedProducts [] brand
      ⟨[("id", .int 8), ("brand_id", .int 1), ("price", .text "12"), ("supplier_id", .int 9)]⟩ :=
    ⟨by decide, ⟨"1", by decide, by decide⟩, by simp⟩
  have hplaces : n.Places suppliedProducts trees "brands" brand (.int 9) supplier :=
    .under hrelated (.here (by decide) (by decide) (by decide +kernel))
  obtain ⟨id, hrow, hkey, hnull⟩ := (ids_of_placed_records hid "brands" brand).1 _ _ hplaces
  exact ⟨⟨hid, hplaces⟩, id, hrow, hkey, fun h => by simpa using hnull h⟩

/-- A brand whose id is null. -/
def namelessBrand : Dataset := ⟨⟨[("brands", [⟨[("id", .null), ("name", .text "Acme")]⟩])]⟩⟩

/-- An id that is null is joined all the same, from a cell with the empty text. -/
theorem null_id_placed :
    let n := extend .empty .empty
    let trees : List RelationNode := RelationNode.ofPaths [{ path := "brand" }]
    let product : Row := ⟨[("id", .int 7), ("brand_id", .text "")]⟩
    let brand : Row := ⟨[("id", .null), ("name", .text "Acme")]⟩
    "id" ∉ RelationNode.names trees ∧ n.Places namelessBrand trees "products" product (.text "") brand ∧
      (n.attach namelessBrand trees "products" product).get? "brand" = some (.record brand) ∧
      brand.get? "id" = some .null := by
  intro n trees product brand
  exact ⟨by decide, .here (by decide) (by decide) (by decide), by decide, by decide⟩

end Naming

end FluentTables
