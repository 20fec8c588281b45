import Mathlib.Data.List.Find
import FluentTables.Relation.Join

/-!
# Joins in both directions

The rows of one table that point at a row of another are a filter (`childrenOf`), and the row that a row points at is
the first one with its key (`parentOf?`). When keys are distinct the two are inverse to each other
(`mem_childrenOf_iff`), and the rows that point at some row are spread over these without loss or repetition
(`count_flatMap_childrenOf`).

A relation to many rows is the one and a relation to one row the other, the latter only where no id is null
(`fetch_hasMany`, `fetch_belongsTo`). Between two tables whose names are read in the usual way both relations join on
the same column (`RegularPair.spec_children`, `RegularPair.spec_parent`), so they are inverse (`inverse_joins`).
-/

namespace FluentTables

/-! ## Joins on a key -/

section Keys

variable {α β κ : Type} [DecidableEq κ] (key : α → Option κ) (ref : β → Option κ)

/-- What points at `a`. -/
def childrenOf (children : List β) (a : α) : List β :=
  match key a with
  | none => []
  | some k => children.filter fun b => ref b == some k

/-- What `b` points at: the first one with the key. -/
def parentOf? (parents : List α) (b : β) : Option α :=
  (ref b).bind fun k => parents.find? fun a => key a == some k

variable {key ref} {parents : List α} {children : List β} {a : α} {b : β}

theorem mem_childrenOf : b ∈ childrenOf key ref children a ↔ b ∈ children ∧ ∃ k, key a = some k ∧ ref b = some k := by
  unfold childrenOf
  cases key a with
  | none => simp
  | some k => simp

/-- With distinct keys the first one with a key is the only one. -/
theorem find?_key_eq_some_iff (hkeys : (parents.filterMap key).Nodup) (ha : a ∈ parents) (k : κ) :
    parents.find? (fun x => key x == some k) = some a ↔ key a = some k := by
  constructor
  · intro h
    simpa using List.find?_some h
  · intro hk
    induction parents with
    | nil => cases ha
    | cons x parents ih =>
      rcases List.mem_cons.1 ha with rfl | ha
      · exact List.find?_cons_of_pos (by simpa using hk)
      · cases hx : key x with
        | none =>
          rw [List.filterMap_cons_none hx] at hkeys
          rw [List.find?_cons_of_neg (by simp [hx]), ih hkeys ha]
        | some j =>
          rw [List.filterMap_cons_some hx, List.nodup_cons] at hkeys
          have hne : j ≠ k := fun hjk => hkeys.1 (List.mem_filterMap.2 ⟨a, ha, by rw [hk, hjk]⟩)
          rw [List.find?_cons_of_neg (by simp [hx, hne]), ih hkeys.2 ha]

/-- **The two directions of a join are inverse to each other.** -/
theorem mem_childrenOf_iff (hkeys : (parents.filterMap key).Nodup) (ha : a ∈ parents) (hb : b ∈ children) :
    b ∈ childrenOf key ref children a ↔ parentOf? key ref parents b = some a := by
  rw [mem_childrenOf, parentOf?]
  cases ref b with
  | none => simp
  | some k =>
    rw [Option.bind_some, find?_key_eq_some_iff hkeys ha]
    simp [hb]

variable [DecidableEq β]

theorem count_childrenOf {k : κ} (hb : ref b = some k) :
    (childrenOf key ref children a).count b = if key a = some k then children.count b else 0 := by
  unfold childrenOf
  cases key a with
  | none => simp
  | some j =>
    by_cases hj : j = k
    · subst hj
      rw [if_pos rfl]
      exact List.count_filter (by simpa using hb)
    · rw [if_neg (by simpa using hj)]
      refine List.count_eq_zero.2 fun hmem => hj ?_
      have hk : ref b = some j := by simpa using (List.mem_filter.1 hmem).2
      rw [hb, Option.some.injEq] at hk
      exact hk.symm

/-- **All children of all parents**: each with a parent as often as it is there, and no other. -/
theorem count_flatMap_childrenOf (hkeys : (parents.filterMap key).Nodup) (b : β) :
    (parents.flatMap (childrenOf key ref children)).count b =
      if (parentOf? key ref parents b).isSome then children.count b else 0 := by
  unfold parentOf?
  cases hb : ref b with
  | none =>
    refine List.count_eq_zero.2 fun hmem => ?_
    obtain ⟨a, -, hmem⟩ := List.mem_flatMap.1 hmem
    obtain ⟨-, k, -, hk⟩ := mem_childrenOf.1 hmem
    rw [hb] at hk
    cases hk
  | some k =>
    rw [Option.bind_some]
    induction parents with
    | nil => rfl
    | cons x parents ih =>
      rw [List.flatMap_cons, List.count_append, count_childrenOf hb]
      by_cases hx : key x = some k
      · rw [List.filterMap_cons_some hx, List.nodup_cons] at hkeys
        -- No other parent has the key of `x`.
        have hnone : parents.find? (fun a => key a == some k) = none := by
          refine List.find?_eq_none.2 fun a ha hk => hkeys.1 (List.mem_filterMap.2 ⟨a, ha, ?_⟩)
          simpa using hk
        rw [ih hkeys.2, hnone, List.find?_cons_of_pos (by simpa using hx), if_pos hx]
        simp
      · have hrest : (parents.filterMap key).Nodup := hkeys.sublist ((List.sublist_cons_self x parents).filterMap key)
        rw [ih hrest, List.find?_cons_of_neg (by simpa using hx), if_neg hx, Nat.zero_add]

end Keys

/-! ## Relations as joins -/

section Fetch

variable {spec : RelationSpec} {data : Dataset}

/-- A relation to many rows leads to the rows that point at the id. -/
theorem fetch_hasMany (h : spec.kind = .hasMany) (row : Row) :
    spec.fetch row data [] =
      .ofRows (childrenOf (cellKey? · "id") (cellKey? · spec.joinKey) (data.rows spec.table) row) := by
  unfold RelationSpec.fetch childrenOf
  rw [h]
  dsimp only
  cases cellKey? row "id" with
  | none => rfl
  | some k => simp [Condition.allHold]

/-- Unless a cell is null, its value is found by the key of the cell. -/
theorem any_key_eq {row : Row} {column : String} (h : row.get? column ≠ some .null) (k : String) :
    (row.get? column).any (·.key == k) = (cellKey? row column == some k) := by
  unfold cellKey?
  cases hv : row.get? column with
  | none => rfl
  | some v =>
    have hnull : v.isNull = false := by
      cases v with
      | null => exact absurd hv h
      | _ => rfl
    simp [hnull]

/-- A relation to one row leads to the row that is pointed at. -/
theorem fetch_belongsTo (h : spec.kind = .belongsTo) (hid : ∀ r ∈ data.rows spec.table, r.get? "id" ≠ some .null)
    (row : Row) :
    spec.fetch row data [] =
      (parentOf? (cellKey? · "id") (cellKey? · spec.joinKey) (data.rows spec.table) row).elim .null .record := by
  unfold RelationSpec.fetch parentOf?
  rw [h]
  dsimp only
  cases cellKey? row spec.joinKey with
  | none => rfl
  | some k =>
    have hfind : (data.rows spec.table).find? (fun r => (r.get? "id").any (·.key == k)) =
        (data.rows spec.table).find? fun r => cellKey? r "id" == some k :=
      List.find?_congr fun r hr => any_key_eq (hid r hr) k
    dsimp only
    rw [hfind, Option.bind_some]
    cases (data.rows spec.table).find? fun r => cellKey? r "id" == some k <;> rfl

end Fetch

/-! ## Regular names -/

namespace Naming

/-- The tables `ps` and `cs` are related by their names alone: these are plain words, `p` is no plural, and nothing
that is configured reads them differently. -/
structure RegularPair (n : Naming) (p c : String) : Prop where
  kind : n.kind = usualKind
  plain_parent : ∀ ch ∈ p.toList, ch.toNat < 0x80 ∧ ch.toLower = ch
  plain_child : ∀ ch ∈ c.toList, ch.toNat < 0x80 ∧ ch.toLower = ch
  ne : p ≠ c
  not_plural : isPlural p = false
  foreignKey : n.foreignKeys.get? (p ++ "s") = none
  parent_model : ∀ t, n.models.get? p = some t → t = p ++ "s"
  child_model : ∀ t, n.models.get? (c ++ "s") = some t → t = c ++ "s"

namespace RegularPair

variable {n : Naming} {p c : String} {data : Dataset}

theorem tableOf_parent (h : n.RegularPair p c) : n.tableOf p = p ++ "s" := by
  unfold tableOf
  dsimp only
  rw [lowerCase_eq_self h.plain_parent]
  cases hm : n.models.get? p with
  | some t => exact h.parent_model t hm
  | none =>
    dsimp only
    rw [h.not_plural]
    rfl

theorem tableOf_children (h : n.RegularPair p c) : n.tableOf (c ++ "s") = c ++ "s" := by
  have hplain : ∀ ch ∈ (c ++ "s").toList, ch.toNat < 0x80 ∧ ch.toLower = ch := by
    intro ch hch
    rw [String.toList_append, List.mem_append] at hch
    rcases hch with hch | hch
    · exact h.plain_child ch hch
    · rw [List.mem_singleton.1 hch]
      decide
  unfold tableOf
  dsimp only
  rw [lowerCase_eq_self hplain]
  cases hm : n.models.get? (c ++ "s") with
  | some t => exact h.child_model t hm
  | none =>
    dsimp only
    rw [isPlural_append_s, if_pos rfl]

/-- From the one table to the other the relation leads to many rows. -/
theorem spec_children (h : n.RegularPair p c) (hc : data.contains (c ++ "s") = true) :
    n.spec (c ++ "s") (p ++ "s") data = ⟨c ++ "s", .hasMany, c ++ "s", p ++ "_id"⟩ := by
  have hkind : n.kind (p ++ "s") (c ++ "s") = .hasMany := by
    rw [h.kind, usualKind, isPlural_append_s, singular_append_s, singular_append_s]
    simp [h.ne.symm]
  unfold spec foreignKeyOf
  rw [hkind, relationTable_eq h.tableOf_children hc, h.foreignKey, singular_append_s]
  rfl

/-- The way back leads to one row, over the same column. -/
theorem spec_parent (h : n.RegularPair p c) (hp : data.contains (p ++ "s") = true) :
    n.spec p (c ++ "s") data = ⟨p, .belongsTo, p ++ "s", p ++ "_id"⟩ := by
  have hkind : n.kind (c ++ "s") p = .belongsTo := by
    rw [h.kind, usualKind, h.not_plural]
    rfl
  unfold spec
  rw [hkind, relationTable_eq h.tableOf_parent hp, singular_of_not_isPlural h.not_plural]

end RegularPair

/-- **The relation to many rows and the one back are inverse**, when the rows at the one end have distinct keys and
none of their ids is null: a row is among those of another iff the way back leads there, and the rows at the many end
that lead somewhere are spread over the rows at the one end as often as they occur. -/
theorem inverse_joins {n : Naming} {p c : String} {data : Dataset} (h : n.RegularPair p c)
    (hp : data.contains (p ++ "s") = true) (hc : data.contains (c ++ "s") = true)
    (hid : ∀ a ∈ data.rows (p ++ "s"), a.get? "id" ≠ some .null)
    (hkeys : ((data.rows (p ++ "s")).filterMap (cellKey? · "id")).Nodup) :
    ∃ children : Row → List Row,
      (∀ a, n.fetch a (c ++ "s") (p ++ "s") data [] = .ofRows (children a)) ∧
      (∀ a ∈ data.rows (p ++ "s"), ∀ b ∈ data.rows (c ++ "s"),
        b ∈ children a ↔ n.fetch b p (c ++ "s") data [] = .record a) ∧
      ∀ b, ((data.rows (p ++ "s")).flatMap children).count b =
        if n.fetch b p (c ++ "s") data [] = .null then 0 else (data.rows (c ++ "s")).count b := by
  have hback : ∀ b, n.fetch b p (c ++ "s") data [] =
      (parentOf? (cellKey? · "id") (cellKey? · (p ++ "_id")) (data.rows (p ++ "s")) b).elim .null .record := by
    intro b
    rw [fetch, h.spec_parent hp]
    exact fetch_belongsTo rfl hid b
  refine ⟨childrenOf (cellKey? · "id") (cellKey? · (p ++ "_id")) (data.rows (c ++ "s")), ?_, ?_, ?_⟩
  · intro a
    rw [fetch, h.spec_children hc]
    exact fetch_hasMany rfl a
  · intro a ha b hb
    rw [mem_childrenOf_iff hkeys ha hb, hback]
    cases parentOf? (cellKey? · "id") (cellKey? · (p ++ "_id")) (data.rows (p ++ "s")) b <;> simp
  · intro b
    rw [count_flatMap_childrenOf hkeys, hback]
    cases parentOf? (cellKey? · "id") (cellKey? · (p ++ "_id")) (data.rows (p ++ "s")) b <;> simp

/-- Two tables with integers and texts as ids and keys, and a product that is there twice. -/
def brandsAndProducts : Dataset := ⟨⟨[
  ("brands", [⟨[("id", .int 1)]⟩, ⟨[("id", .text "two")]⟩]),
  ("products", [⟨[("id", .int 7), ("brand_id", .text "1")]⟩, ⟨[("id", .int 8), ("brand_id", .int 1)]⟩,
    ⟨[("id", .int 8), ("brand_id", .int 1)]⟩, ⟨[("id", .int 9), ("brand_id", .int 2)]⟩])]⟩⟩

theorem inverse_joins_brandsAndProducts :
    let n := Naming.extend .empty .empty
    let brand : Row := ⟨[("id", .int 1)]⟩
    let product : Row := ⟨[("id", .int 8), ("brand_id", .int 1)]⟩
    (n.RegularPair "brand" "product" ∧ brandsAndProducts.contains "brands" = true ∧
      brandsAndProducts.contains "products" = true ∧
      (∀ a ∈ brandsAndProducts.rows "brands", a.get? "id" ≠ some .null) ∧
      ((brandsAndProducts.rows "brands").filterMap (cellKey? · "id")).Nodup) ∧
      n.fetch product "brand" "products" brandsAndProducts [] = .record brand ∧
      ∃ children : Row → List Row,
        (∀ a, n.fetch a "products" "brands" brandsAndProducts [] = .ofRows (children a)) ∧ product ∈ children brand ∧
        ((brandsAndProducts.rows "brands").flatMap children).count product = 2 := by
  intro n brand product
  have hpair : n.RegularPair "brand" "product" := by
    constructor
    case kind => rfl
    case plain_parent => simp
    case plain_child => simp
    case ne => decide
    case not_plural => decide
    case foreignKey => decide
    case parent_model =>
      intro t ht
      have hbrand : n.models.get? "brand" = some "brands" := by decide
      rw [hbrand] at ht
      cases ht
      rfl
    case child_model =>
      intro t ht
      have hproducts : n.models.get? ("product" ++ "s") = none := by decide
      rw [hproducts] at ht
      cases ht
  have hid : ∀ a ∈ brandsAndProducts.rows "brands", a.get? "id" ≠ some .null := by decide
  have hkeys : ((brandsAndProducts.rows "brands").filterMap (cellKey? · "id")).Nodup := by decide
  have hback : n.fetch product "brand" "products" brandsAndProducts [] = .record brand := by decide
  obtain ⟨children, hmany, hinverse, hcount⟩ := inverse_joins hpair (by decide) (by decide) hid hkeys
  refine ⟨⟨hpair, by decide, by decide, hid, hkeys⟩, hback, children, hmany, ?_, ?_⟩
  · exact (hinverse brand (by decide) product (by decide)).2 hback
  · refine (hcount product).trans ?_
    rw [if_neg (by decide)]
    decide

end Naming

end FluentTables
