import FluentTables.Proofs.Relation.InverseJoins

/-!
# Foreign keys and the way back

A table may have a foreign key of its own, and a model its own table; the two are set apart from each other. When
other tables point at `T` by `x_id`, the relation `x` leads to one row over that column wherever it is asked for
(`spec_of_singular`). That it leads to `T` is up to the models, or to a guess among the tables that there are
(`relationTable_eq_iff`). If it does, the relation is the way back of every relation from `T` to many rows
(`wayBack_of_foreignKey`), and a child is never cut off from its parent.
-/

namespace FluentTables

/-- The key that an id is found by. -/
def idKey? (row : Row) : Option String := (row.get? "id").map Value.key

theorem idKey?_of_cellKey? {row : Row} {k : String} (h : cellKey? row "id" = some k) : idKey? row = some k := by
  unfold cellKey? at h
  unfold idKey?
  cases hv : row.get? "id" with
  | none =>
    rw [hv] at h
    cases h
  | some v =>
    rw [hv] at h
    dsimp only at h
    split at h
    · cases h
    · exact h

theorem any_key_iff {row : Row} {k : String} : (row.get? "id").any (·.key == k) = true ↔ idKey? row = some k := by
  unfold idKey?
  cases row.get? "id" <;> simp

/-- A row that is found by its id, unless the id is null, has the key of its id. -/
theorem cellKey?_of_idKey? {row : Row} {k : String} (hid : cellKey? row "id" ≠ none) (h : idKey? row = some k) :
    cellKey? row "id" = some k := by
  obtain ⟨j, hj⟩ := Option.ne_none_iff_exists'.1 hid
  rw [idKey?_of_cellKey? hj] at h
  rw [hj, h]

namespace RelationSpec

variable {r : RelationSpec} {data : Dataset} {children : List Row} {a b : Row}

/-- A relation to one row leads to the first one whose id has the key of the cell. -/
theorem fetch_eq_record_iff (h : r.kind = .belongsTo) (conditions : List Condition) :
    r.fetch b data conditions = .record a ↔ ∃ k, cellKey? b r.joinKey = some k ∧
      (data.rows r.table).find? (fun row => (row.get? "id").any (·.key == k)) = some a := by
  unfold fetch
  rw [h]
  dsimp only
  cases cellKey? b r.joinKey with
  | none => simp
  | some k =>
    dsimp only
    cases hfind : (data.rows r.table).find? fun row => (row.get? "id").any (·.key == k) <;> simp [hfind]

/-- **The way from many rows back to one**: what points at a row leads back to a row with the key of its id, and what
leads back to a row points at it, if its id is not null. -/
theorem wayBack (h : r.kind = .belongsTo) (ha : a ∈ data.rows r.table) (hb : b ∈ children) :
    (b ∈ childrenOf (cellKey? · "id") (cellKey? · r.joinKey) children a →
        ∃ a' ∈ data.rows r.table, r.fetch b data [] = .record a' ∧ idKey? a' = idKey? a) ∧
      (r.fetch b data [] = .record a → cellKey? a "id" ≠ none →
        b ∈ childrenOf (cellKey? · "id") (cellKey? · r.joinKey) children a) := by
  refine ⟨fun hchild => ?_, fun hrecord hid => ?_⟩
  · obtain ⟨-, k, hak, hbk⟩ := mem_childrenOf.1 hchild
    -- The parent itself has the key, so that some row is found.
    have hfound : ((data.rows r.table).find? fun row => (row.get? "id").any (·.key == k)).isSome = true :=
      List.find?_isSome.2 ⟨a, ha, any_key_iff.2 (idKey?_of_cellKey? hak)⟩
    obtain ⟨a', ha'⟩ := Option.isSome_iff_exists.1 hfound
    have hany := List.find?_some ha'
    refine ⟨a', List.mem_of_find?_eq_some ha', (fetch_eq_record_iff h []).2 ⟨k, hbk, ha'⟩, ?_⟩
    rw [any_key_iff.1 hany, idKey?_of_cellKey? hak]
  · obtain ⟨k, hbk, hfind⟩ := (fetch_eq_record_iff h []).1 hrecord
    have hany := List.find?_some hfind
    exact mem_childrenOf.2 ⟨hb, k, cellKey?_of_idKey? hid (any_key_iff.1 hany), hbk⟩

end RelationSpec

namespace Naming

/-- A word in lower case that does not end in an s. -/
structure IsSingularWord (x : String) : Prop where
  plain : ∀ c ∈ x.toList, c.toNat < 0x80 ∧ c.toLower = c
  not_plural : isPlural x = false

variable {n : Naming} {x table : String} {data : Dataset}

/-- A singular relation leads to one row over the column named for it, whatever table it is asked of. -/
theorem spec_of_singular (hkind : n.kind = usualKind) (hx : IsSingularWord x) (owner : String) (data : Dataset) :
    n.spec x owner data = ⟨x, .belongsTo, n.relationTable x data, x ++ "_id"⟩ := by
  have hone : n.kind owner x = .belongsTo := by
    rw [hkind, usualKind, hx.not_plural]
    rfl
  rw [spec, hone, singular_of_not_isPlural hx.not_plural]

/-- **The table of a singular relation**, when there is none named for its plural: the one that the models say, or, if
they say none that is there, the first that stands for the relation. -/
theorem relationTable_eq_iff (hx : IsSingularWord x) (htable : data.contains table = true)
    (habsent : data.contains (x ++ "s") = false) :
    n.relationTable x data = table ↔ n.models.get? x = some table ∨
      (∀ u, n.models.get? x = some u → data.contains u = false) ∧ data.names.find? (standsFor x) = some table := by
  -- A table that is not there is not the one of the foreign key.
  have hne : ∀ u, data.contains u = false → u ≠ table := by
    rintro u hu rfl
    rw [hu] at htable
    cases htable
  have hguess : ∀ u, data.contains u = false →
      ((data.names.find? (standsFor x)).getD u = table ↔ data.names.find? (standsFor x) = some table) := by
    intro u hu
    cases data.names.find? (standsFor x) with
    | none => simp [hne u hu]
    | some t => simp
  unfold relationTable tableOf
  dsimp only
  rw [lowerCase_eq_self hx.plain]
  cases hmodel : n.models.get? x with
  | none =>
    dsimp only
    rw [hx.not_plural, if_neg Bool.false_ne_true, habsent, if_neg Bool.false_ne_true, hguess _ habsent]
    simp
  | some u =>
    dsimp only
    cases hu : data.contains u with
    | true => simp [hu]
    | false =>
      rw [if_neg Bool.false_ne_true, hguess u hu]
      simp [hne u hu, hu]

/-- **Foreign keys and the relations back**: when tables point at a table by `x_id`, the relation `x` leads to one row
over that column, on every table. Its table is the one that is pointed at just if the models say so, or say no table
that is there and it is the first to stand for the relation. If it is, what any row of the table is related to leads
back to a row with the key of its id, and what leads back to a row is related to it. -/
theorem wayBack_of_foreignKey (models foreignKeys : OrderedMap String) (data : Dataset) (hx : IsSingularWord x)
    (hkey : (extend models foreignKeys).foreignKeys.get? table = some (x ++ "_id"))
    (htable : data.contains table = true) (habsent : data.contains (x ++ "s") = false) :
    let n := extend models foreignKeys
    (∀ owner, n.spec x owner data = ⟨x, .belongsTo, n.relationTable x data, x ++ "_id"⟩) ∧
      (n.relationTable x data = table ↔ n.models.get? x = some table ∨
        (∀ u, n.models.get? x = some u → data.contains u = false) ∧ data.names.find? (standsFor x) = some table) ∧
      (n.relationTable x data = table → ∀ relation, n.kind table relation = .hasMany →
        ∃ children : Row → List Row, (∀ a, n.fetch a relation table data [] = .ofRows (children a)) ∧
          ∀ a ∈ data.rows table, ∀ b ∈ data.rows (n.relationTable relation data),
            (b ∈ children a → ∃ a' ∈ data.rows table,
              n.fetch b x (n.relationTable relation data) data [] = .record a' ∧ idKey? a' = idKey? a) ∧
            (n.fetch b x (n.relationTable relation data) data [] = .record a → cellKey? a "id" ≠ none →
              b ∈ children a)) := by
  intro n
  have hspec : ∀ owner, n.spec x owner data = ⟨x, .belongsTo, n.relationTable x data, x ++ "_id"⟩ := fun owner =>
    spec_of_singular rfl hx owner data
  refine ⟨hspec, relationTable_eq_iff hx htable habsent, fun hparent relation hmany => ?_⟩
  have hchildren : n.spec relation table data = ⟨relation, .hasMany, n.relationTable relation data, x ++ "_id"⟩ := by
    unfold spec foreignKeyOf
    rw [hmany, hkey]
    rfl
  refine ⟨childrenOf (cellKey? · "id") (cellKey? · (x ++ "_id")) (data.rows (n.relationTable relation data)), ?_,
    fun a ha b hb => ?_⟩
  · intro a
    rw [fetch, hchildren]
    exact fetch_hasMany rfl a
  · rw [fetch, hspec, hparent]
    exact RelationSpec.wayBack (r := ⟨x, .belongsTo, table, x ++ "_id"⟩) rfl ha hb

/-- Pets with the people they belong to, one of whom has the text of an id. -/
def peopleAndPets : Dataset := ⟨⟨[
  ("people", [⟨[("id", .int 1)]⟩, ⟨[("id", .text "2")]⟩]),
  ("pets", [⟨[("id", .int 7), ("person_id", .text "1")]⟩, ⟨[("id", .int 8), ("person_id", .int 2)]⟩])]⟩⟩

theorem wayBack_of_foreignKey_pets :
    let models : OrderedMap String := ⟨[("Person", "people")]⟩
    let foreignKeys : OrderedMap String := ⟨[("people", "person_id")]⟩
    let n := extend models foreignKeys
    let person : Row := ⟨[("id", .text "2")]⟩
    let pet : Row := ⟨[("id", .int 8), ("person_id", .int 2)]⟩
    (IsSingularWord "person" ∧ n.foreignKeys.get? "people" = some ("person" ++ "_id") ∧
        peopleAndPets.contains "people" = true ∧ peopleAndPets.contains ("person" ++ "s") = false) ∧
      n.relationTable "person" peopleAndPets = "people" ∧ n.kind "people" "pets" = .hasMany ∧
      (∃ children : Row → List Row, (∀ a, n.fetch a "pets" "people" peopleAndPets [] = .ofRows (children a)) ∧
        pet ∈ children person) ∧
      n.spec "person" "pets" peopleAndPets = ⟨"person", .belongsTo, "people", "person_id"⟩ := by
  intro models foreignKeys n person pet
  have hperson : IsSingularWord "person" := ⟨by simp, by decide⟩
  have hkey : n.foreignKeys.get? "people" = some ("person" ++ "_id") := by decide
  have hmany : n.kind "people" "pets" = .hasMany := by decide
  have hmodel : n.models.get? "person" = some "people" := by decide
  obtain ⟨hspec, htable, hback⟩ := wayBack_of_foreignKey models foreignKeys peopleAndPets hperson hkey
    (by decide) (by decide)
  have hpeople : n.relationTable "person" peopleAndPets = "people" := htable.2 (Or.inl hmodel)
  obtain ⟨children, hfetch, hchildren⟩ := hback hpeople "pets" hmany
  have hpet : pet ∈ children person :=
    (hchildren person (by decide) pet (by decide)).2 (by decide) (by decide)
  exact ⟨⟨hperson, hkey, by decide, by decide⟩, hpeople, hmany, ⟨children, hfetch, hpet⟩,
    (hspec "pets").trans (by rw [hpeople]; rfl)⟩

/-- A foreign key alone does not lead back: people have their pets by a key that is configured, but no model says that
a person is among the people, and a person is looked for elsewhere. -/
theorem parents_not_reached :
    let n := extend .empty ⟨[("people", "person_id")]⟩
    let person : Row := ⟨[("id", .int 1)]⟩
    let pet : Row := ⟨[("id", .int 7), ("person_id", .text "1")]⟩
    (IsSingularWord "person" ∧ n.foreignKeys.get? "people" = some ("person" ++ "_id") ∧
        peopleAndPets.contains "people" = true ∧ peopleAndPets.contains ("person" ++ "s") = false) ∧
      n.fetch person "pets" "people" peopleAndPets [] = .ofRows [pet] ∧
      n.spec "person" "pets" peopleAndPets = ⟨"person", .belongsTo, "persons", "person_id"⟩ ∧
      n.fetch pet "person" "pets" peopleAndPets [] = .null := by
  intro n person pet
  exact ⟨⟨⟨by simp, by decide⟩, by decide, by decide, by decide⟩, by decide, by decide, by decide⟩

end Naming

end FluentTables
