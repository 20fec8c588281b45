import FluentTables.Proofs.Autofill.Reports

/-!
# Later rows do not change what earlier rows are told

The ids that a batch makes begin above the largest id of all its rows, so rows that are added at the end change how
the rows before them are filled in. They change nothing but these ids (`alike_fillRow`). Nor can a check tell the
difference: an id that was made equals one that was given only when the ids have run out, and then it is the last id
there is, however many rows there are (`same_made_iff`). So a row is told the same with and without the rows after
it (`reported_append`). Columns may have the same name here.
-/

namespace FluentTables.Autofill

variable {now : String} {columns : List Column} {xs ys rows : List Row} {n m : Int64} {i : Nat} {input : Row}

/-! ## Rows that differ in made ids -/

/-- Rows with the same cells, except that one may have an id from `n` on where the other has one from `m` on. -/
def Alike (n m : Int64) (a b : Row) : Prop :=
  ∀ k, a.get? k = b.get? k ∨ k = "id" ∧ ∃ g h : Int64, a.get? k = some (.int g) ∧ b.get? k = some (.int h) ∧
    n.toInt ≤ g.toInt ∧ m.toInt ≤ h.toInt

theorem Alike.insert {a b : Row} (h : Alike n m a b) (k : String) (v : Value) :
    Alike n m (a.insert k v) (b.insert k v) := by
  intro j
  by_cases hk : k = j
  · subst hk
    exact Or.inl (by rw [OrderedMap.get?_insert_self, OrderedMap.get?_insert_self])
  · rw [OrderedMap.get?_insert_ne _ hk, OrderedMap.get?_insert_ne _ hk]
    exact h j

theorem Alike.insert_id {a b : Row} (hab : Alike n m a b) {g h : Int64} (hg : n.toInt ≤ g.toInt)
    (hh : m.toInt ≤ h.toInt) : Alike n m (a.insert "id" (.int g)) (b.insert "id" (.int h)) := by
  intro j
  by_cases hk : "id" = j
  · subst hk
    exact Or.inr ⟨rfl, g, h, OrderedMap.get?_insert_self .., OrderedMap.get?_insert_self .., hg, hh⟩
  · rw [OrderedMap.get?_insert_ne _ hk, OrderedMap.get?_insert_ne _ hk]
    exact hab j

/-- A column fills in what may differ only if it counts. -/
theorem Alike.fillColumn {f g : Filling} (h : Alike n m f.row g.row) (hf : n.toInt ≤ f.next.toInt)
    (hg : m.toInt ≤ g.next.toInt) (input : Row) (c : Column) :
    Alike n m (fillColumn now input f c).row (fillColumn now input g c).row := by
  rw [row_fillColumn, row_fillColumn]
  split
  · exact h
  · cases hcount : c.isCounter with
    | true =>
      rw [name_of_isCounter hcount]
      simpa [fill?, hcount] using h.insert_id hf hg
    | false =>
      rw [fill?_of_not_isCounter hcount g.next f.next]
      cases fill? now f.next c with
      | some v => exact h.insert c.name v
      | none => exact h

theorem Alike.foldl_fillColumn (input : Row) :
    ∀ (cs : List Column) {f g : Filling}, Alike n m f.row g.row → n.toInt ≤ f.next.toInt → m.toInt ≤ g.next.toInt →
      Alike n m (cs.foldl (Autofill.fillColumn now input) f).row (cs.foldl (Autofill.fillColumn now input) g).row
  | [], _, _, h, _, _ => h
  | c :: cs, f, g, h, hf, hg =>
    Alike.foldl_fillColumn input cs (h.fillColumn hf hg input c)
      (Int.le_trans hf (next_fillColumn_ge now input f c)) (Int.le_trans hg (next_fillColumn_ge now input g c))

/-- A row that is filled in at two places of the counter comes out the same up to ids that were made. -/
theorem alike_fillRow {f g : Int64} (hf : n.toInt ≤ f.toInt) (hg : m.toInt ≤ g.toInt) (input : Row) :
    Alike n m (fillRow now columns f input).row (fillRow now columns g input).row :=
  Alike.foldl_fillColumn input columns (fun _ => Or.inl rfl) hf hg

/-! ## Made ids against given ones -/

/-- An id that a batch made equals one that was given only if both are the last id there is. -/
theorem same_made_iff {v : Value} (hmem : input ∈ rows) (hv : input.get? "id" = some v) {g : Int64}
    (hg : (nextId (maxId rows)).toInt ≤ g.toInt) : (Value.int g).same v = true ↔ v = .int Int64.maxValue := by
  have htop := g.toInt_le
  rw [toInt_nextId] at hg
  constructor
  · intro hsame
    cases v with
    | int k =>
      obtain rfl : g = k := by simpa [Value.same] using hsame
      have hle : g.toInt ≤ (maxId rows).toInt := le_maxId hmem hv rfl
      exact congrArg Value.int (Int64.toInt_inj.1 (by omega))
    | _ => simp [Value.same] at hsame
  · rintro rfl
    have hle : Int64.maxValue.toInt ≤ (maxId rows).toInt := le_maxId hmem hv rfl
    obtain rfl : g = Int64.maxValue := Int64.toInt_inj.1 (by omega)
    simp [Value.same]

/-- A check does not tell rows apart that differ in made ids. -/
theorem Alike.any_same {a b : Row} (h : Alike (nextId (maxId xs)) (nextId (maxId ys)) a b) (hx : input ∈ xs)
    (hy : input ∈ ys) {k : String} {v : Value} (hv : input.get? k = some v) :
    (a.get? k).any (·.same v) = (b.get? k).any (·.same v) := by
  rcases h k with heq | ⟨rfl, g, h, ha, hb, hg, hh⟩
  · rw [heq]
  · rw [ha, hb, Option.any_some, Option.any_some, Bool.eq_iff_iff, same_made_iff hx hv hg, same_made_iff hy hv hh]

/-! ## Batches with more rows -/

/-- The rows that come out of a batch and of a longer one differ only in made ids. -/
theorem map_take_filledBatch_append {α : Type} {p : Row → α} (hi : i ≤ xs.length)
    (hp : ∀ a b, Alike (nextId (maxId (xs ++ ys))) (nextId (maxId xs)) a b → p a = p b) :
    ((filledBatch now columns (xs ++ ys)).take i).map p = ((filledBatch now columns xs).take i).map p := by
  refine List.ext_getElem? fun j => ?_
  rw [List.getElem?_map, List.getElem?_map, List.getElem?_take, List.getElem?_take]
  split
  · next hj =>
    have hlt : j < xs.length := Nat.lt_of_lt_of_le hj hi
    rw [getElem?_filledBatch, getElem?_filledBatch, List.getElem?_append_left hlt, List.getElem?_eq_getElem hlt]
    exact congrArg some (hp _ _ (alike_fillRow (nextId_maxId_le_idAt ..) (nextId_maxId_le_idAt ..) _))
  · rfl

theorem columnViolations_append (hi : xs[i]? = some input) (c : Column) :
    columnViolations ((filledBatch now columns (xs ++ ys)).take i) input c =
      columnViolations ((filledBatch now columns xs).take i) input c := by
  have hle : i ≤ xs.length := Nat.le_of_lt (List.getElem?_eq_some_iff.1 hi).1
  have hmem : input ∈ xs := List.mem_of_getElem? hi
  unfold columnViolations
  cases hg : given? input c.name with
  | none => rfl
  | some v =>
    have hcell := (given?_eq_some_iff.1 hg).1
    -- The check looks at the earlier rows only to find an equal value.
    have hmap : ((filledBatch now columns (xs ++ ys)).take i).map (fun r => (r.get? c.name).any (·.same v)) =
        ((filledBatch now columns xs).take i).map fun r => (r.get? c.name).any (·.same v) :=
      map_take_filledBatch_append hle fun a b h => h.any_same (List.mem_append_left ys hmem) hmem hcell
    have hany := congrArg (·.any id) hmap
    simp only [List.any_map, Function.id_comp] at hany
    dsimp only
    rw [hany]

theorem rowViolations_append (hi : xs[i]? = some input) :
    rowViolations columns ((filledBatch now columns (xs ++ ys)).take i) input =
      rowViolations columns ((filledBatch now columns xs).take i) input :=
  congrArg (fun f => columns.flatMap f) (funext (columnViolations_append hi))

/-! ## What a row is told -/

/-- What a batch was told about a row; nothing about accepted rows. -/
def reported : Except Rejection (List Row) → Nat → List String
  | .ok _, _ => []
  | .error e, i => e.messagesFor i

/-- Under the number of a row stand its violations. -/
theorem lookup_numbered (vs : List (List Violation)) (i : Nat) : ((numbered vs).lookup i).getD [] = vs.getD i [] := by
  rw [numbered_eq]
  by_cases hi : i ∈ badRows vs
  · rw [List.lookup_graph _ hi, Option.getD_some]
  · have hnone : ((badRows vs).map fun i => (i, vs.getD i [])).lookup i = none := by
      rw [List.lookup_eq_none_iff]
      intro p hp
      obtain ⟨j, hj, rfl⟩ := List.mem_map.1 hp
      have hne : i ≠ j := fun heq => hi (heq ▸ hj)
      simpa using hne
    rw [hnone, Option.getD_none]
    rw [mem_badRows_iff, not_not] at hi
    exact hi.symm

theorem reported_process (now : String) (columns : List Column) (rows : List Row) (i : Nat) :
    reported (process now rows columns) i = ((violationsOf now columns rows).getD i []).map Violation.message := by
  rw [process_eq]
  split
  · next hgood =>
    rw [← lookup_numbered, List.isEmpty_iff.1 hgood]
    rfl
  · rw [reported, Rejection.messagesFor, lookup_numbered]

/-- **Later rows do not change what earlier rows are told.** -/
theorem reported_append (now : String) (columns : List Column) (ys : List Row) (hi : i < xs.length) :
    reported (process now (xs ++ ys) columns) i = reported (process now xs columns) i := by
  have hrow : xs[i]? = some xs[i] := List.getElem?_eq_getElem hi
  rw [reported_process, reported_process, List.getD_eq_getElem?_getD, List.getD_eq_getElem?_getD, getElem?_violationsOf,
    getElem?_violationsOf, List.getElem?_append_left hi, hrow, Option.map_some, Option.map_some,
    rowViolations_append hrow]

/-- Two unique columns of the name of the counter. -/
def twiceCounted : List Column :=
  [{ Column.id with unique := true }, { name := "id", type := .bigint, nullable := true, unique := true }]

/-- The last id there is, after a row that gives none: there is no other left for that row. -/
def lastIdGiven : List Row := [.empty, ⟨[("id", .int Int64.maxValue)]⟩]

theorem reported_append_lastIdGiven :
    1 < lastIdGiven.length ∧
      reported (process "<now>" (lastIdGiven ++ [⟨[("id", .text "1e30")]⟩]) twiceCounted) 1 =
        reported (process "<now>" lastIdGiven twiceCounted) 1 ∧
      reported (process "<now>" lastIdGiven twiceCounted) 1 =
        ["Value '9223372036854775807' in field 'id' must be unique",
          "Value '9223372036854775807' in field 'id' must be unique"] :=
  ⟨by decide, reported_append "<now>" twiceCounted [⟨[("id", .text "1e30")]⟩] (by decide), by decide +kernel⟩

end FluentTables.Autofill
