import FluentTables.Autofill
import FluentTables.Proofs.Identifiers

/-!
# How rows are filled in

A blank cell takes the value of its column (`fill?`), and every other cell stays: with columns of distinct names the
cell of a column in a filled row is the given value, or else the filling, or else the blank that was there
(`get?_fillRow`). Rows are filled one after another and only the id that comes next passes between them
(`idAt`, `getElem?_filledBatch`); what is wrong with them never changes how they are filled
(`map_fst_fillRows`). So rows are accepted iff none of them has a violation against the filled rows before it, and
then the filled rows come out (`process_eq_ok_iff`).
-/

namespace FluentTables.Autofill

variable {now : String} {columns : List Column}

/-! ## One cell -/

/-- The value that fills a blank cell of a column when the next id is `next`. -/
def fill? (now : String) (next : Int64) (c : Column) : Option Value :=
  if c.isCounter then some (.int next) else if c.autoFill then some (.text now) else c.filling?

theorem given?_eq_some_iff {r : Row} {k : String} {v : Value} :
    given? r k = some v ↔ r.get? k = some v ∧ v.isBlank = false := by
  simp only [given?, Option.filter_eq_some_iff, Bool.not_eq_true']

theorem fill?_of_not_isCounter {c : Column} (h : c.isCounter = false) (n m : Int64) :
    fill? now n c = fill? now m c := by
  simp [fill?, h]

/-- No column is filled with null. -/
theorem isNull_fill? {n : Int64} {c : Column} {v : Value} (h : fill? now n c = some v) : v.isNull = false := by
  unfold fill? at h
  split at h
  · cases h; rfl
  · split at h
    · cases h; rfl
    · unfold Column.filling? at h
      simpa using (Option.filter_eq_some_iff.1 h).2

/-- A column goes without a value only if it is nullable or nothing fills it. -/
theorem isOptional_iff (now : String) (n : Int64) {c : Column} :
    Column.isOptional c = true ↔ (fill? now n c).isSome = true ∨ c.nullable = true := by
  unfold Column.isOptional fill?
  cases c.isCounter <;> cases c.autoFill <;> simp

theorem name_of_isCounter {c : Column} (h : c.isCounter = true) : c.name = "id" := by
  simp only [Column.isCounter, Bool.and_eq_true, beq_iff_eq] at h
  exact h.1

/-! ## One column of a row -/

theorem row_fillColumn (input : Row) (f : Filling) (c : Column) :
    (fillColumn now input f c).row =
      if (given? input c.name).isSome then f.row
      else match fill? now f.next c with
        | some v => f.row.insert c.name v
        | none => f.row := by
  unfold fillColumn fill?
  cases given? input c.name with
  | some v => rfl
  | none =>
    cases c.isCounter with
    | true => rfl
    | false =>
      cases c.autoFill with
      | true => rfl
      | false => cases c.filling? <;> rfl

theorem next_fillColumn (input : Row) (f : Filling) (c : Column) :
    (fillColumn now input f c).next =
      if c.isCounter && (given? input c.name).isNone then nextId f.next else f.next := by
  unfold fillColumn
  cases given? input c.name with
  | some v => simp
  | none =>
    cases c.isCounter with
    | true => rfl
    | false =>
      cases c.autoFill with
      | true => rfl
      | false => cases c.filling? <;> rfl

theorem get?_fillColumn_ne {c : Column} {k : String} (h : c.name ≠ k) (input : Row) (f : Filling) :
    (fillColumn now input f c).row.get? k = f.row.get? k := by
  rw [row_fillColumn]
  split
  · rfl
  · split
    · exact OrderedMap.get?_insert_ne _ h _
    · rfl

/-- No column touches a cell with a given value. -/
theorem get?_fillColumn_of_given {input : Row} {k : String} {v : Value} (h : given? input k = some v)
    (f : Filling) (c : Column) : (fillColumn now input f c).row.get? k = f.row.get? k := by
  by_cases hk : c.name = k
  · subst hk
    rw [row_fillColumn, h]
    rfl
  · exact get?_fillColumn_ne hk input f

/-! ## All columns of a row -/

/-- A cell that no column names stays. -/
theorem get?_foldl_fillColumn_of_not_mem (now : String) {k : String} (input : Row) :
    ∀ {cs : List Column} (f : Filling), k ∉ cs.map Column.name →
      (cs.foldl (fillColumn now input) f).row.get? k = f.row.get? k
  | [], _, _ => rfl
  | c :: cs, f, h => by
    simp only [List.map_cons, List.mem_cons, not_or] at h
    rw [List.foldl_cons, get?_foldl_fillColumn_of_not_mem now input _ h.2, get?_fillColumn_ne (Ne.symm h.1)]

theorem get?_foldl_fillColumn_of_given {input : Row} {k : String} {v : Value} (h : given? input k = some v) :
    ∀ (cs : List Column) (f : Filling), (cs.foldl (fillColumn now input) f).row.get? k = f.row.get? k
  | [], _ => rfl
  | c :: cs, f => by
    rw [List.foldl_cons, get?_foldl_fillColumn_of_given h cs, get?_fillColumn_of_given h]

/-- A value that was given stays. -/
theorem get?_fillRow_of_given (next : Int64) {input : Row} {k : String} {v : Value} (h : given? input k = some v) :
    (fillRow now columns next input).row.get? k = some v :=
  (get?_foldl_fillColumn_of_given h columns ⟨input, next⟩).trans (given?_eq_some_iff.1 h).1

/-- Columns that fill in alike fill a row in alike. -/
theorem fillRow_map {g : Column → Column} (hg : ∀ input f c, fillColumn now input f (g c) = fillColumn now input f c)
    (next : Int64) (input : Row) : fillRow now (columns.map g) next input = fillRow now columns next input := by
  rw [fillRow, fillRow, List.foldl_map]
  simp only [hg]

/-- Without a counter the next id stays. -/
theorem next_foldl_fillColumn_of_not_any (input : Row) :
    ∀ {cs : List Column} (f : Filling), cs.any Column.isCounter = false →
      (cs.foldl (fillColumn now input) f).next = f.next
  | [], _, _ => rfl
  | c :: cs, f, h => by
    simp only [List.any_cons, Bool.or_eq_false_iff] at h
    rw [List.foldl_cons, next_foldl_fillColumn_of_not_any input _ h.2, next_fillColumn, h.1]
    rfl

/-- Columns without the name of the counter have no counter. -/
theorem any_isCounter_of_not_mem {cs : List Column} (h : "id" ∉ cs.map Column.name) :
    cs.any Column.isCounter = false := by
  rw [List.any_eq_false]
  intro c hc hcount
  exact h (name_of_isCounter hcount ▸ List.mem_map_of_mem hc)

/-- A row that has a counter takes at most one id. -/
theorem next_fillRow (hn : (columns.map Column.name).Nodup) (next : Int64) (input : Row) :
    (fillRow now columns next input).next =
      if columns.any Column.isCounter && (given? input "id").isNone then nextId next else next := by
  unfold fillRow
  generalize hf : (⟨input, next⟩ : Filling) = f
  have hnext : f.next = next := by rw [← hf]
  rw [← hnext]
  clear hf hnext
  induction columns generalizing f with
  | nil => rfl
  | cons c cs ih =>
    simp only [List.map_cons, List.nodup_cons] at hn
    rw [List.foldl_cons]
    cases hc : c.isCounter with
    | true =>
      -- The name of the counter does not come again.
      rw [name_of_isCounter hc] at hn
      rw [next_foldl_fillColumn_of_not_any input _ (any_isCounter_of_not_mem hn.1), next_fillColumn, hc,
        name_of_isCounter hc]
      simp [hc]
    | false =>
      have hkeep : (fillColumn now input f c).next = f.next := by rw [next_fillColumn, hc]; rfl
      rw [ih hn.2, hkeep, List.any_cons, hc, Bool.false_or]

/-- The id that comes next never falls. -/
theorem next_fillColumn_ge (now : String) (input : Row) (f : Filling) (c : Column) :
    f.next.toInt ≤ (fillColumn now input f c).next.toInt := by
  rw [next_fillColumn]
  split
  · exact toInt_le_nextId _
  · exact Int.le_refl _

theorem next_foldl_fillColumn_ge (now : String) (input : Row) :
    ∀ (cs : List Column) (f : Filling), f.next.toInt ≤ (cs.foldl (fillColumn now input) f).next.toInt
  | [], _ => Int.le_refl _
  | c :: cs, f => Int.le_trans (next_fillColumn_ge now input f c) (next_foldl_fillColumn_ge now input cs _)

/-- **The cell of a column in a filled row**: what was given, or else the filling, or else what was there. -/
theorem get?_fillRow (hn : (columns.map Column.name).Nodup) {c : Column} (hc : c ∈ columns) (next : Int64)
    (input : Row) :
    (fillRow now columns next input).row.get? c.name =
      ((given? input c.name).or (fill? now next c)).or (input.get? c.name) := by
  obtain ⟨pre, post, rfl⟩ := List.append_of_mem hc
  rw [List.map_append, List.map_cons, List.nodup_append, List.nodup_cons] at hn
  obtain ⟨-, ⟨hpost, -⟩, hdisj⟩ := hn
  have hpre : c.name ∉ pre.map Column.name := fun h => hdisj _ h _ List.mem_cons_self rfl
  unfold fillRow
  rw [List.foldl_append, List.foldl_cons, get?_foldl_fillColumn_of_not_mem now input _ hpost, row_fillColumn]
  have hrow := get?_foldl_fillColumn_of_not_mem now input ⟨input, next⟩ hpre
  -- The columns before `c` take no id that `c` would take.
  have hfill : fill? now (pre.foldl (fillColumn now input) ⟨input, next⟩).next c = fill? now next c := by
    cases hcount : c.isCounter with
    | true =>
      rw [name_of_isCounter hcount] at hpre
      rw [next_foldl_fillColumn_of_not_any input _ (any_isCounter_of_not_mem hpre)]
    | false => exact fill?_of_not_isCounter hcount _ _
  rw [hfill]
  cases hg : given? input c.name with
  | some v => simpa [hrow] using (given?_eq_some_iff.1 hg).1
  | none =>
    cases fill? now next c with
    | some v => simp
    | none => simpa using hrow

/-- A value of a filled row that was not given is the filling. -/
theorem fill?_of_given?_fillRow (hn : (columns.map Column.name).Nodup) {c : Column} (hc : c ∈ columns) {next : Int64}
    {input : Row} {v : Value} (hv : given? (fillRow now columns next input).row c.name = some v)
    (h : given? input c.name = none) : fill? now next c = some v := by
  obtain ⟨hget, hblank⟩ := given?_eq_some_iff.1 hv
  rw [get?_fillRow hn hc, h, Option.none_or] at hget
  cases hf : fill? now next c with
  | some w => rwa [hf] at hget
  | none =>
    rw [hf, Option.none_or] at hget
    rw [given?_eq_some_iff.2 ⟨hget, hblank⟩] at h
    cases h

/-! ## Rows one after another -/

/-- Rows filled in one after another. -/
def filledRows (now : String) (columns : List Column) : (next : Int64) → List Row → List Row
  | _, [] => []
  | next, input :: r =>
    let f := fillRow now columns next input
    f.row :: filledRows now columns f.next r

/-- The id that comes next after some rows. -/
def counterAfter (now : String) (columns : List Column) (next : Int64) (rows : List Row) : Int64 :=
  rows.foldl (fun n input => (fillRow now columns n input).next) next

theorem counterAfter_append (next : Int64) (xs ys : List Row) :
    counterAfter now columns next (xs ++ ys) = counterAfter now columns (counterAfter now columns next xs) ys := by
  simp [counterAfter]

theorem counterAfter_ge (now : String) (columns : List Column) :
    ∀ (next : Int64) (rows : List Row), next.toInt ≤ (counterAfter now columns next rows).toInt
  | _, [] => Int.le_refl _
  | next, input :: r =>
    Int.le_trans (next_foldl_fillColumn_ge now input columns ⟨input, next⟩)
      (counterAfter_ge now columns (fillRow now columns next input).next r)

theorem counterAfter_take_succ {next : Int64} {rows : List Row} {i : Nat} {input : Row} (h : rows[i]? = some input) :
    counterAfter now columns next (rows.take (i + 1)) =
      (fillRow now columns (counterAfter now columns next (rows.take i)) input).next := by
  rw [List.take_add_one, h, counterAfter_append]
  rfl

/-- What is wrong with rows does not change how they are filled in. -/
theorem map_fst_fillRows (next : Int64) (earlier rows : List Row) :
    (fillRows now columns next earlier rows).map (·.1) = filledRows now columns next rows := by
  induction rows generalizing next earlier with
  | nil => rfl
  | cons input r ih => simp only [fillRows, filledRows, List.map_cons, ih]

theorem length_filledRows (next : Int64) (rows : List Row) :
    (filledRows now columns next rows).length = rows.length := by
  induction rows generalizing next with
  | nil => rfl
  | cons input r ih => simp [filledRows, ih]

/-- A row is filled in with the id that comes next after the rows before it. -/
theorem getElem?_filledRows (next : Int64) (rows : List Row) (i : Nat) :
    (filledRows now columns next rows)[i]? =
      rows[i]?.map fun input => (fillRow now columns (counterAfter now columns next (rows.take i)) input).row := by
  induction rows generalizing next i with
  | nil => simp [filledRows]
  | cons input r ih =>
    cases i with
    | zero => simp [filledRows, counterAfter]
    | succ i => simp [filledRows, counterAfter, ih]

/-- The order of the earlier rows does not matter for what is wrong with a row. -/
theorem rowViolations_reverse (earlier : List Row) (input : Row) :
    rowViolations columns earlier.reverse input = rowViolations columns earlier input := by
  unfold rowViolations columnViolations
  simp

/-- What is wrong with a row is said of the filled rows before it. -/
theorem getElem?_map_snd_fillRows (next : Int64) (earlier rows : List Row) (i : Nat) :
    ((fillRows now columns next earlier rows).map (·.2))[i]? =
      rows[i]?.map fun input =>
        rowViolations columns (((filledRows now columns next rows).take i).reverse ++ earlier) input := by
  induction rows generalizing next earlier i with
  | nil => simp [fillRows]
  | cons input r ih =>
    cases i with
    | zero => simp [fillRows]
    | succ i => simp [fillRows, filledRows, ih]

/-- The violations of a batch, row by row. -/
def violationsOf (now : String) (columns : List Column) (rows : List Row) : List (List Violation) :=
  (fillRows now columns (nextId (maxId rows)) [] rows).map (·.2)

/-- The rows of a batch filled in, whatever is wrong with them. -/
def filledBatch (now : String) (columns : List Column) (rows : List Row) : List Row :=
  filledRows now columns (nextId (maxId rows)) rows

/-- The id that comes next when a batch has been filled in up to row `i`. -/
def idAt (now : String) (columns : List Column) (rows : List Row) (i : Nat) : Int64 :=
  counterAfter now columns (nextId (maxId rows)) (rows.take i)

theorem getElem?_filledBatch (rows : List Row) (i : Nat) :
    (filledBatch now columns rows)[i]? =
      rows[i]?.map fun input => (fillRow now columns (idAt now columns rows i) input).row :=
  getElem?_filledRows _ _ _

theorem length_filledBatch (rows : List Row) : (filledBatch now columns rows).length = rows.length :=
  length_filledRows _ _

theorem idAt_succ {rows : List Row} {i : Nat} {input : Row} (h : rows[i]? = some input) :
    idAt now columns rows (i + 1) = (fillRow now columns (idAt now columns rows i) input).next :=
  counterAfter_take_succ h

section Ids

variable (now : String) (columns : List Column) (rows : List Row)

/-- The next id never falls from row to row. -/
theorem idAt_mono {i j : Nat} (h : i ≤ j) : (idAt now columns rows i).toInt ≤ (idAt now columns rows j).toInt := by
  obtain ⟨k, rfl⟩ := Nat.le.dest h
  rw [idAt, idAt, List.take_add, counterAfter_append]
  exact counterAfter_ge now columns _ _

/-- The next id is above every id that was given, as far as there is one above. -/
theorem nextId_maxId_le_idAt (i : Nat) : (nextId (maxId rows)).toInt ≤ (idAt now columns rows i).toInt :=
  counterAfter_ge now columns _ _

end Ids

theorem getElem?_violationsOf (rows : List Row) (i : Nat) :
    (violationsOf now columns rows)[i]? =
      rows[i]?.map fun input => rowViolations columns ((filledBatch now columns rows).take i) input := by
  rw [violationsOf, getElem?_map_snd_fillRows]
  simp only [List.append_nil, rowViolations_reverse]
  rfl

/-- The violations by the number of their row, without the rows that have none. -/
def numbered (vs : List (List Violation)) : List (Nat × List Violation) :=
  ((List.range vs.length).zip vs).filter fun e => !e.2.isEmpty

theorem isEmpty_numbered_iff (vs : List (List Violation)) : (numbered vs).isEmpty = true ↔ ∀ v ∈ vs, v = [] := by
  rw [List.isEmpty_iff, numbered, List.filter_eq_nil_iff]
  constructor
  · intro h v hv
    have hsnd : ((List.range vs.length).zip vs).map Prod.snd = vs := List.map_snd_zip (by simp)
    rw [← hsnd] at hv
    obtain ⟨e, he, rfl⟩ := List.mem_map.1 hv
    simpa using h e he
  · intro h e he
    simp [h e.2 (List.of_mem_zip he).2]

/-- Filling and checking do not look at each other. -/
theorem process_eq (rows : List Row) :
    process now rows columns =
      if (numbered (violationsOf now columns rows)).isEmpty then .ok (filledBatch now columns rows)
      else .error ⟨numbered (violationsOf now columns rows), filledBatch now columns rows⟩ := by
  simp only [process, numbered, violationsOf, filledBatch, List.length_map, ← map_fst_fillRows _ []]

/-- **Rows are accepted iff no row has a violation**, and then the filled rows come out. -/
theorem process_eq_ok_iff {rows out : List Row} :
    process now rows columns = .ok out ↔
      out = filledBatch now columns rows ∧
        ∀ i input, rows[i]? = some input → rowViolations columns (out.take i) input = [] := by
  have hgood : (numbered (violationsOf now columns rows)).isEmpty = true ↔
      ∀ i input, rows[i]? = some input → rowViolations columns ((filledBatch now columns rows).take i) input = [] := by
    rw [isEmpty_numbered_iff]
    constructor
    · intro h i input hi
      have hv : (violationsOf now columns rows)[i]? = _ := getElem?_violationsOf rows i
      rw [hi] at hv
      exact h _ (List.mem_of_getElem? hv)
    · intro h v hv
      obtain ⟨i, hi⟩ := List.getElem?_of_mem hv
      rw [getElem?_violationsOf, Option.map_eq_some_iff] at hi
      obtain ⟨input, hinput, rfl⟩ := hi
      exact h i input hinput
  rw [process_eq]
  split
  · next h =>
    constructor
    · intro heq
      cases heq
      exact ⟨rfl, hgood.1 h⟩
    · rintro ⟨rfl, -⟩
      rfl
  · next h =>
    constructor
    · intro heq
      cases heq
    · rintro ⟨rfl, hall⟩
      exact absurd (hgood.2 hall) h

end FluentTables.Autofill
