import FluentTables.Proofs.Autofill.FilledCells
import Mathlib.Data.List.Forall2

/-!
# What a rejection reports

The cell of a column violates it in three ways (`Violates`): there is no value where one is asked for, the value is too
long, or a row before it has been filled in with an equal one. The check of a column finds these and nothing else
(`mem_columnViolations_iff`). So a batch is rejected iff one of its rows has a violation, and the rejection then
carries all rows and numbers those with a violation, upwards, each with what it violates in the order of the columns
(`process_reports`).
-/

namespace FluentTables

/-- The place of a violation among those of one column. -/
def Violation.rank : Violation → Nat
  | required _ => 0
  | tooLong _ _ => 1
  | notUnique _ _ => 2

/-- The text that tells of a violation. -/
inductive Violation.Reads : Violation → String → Prop
  | required (c : String) : Reads (required c) ("Field '" ++ c ++ "' is required")
  | tooLong (c : String) (n : Nat) :
      Reads (tooLong c n) ("Field '" ++ c ++ "' exceeds maximum length of " ++ toString n ++ " characters")
  | notUnique (c : String) (v : Value) :
      Reads (notUnique c v) ("Value '" ++ v.display ++ "' in field '" ++ c ++ "' must be unique")

theorem Violation.reads_message (x : Violation) : x.Reads x.message := by
  cases x with
  | required c => exact .required c
  | tooLong c n => exact .tooLong c n
  | notUnique c v => exact .notUnique c v

namespace Autofill

variable {now : String} {columns : List Column} {rows filled : List Row} {i : Nat} {input : Row} {c : Column}

/-! ## Violations -/

/-- A cell has no value: it is not there, or what is there is blank. -/
def Blank (r : Row) (k : String) : Prop := ∀ v, r.get? k = some v → v.isBlank = true

/-- A row before row `i` has been filled in with an equal value. -/
def Seen (filled : List Row) (i : Nat) (k : String) (v : Value) : Prop :=
  ∃ j r w, j < i ∧ filled[j]? = some r ∧ r.get? k = some w ∧ w.same v = true

/-- What the cell of a column in row `i` violates, when the rows are filled in as `filled`. -/
inductive Violates (filled : List Row) (i : Nat) (input : Row) (c : Column) : Violation → Prop
  -- Nothing fills the cell in, and the column does not go without a value.
  | required (blank : Blank input c.name) (counter : ¬(c.name = "id" ∧ c.autoIncrement = true))
      (stamp : c.autoFill = false) (default : ∀ v, c.default? = some v → v = .null) (asked : c.nullable = false) :
      Violates filled i input c (.required c.name)
  | tooLong {v : Value} {n : Nat} (cell : input.get? c.name = some v) (value : v.isBlank = false)
      (type : c.type = .string) (limit : c.maxLength = some n) (long : n < textLength v) :
      Violates filled i input c (.tooLong c.name n)
  | notUnique {v : Value} (cell : input.get? c.name = some v) (value : v.isBlank = false) (unique : c.unique = true)
      (seen : Seen filled i c.name v) : Violates filled i input c (.notUnique c.name v)

theorem given?_eq_none_iff {r : Row} {k : String} : given? r k = none ↔ Blank r k := by
  unfold given? Blank
  rw [Option.filter_eq_none_iff]
  simp

theorem isOptional_eq_false_iff :
    Column.isOptional c = false ↔ ¬(c.name = "id" ∧ c.autoIncrement = true) ∧ c.autoFill = false ∧
      (∀ v, c.default? = some v → v = .null) ∧ c.nullable = false := by
  have hnull : ∀ v : Value, v.isNull = true ↔ v = .null := by
    intro v
    cases v <;> simp [Value.isNull]
  have hfilling : c.filling?.isSome = false ↔ ∀ v, c.default? = some v → v = .null := by
    rw [Option.isSome_eq_false_iff, Option.isNone_iff_eq_none, Column.filling?, Option.filter_eq_none_iff]
    simp [hnull]
  simp only [Column.isOptional, Bool.or_eq_false_iff, hfilling, Column.isCounter, ← Bool.not_eq_true (_ && _),
    Bool.and_eq_true, beq_iff_eq, and_assoc]

theorem limit?_eq_some_iff {n : Nat} : Column.limit? c = some n ↔ c.type = .string ∧ c.maxLength = some n := by
  unfold Column.limit?
  split <;> simp_all

theorem any_same_take_iff {k : String} {v : Value} :
    (filled.take i).any (fun r => (r.get? k).any (·.same v)) = true ↔ Seen filled i k v := by
  simp only [List.any_eq_true, Option.any_eq_true, List.mem_iff_getElem?, List.getElem?_take, Seen]
  constructor
  · rintro ⟨r, ⟨j, hj⟩, w, hw, hsame⟩
    split at hj
    · next hlt => exact ⟨j, r, w, hlt, hj, hw, hsame⟩
    · cases hj
  · rintro ⟨j, r, w, hlt, hj, hw, hsame⟩
    exact ⟨r, ⟨j, by rw [if_pos hlt, hj]⟩, w, hw, hsame⟩

/-- Without a value a column is violated only by that. -/
theorem violates_iff_of_blank (h : Blank input c.name) {x : Violation} :
    Violates filled i input c x ↔ Column.isOptional c = false ∧ x = .required c.name := by
  constructor
  · intro hx
    cases hx with
    | required _ hcounter hstamp hdefault hasked =>
      exact ⟨isOptional_eq_false_iff.2 ⟨hcounter, hstamp, hdefault, hasked⟩, rfl⟩
    | tooLong hcell hvalue => simp [h _ hcell] at hvalue
    | notUnique hcell hvalue => simp [h _ hcell] at hvalue
  · rintro ⟨hopt, rfl⟩
    obtain ⟨hcounter, hstamp, hdefault, hasked⟩ := isOptional_eq_false_iff.1 hopt
    exact .required h hcounter hstamp hdefault hasked

/-- A value violates its column by its length, or by an equal value before it. -/
theorem violates_iff_of_given {v : Value} (h : given? input c.name = some v) {x : Violation} :
    Violates filled i input c x ↔
      (∃ n, Column.limit? c = some n ∧ n < textLength v ∧ x = .tooLong c.name n) ∨
        c.unique = true ∧ Seen filled i c.name v ∧ x = .notUnique c.name v := by
  obtain ⟨hcell, hvalue⟩ := given?_eq_some_iff.1 h
  constructor
  · intro hx
    cases hx with
    | required hblank => simp [hblank v hcell] at hvalue
    | tooLong hcell' _ htype hlimit hlong =>
      obtain rfl : v = _ := Option.some.inj (hcell.symm.trans hcell')
      exact Or.inl ⟨_, limit?_eq_some_iff.2 ⟨htype, hlimit⟩, hlong, rfl⟩
    | notUnique hcell' _ hunique hseen =>
      obtain rfl : v = _ := Option.some.inj (hcell.symm.trans hcell')
      exact Or.inr ⟨hunique, hseen, rfl⟩
  · rintro (⟨n, hlimit, hlong, rfl⟩ | ⟨hunique, hseen, rfl⟩)
    · obtain ⟨htype, hmax⟩ := limit?_eq_some_iff.1 hlimit
      exact .tooLong hcell hvalue htype hmax hlong
    · exact .notUnique hcell hvalue hunique hseen

/-- The check of a column finds exactly what its cell violates. -/
theorem mem_columnViolations_iff {x : Violation} :
    x ∈ columnViolations (filled.take i) input c ↔ Violates filled i input c x := by
  unfold columnViolations
  cases hg : given? input c.name with
  | none =>
    rw [violates_iff_of_blank (given?_eq_none_iff.1 hg)]
    cases Column.isOptional c <;> simp
  | some v =>
    rw [violates_iff_of_given hg]
    simp only [List.mem_append, List.mem_map, Option.mem_toList, Option.filter_eq_some_iff, decide_eq_true_eq,
      ← @any_same_take_iff filled]
    apply or_congr
    · simp only [and_assoc, eq_comm]
    · split <;> simp_all

/-- The length comes before the repetition. -/
theorem pairwise_columnViolations (earlier : List Row) (input : Row) (c : Column) :
    (columnViolations earlier input c).Pairwise (·.rank < ·.rank) := by
  unfold columnViolations
  cases given? input c.name with
  | none =>
    dsimp only
    split <;> simp
  | some v =>
    dsimp only
    generalize (Column.limit? c).filter (· < textLength v) = limit
    cases limit <;> split <;> simp [Violation.rank]

/-! ## The violations of a row -/

/-- What a row is told: of one column after another all that its cell violates, and nothing else, a length before a
repetition. -/
inductive Told (filled : List Row) (i : Nat) (input : Row) : List Column → List Violation → Prop
  | nil : Told filled i input [] []
  | cons {c : Column} {cs : List Column} {part rest : List Violation} (order : part.Pairwise (·.rank < ·.rank))
      (all : ∀ x, x ∈ part ↔ Violates filled i input c x) (tail : Told filled i input cs rest) :
      Told filled i input (c :: cs) (part ++ rest)

theorem told_rowViolations (filled : List Row) (i : Nat) (input : Row) :
    ∀ cs, Told filled i input cs (rowViolations cs (filled.take i) input)
  | [] => .nil
  | c :: cs =>
    .cons (pairwise_columnViolations _ input c) (fun _ => mem_columnViolations_iff)
      (told_rowViolations filled i input cs)

/-- Row `i` has a violation. -/
def Offends (columns : List Column) (rows filled : List Row) (i : Nat) : Prop :=
  ∃ input c x, rows[i]? = some input ∧ c ∈ columns ∧ Violates filled i input c x

theorem offends_iff (hi : rows[i]? = some input) :
    Offends columns rows filled i ↔ rowViolations columns (filled.take i) input ≠ [] := by
  rw [Ne, rowViolations, List.flatMap_eq_nil_iff]
  simp only [Offends, hi, Option.some.injEq, List.eq_nil_iff_forall_not_mem, mem_columnViolations_iff]
  constructor
  · rintro ⟨_, c, x, rfl, hc, hx⟩ hnone
    exact hnone c hc x hx
  · intro hsome
    by_contra hnot
    exact hsome fun c hc x hx => hnot ⟨input, c, x, rfl, hc, hx⟩

/-! ## The rows with violations -/

/-- The rows that have a violation, upwards. -/
def badRows (vs : List (List Violation)) : List Nat := (List.range vs.length).filter fun i => !(vs.getD i []).isEmpty

theorem mem_badRows_iff {vs : List (List Violation)} : i ∈ badRows vs ↔ vs.getD i [] ≠ [] := by
  rw [badRows, List.mem_filter, List.mem_range, Bool.not_eq_true', List.isEmpty_eq_false_iff]
  constructor
  · exact And.right
  · intro h
    refine ⟨Nat.lt_of_not_le fun hle => h ?_, h⟩
    rw [List.getD_eq_getElem?_getD, List.getElem?_eq_none hle, Option.getD_none]

/-- A rejection numbers the rows that have a violation. -/
theorem numbered_eq (vs : List (List Violation)) : numbered vs = (badRows vs).map fun i => (i, vs.getD i []) := by
  have hzip : (List.range vs.length).zip vs = (List.range vs.length).map fun i => (i, vs.getD i []) :=
    List.ext_getElem (by simp) fun i h _ => by simp at h; simp [h]
  rw [numbered, hzip, List.filter_map]
  rfl

/-- The rows that are numbered are those with a violation. -/
theorem mem_badRows_violationsOf_iff :
    i ∈ badRows (violationsOf now columns rows) ↔ Offends columns rows (filledBatch now columns rows) i := by
  rw [mem_badRows_iff, List.getD_eq_getElem?_getD, getElem?_violationsOf]
  cases hi : rows[i]? with
  | none => simp [Offends, hi]
  | some input => rw [offends_iff hi, Option.map_some, Option.getD_some]

/-! ## The outcome of a batch -/

/-- The rows of a batch as they were filled in, whether they were accepted or not. -/
def carried : Except Rejection (List Row) → List Row
  | .ok rows => rows
  | .error e => e.rows

/-- A rejection numbers the rows `bad`, upwards, which are those with a violation, and tells each of its violations;
the JSON object of the rejection has their texts in the same order. -/
structure Reports (columns : List Column) (rows filled : List Row) (e : Rejection) (bad : List Nat)
    (told : Nat → List Violation) (texts : Nat → List String) : Prop where
  ascending : bad.Pairwise (· < ·)
  offending : ∀ i, i ∈ bad ↔ Offends columns rows filled i
  complete : ∀ i input, rows[i]? = some input → Told filled i input columns (told i)
  violations : e.violations = bad.map fun i => (i, told i)
  worded : ∀ i, List.Forall₂ Violation.Reads (told i) (texts i)
  object : e.toJson = .object (bad.map fun i => ("row_" ++ toString i, .array ((texts i).map .string)))

theorem carried_process : carried (process now rows columns) = filledBatch now columns rows := by
  rw [process_eq]
  split <;> rfl

/-- A batch is accepted iff no row has a violation. -/
theorem process_eq_ok_iff_offends {out : List Row} :
    process now rows columns = .ok out ↔
      out = filledBatch now columns rows ∧ ∀ i, ¬Offends columns rows out i := by
  rw [process_eq_ok_iff]
  refine and_congr_right fun _ => ⟨fun h i hoffends => ?_, fun h i input hi => ?_⟩
  · obtain ⟨input, _, _, hi, -⟩ := id hoffends
    exact (offends_iff hi).1 hoffends (h i input hi)
  · by_contra hne
    exact h i ((offends_iff hi).2 hne)

theorem process_eq_error_iff {e : Rejection} :
    process now rows columns = .error e ↔
      e = ⟨numbered (violationsOf now columns rows), filledBatch now columns rows⟩ ∧
        ∃ i, Offends columns rows (filledBatch now columns rows) i := by
  have hbad : (numbered (violationsOf now columns rows)).isEmpty = false ↔
      ∃ i, Offends columns rows (filledBatch now columns rows) i := by
    simp only [numbered_eq, List.isEmpty_eq_false_iff_exists_mem, List.mem_map, ← mem_badRows_violationsOf_iff]
    exact ⟨fun ⟨_, i, hi, _⟩ => ⟨i, hi⟩, fun ⟨i, hi⟩ => ⟨_, i, hi, rfl⟩⟩
  rw [process_eq, ← hbad]
  cases (numbered (violationsOf now columns rows)).isEmpty <;> simp [eq_comm]

theorem reports_numbered :
    Reports columns rows (filledBatch now columns rows)
      ⟨numbered (violationsOf now columns rows), filledBatch now columns rows⟩
      (badRows (violationsOf now columns rows)) ((violationsOf now columns rows).getD · [])
      (fun i => ((violationsOf now columns rows).getD i []).map Violation.message) where
  ascending := List.pairwise_lt_range.filter _
  offending _ := mem_badRows_violationsOf_iff
  complete i input hi := by
    rw [List.getD_eq_getElem?_getD, getElem?_violationsOf, hi, Option.map_some, Option.getD_some]
    exact told_rowViolations _ i input columns
  violations := numbered_eq _
  worded i := List.forall₂_map_right_iff.2 (List.forall₂_same.2 fun x _ => x.reads_message)
  object := by
    simp only [Rejection.toJson, numbered_eq, List.map_map]
    rfl

/-- **A batch is rejected iff one of its rows has a violation**, and the rejection carries all rows and tells exactly
the rows with a violation exactly what they violate, row by row and column by column. -/
theorem process_reports (now : String) (rows : List Row) (columns : List Column) :
    let filled := carried (process now rows columns)
    filled.length = rows.length ∧
      ((∃ e, process now rows columns = .error e) ↔ ∃ i, Offends columns rows filled i) ∧
      ∀ e, process now rows columns = .error e →
        e.rows = filled ∧ ∃ bad told texts, Reports columns rows filled e bad told texts := by
  intro filled
  have hfilled : filled = filledBatch now columns rows := carried_process
  rw [hfilled]
  refine ⟨length_filledBatch rows, ?_, fun e he => ?_⟩
  · simp only [process_eq_error_iff, exists_eq_left]
  · obtain ⟨rfl, -⟩ := process_eq_error_iff.1 he
    exact ⟨rfl, _, _, _, reports_numbered⟩

/-- What is wrong with the refused rows: a length, a missing value, and a length and a repetition. -/
def stockRejection : Rejection where
  violations := [(0, [.tooLong "code" 3]), (2, [.required "code"]),
    (3, [.tooLong "code" 3, .notUnique "code" (.text "abcd")])]
  rows := stockFilled

theorem process_reports_stock :
    process "<now>" stockRows stockColumns = .error stockRejection ∧
      (∃ i, Offends stockColumns stockRows stockFilled i) ∧
      (∃ bad told texts, Reports stockColumns stockRows stockFilled stockRejection bad told texts) ∧
      stockRejection.toJson = .object
        [("row_0", .array [.string "Field 'code' exceeds maximum length of 3 characters"]),
          ("row_2", .array [.string "Field 'code' is required"]),
          ("row_3", .array [.string "Field 'code' exceeds maximum length of 3 characters",
            .string "Value 'abcd' in field 'code' must be unique"])] := by
  have h : process "<now>" stockRows stockColumns = .error stockRejection := by decide +kernel
  obtain ⟨-, hoffends, hreports⟩ := process_reports "<now>" stockRows stockColumns
  have hcarried : carried (process "<now>" stockRows stockColumns) = stockFilled := by rw [h]; rfl
  rw [hcarried] at hoffends hreports
  exact ⟨h, hoffends.1 ⟨_, h⟩, (hreports _ h).2, rfl⟩

end Autofill

end FluentTables
