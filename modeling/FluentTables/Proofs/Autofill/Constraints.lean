import FluentTables.Proofs.Autofill.Reports

/-!
# What accepted rows satisfy

A column asks three things of the rows of its table: a value where it is not nullable (`Present`), texts within its
length (`Short`), and distinct values where it is unique (`Distinct`). An accepted batch always has the first. The
other two are asked of what was given and not of what was filled in, so ids, times and defaults may be too long for
their column and may come twice (`fillings_escape_constraints`). Nothing else gets round them
(`process_constraints`): a value beyond the length was filled in, and so was the later of two equal values, by a
counter only when it has run out.
-/

namespace FluentTables.Autofill

variable {now : String} {columns : List Column} {rows out : List Row} {c : Column}

/-- Every row has a value in a column that is not nullable. -/
def Present (c : Column) (rows : List Row) : Prop :=
  c.nullable = false → ∀ r ∈ rows, ∃ v, r.get? c.name = some v ∧ v.isNull = false

/-- No value is longer than its column allows. -/
def Short (c : Column) (rows : List Row) : Prop :=
  ∀ n, Column.limit? c = some n → ∀ r ∈ rows, ∀ v, given? r c.name = some v → textLength v ≤ n

/-- No two rows have equal values in a unique column. -/
def Distinct (c : Column) (rows : List Row) : Prop :=
  c.unique = true → rows.Pairwise fun a b =>
    ∀ v w, given? a c.name = some v → given? b c.name = some w → v.same w = false

instance (c : Column) (rows : List Row) : Decidable (Short c rows) :=
  inferInstanceAs (Decidable (∀ n ∈ Column.limit? c, ∀ r ∈ rows, ∀ v ∈ given? r c.name, textLength v ≤ n))

instance (c : Column) (rows : List Row) : Decidable (Distinct c rows) :=
  decidable_of_iff (c.unique = true → rows.Pairwise fun a b =>
    ∀ v ∈ given? a c.name, ∀ w ∈ given? b c.name, v.same w = false)
    (imp_congr_right fun _ => List.Pairwise.iff fun _ _ =>
      ⟨fun h v w hv hw => h v hv w hw, fun h v hv w hw => h v w hv hw⟩)

/-- `Short` of rows that came from inputs, except where the column filled a blank in. -/
def ShortAsGiven (now : String) (c : Column) (inputs rows : List Row) : Prop :=
  ∀ n, Column.limit? c = some n → ∀ (i : Nat) input r v, inputs[i]? = some input → rows[i]? = some r →
    given? r c.name = some v → textLength v ≤ n ∨ given? input c.name = none ∧ ∃ k, fill? now k c = some v

/-- `Distinct` of rows that came from inputs, except where the column filled a blank in the later row, with the same
as ever: the time, the default, or the last id there is. -/
def DistinctAsGiven (now : String) (c : Column) (inputs rows : List Row) : Prop :=
  c.unique = true → ∀ (i j : Nat) input a b v w, i < j → inputs[j]? = some input → rows[i]? = some a →
    rows[j]? = some b → given? a c.name = some v → given? b c.name = some w → v.same w = true →
      given? input c.name = none ∧ fill? now Int64.maxValue c = some w

/-! ## Values -/

theorem isNull_of_not_isBlank {v : Value} (h : v.isBlank = false) : v.isNull = false := by
  cases v with
  | null => cases h
  | _ => rfl

/-- Only an integer is the same as an integer. -/
theorem eq_int_of_same {v : Value} {i : Int64} (h : v.same (.int i) = true) : v = .int i := by
  cases v with
  | int j =>
    simp only [Value.same, beq_iff_eq] at h
    rw [h]
  | _ => simp [Value.same] at h

/-! ## A row without violations -/

section NoViolations

variable {filled : List Row} {i : Nat} {input : Row}

theorem isOptional_of_no_violation (h : ∀ x, ¬Violates filled i input c x) (hg : given? input c.name = none) :
    Column.isOptional c = true := by
  cases hopt : Column.isOptional c with
  | true => rfl
  | false => exact absurd ((violates_iff_of_blank (given?_eq_none_iff.1 hg)).2 ⟨hopt, rfl⟩) (h _)

theorem textLength_le_of_no_violation (h : ∀ x, ¬Violates filled i input c x) {v : Value}
    (hg : given? input c.name = some v) {n : Nat} (hn : Column.limit? c = some n) : textLength v ≤ n :=
  Nat.le_of_not_lt fun hlong => h _ ((violates_iff_of_given hg).2 (Or.inl ⟨n, hn, hlong, rfl⟩))

theorem same_eq_false_of_no_violation (h : ∀ x, ¬Violates filled i input c x) {v w : Value}
    (hg : given? input c.name = some w) (hu : c.unique = true) {j : Nat} {r : Row} (hj : j < i)
    (hr : filled[j]? = some r) (hv : r.get? c.name = some v) : v.same w = false := by
  rw [Bool.eq_false_iff]
  intro hsame
  exact h _ ((violates_iff_of_given hg).2 (Or.inr ⟨hu, ⟨j, r, v, hj, hr, hv, hsame⟩, rfl⟩))

end NoViolations

/-! ## Rows of an accepted batch -/

/-- A row of an accepted batch is its input filled in. -/
theorem row_of_process (h : process now rows columns = .ok out) {i : Nat} {r : Row} (hr : out[i]? = some r) :
    ∃ input, rows[i]? = some input ∧ r = (fillRow now columns (idAt now columns rows i) input).row := by
  obtain ⟨rfl, -⟩ := process_eq_ok_iff.1 h
  rw [getElem?_filledBatch, Option.map_eq_some_iff] at hr
  obtain ⟨input, hi, hr⟩ := hr
  exact ⟨input, hi, hr.symm⟩

theorem no_violation_of_process (h : process now rows columns = .ok out) (hc : c ∈ columns) {i : Nat} {input : Row}
    (hi : rows[i]? = some input) (x : Violation) : ¬Violates out i input c x :=
  fun hx => (process_eq_ok_iff_offends.1 h).2 i ⟨input, c, x, hi, hc, hx⟩

theorem length_of_process (h : process now rows columns = .ok out) : out.length = rows.length := by
  obtain ⟨rfl, -⟩ := process_eq_ok_iff.1 h
  exact length_filledBatch rows

section Accepted

variable (hn : (columns.map Column.name).Nodup) (h : process now rows columns = .ok out) (hc : c ∈ columns)
include hn h hc

theorem present_of_process : Present c out := by
  intro hnull r hr
  obtain ⟨i, hr⟩ := List.getElem?_of_mem hr
  obtain ⟨input, hi, rfl⟩ := row_of_process h hr
  cases hg : given? input c.name with
  | some v => exact ⟨v, get?_fillRow_of_given _ hg, isNull_of_not_isBlank (given?_eq_some_iff.1 hg).2⟩
  | none =>
    have hopt := isOptional_of_no_violation (no_violation_of_process h hc hi) hg
    rw [isOptional_iff now (idAt now columns rows i), hnull] at hopt
    obtain ⟨v, hv⟩ := Option.isSome_iff_exists.1 (hopt.resolve_right (by simp))
    exact ⟨v, by rw [get?_fillRow hn hc, hg, hv]; rfl, isNull_fill? hv⟩

/-- A value of the output was given, or it was filled in with the id that came next then. -/
theorem given_or_filled {i : Nat} {input r : Row} {v : Value} (hi : rows[i]? = some input) (hr : out[i]? = some r)
    (hv : given? r c.name = some v) :
    given? input c.name = some v ∨ given? input c.name = none ∧ fill? now (idAt now columns rows i) c = some v := by
  obtain ⟨input', hi', rfl⟩ := row_of_process h hr
  rw [hi] at hi'
  cases hi'
  cases hg : given? input c.name with
  | some w =>
    have hget := (given?_eq_some_iff.1 hv).1
    rw [get?_fillRow_of_given _ hg] at hget
    exact Or.inl hget
  | none => exact Or.inr ⟨rfl, fill?_of_given?_fillRow hn hc hv hg⟩

theorem shortAsGiven_of_process : ShortAsGiven now c rows out := by
  intro n hlimit i input r v hi hr hv
  rcases given_or_filled hn h hc hi hr hv with hgiven | ⟨hblank, hfill⟩
  · exact Or.inl (textLength_le_of_no_violation (no_violation_of_process h hc hi) hgiven hlimit)
  · exact Or.inr ⟨hblank, _, hfill⟩

/-- A counter fills in a value that the output already has only when it has run out: ids that were given are below
the first that is filled in, and those that are filled in grow. -/
theorem counter_of_repeated (hcount : c.isCounter = true) {i j : Nat} {a : Row} (hij : i < j) (ha : out[i]? = some a)
    (hv : given? a c.name = some (.int (idAt now columns rows j))) : idAt now columns rows j = Int64.maxValue := by
  obtain ⟨input, hi, -⟩ := row_of_process h ha
  rcases given_or_filled hn h hc hi ha hv with hgiven | ⟨hblank, hfill⟩
  · have hid := (given?_eq_some_iff.1 hgiven).1
    rw [name_of_isCounter hcount] at hid
    have hmax : (idAt now columns rows j).toInt ≤ (maxId rows).toInt := le_maxId (List.mem_of_getElem? hi) hid rfl
    have hge := nextId_maxId_le_idAt now columns rows j
    have hlast := eq_maxValue_of_nextId_le (i := maxId rows) (by omega)
    rw [hlast, toInt_nextId] at hge
    have := (idAt now columns rows j).toInt_le
    exact Int64.toInt_inj.1 (by omega)
  · -- Row `i` took this id, so the next one is not above it.
    have hsame : idAt now columns rows i = idAt now columns rows j := by simpa [fill?, hcount] using hfill
    have hmono := idAt_mono now columns rows (Nat.succ_le_of_lt hij)
    have hany : columns.any Column.isCounter = true := List.any_eq_true.2 ⟨c, hc, hcount⟩
    rw [name_of_isCounter hcount] at hblank
    rw [idAt_succ hi, hsame, next_fillRow hn, hany, hblank] at hmono
    exact eq_maxValue_of_nextId_le hmono

theorem distinctAsGiven_of_process : DistinctAsGiven now c rows out := by
  intro hu i j input a b v w hij hj ha hb hv hw hsame
  rcases given_or_filled hn h hc hj hb hw with hgiven | ⟨hblank, hfill⟩
  · -- A given value was compared with the rows before it.
    have hcell := (given?_eq_some_iff.1 hv).1
    have := same_eq_false_of_no_violation (no_violation_of_process h hc hj) hgiven hu hij ha hcell
    rw [hsame] at this
    cases this
  · refine ⟨hblank, ?_⟩
    cases hcount : c.isCounter with
    | false => rw [fill?_of_not_isCounter hcount]; exact hfill
    | true =>
      have hint : w = .int (idAt now columns rows j) := by simpa [fill?, hcount] using hfill.symm
      rw [hint] at hsame
      rw [eq_int_of_same hsame] at hv
      have hlast := counter_of_repeated hn h hc hcount hij ha hv
      rw [hint, hlast]
      simp [fill?, hcount]

end Accepted

/-! ## The constraints of an accepted batch -/

/-- **Accepted rows satisfy their columns as far as they were given**: every column that is not nullable has a value
in every row, a value beyond the length of its column was filled in, and so was the later of two equal values in a
unique column, by the time, by a default or by a counter that has run out. -/
theorem process_constraints (hn : (columns.map Column.name).Nodup) (h : process now rows columns = .ok out) :
    out.length = rows.length ∧
      ∀ c ∈ columns, Present c out ∧ ShortAsGiven now c rows out ∧ DistinctAsGiven now c rows out :=
  ⟨length_of_process h, fun _ hc =>
    ⟨present_of_process hn h hc, shortAsGiven_of_process hn h hc, distinctAsGiven_of_process hn h hc⟩⟩

/-! ## Fillings that are too long and come twice -/

/-- A unique column of short texts. -/
def cramped (name : String) : Column where
  name := name
  type := .string
  maxLength := some 4
  unique := true

/-- One cramped column for each way of filling in. -/
def crampedColumns : List Column :=
  [{ cramped "id" with autoIncrement := true }, { cramped "at" with autoFill := true },
    { cramped "state" with default? := some (.text "draft") }]

/-- The first id leaves none for the other rows but the last one. -/
def crampedRows : List Row := [⟨[("id", .text "1e30")]⟩, .empty, .empty]

def crampedFilled : List Row :=
  [⟨[("id", .text "1e30"), ("at", .text "<now>"), ("state", .text "draft")]⟩,
    ⟨[("id", .int Int64.maxValue), ("at", .text "<now>"), ("state", .text "draft")]⟩,
    ⟨[("id", .int Int64.maxValue), ("at", .text "<now>"), ("state", .text "draft")]⟩]

theorem process_crampedRows : process "<now>" crampedRows crampedColumns = .ok crampedFilled := by
  rw [process_eq, if_pos (by decide +kernel)]
  exact congrArg Except.ok (by decide +kernel)

theorem process_constraints_cramped :
    (crampedColumns.map Column.name).Nodup ∧ process "<now>" crampedRows crampedColumns = .ok crampedFilled ∧
      crampedFilled.length = crampedRows.length ∧ ∀ c ∈ crampedColumns, Present c crampedFilled ∧
        ShortAsGiven "<now>" c crampedRows crampedFilled ∧ DistinctAsGiven "<now>" c crampedRows crampedFilled :=
  ⟨by decide, process_crampedRows, process_constraints (by decide) process_crampedRows⟩

/-- A value that is too long and comes in the last two of three rows. -/
theorem not_short_not_distinct {a b d : Row} {v : Value} {n : Nat} (hlimit : Column.limit? c = some n)
    (hu : c.unique = true) (hb : given? b c.name = some v) (hd : given? d c.name = some v) (hlong : n < textLength v)
    (hsame : v.same v = true) : ¬Short c [a, b, d] ∧ ¬Distinct c [a, b, d] := by
  constructor
  · intro h
    exact absurd (h n hlimit b (by simp) v hb) (by omega)
  · intro h
    have hpair := (List.pairwise_cons.1 (List.pairwise_cons.1 (h hu)).2).1 d (by simp) v v hb hd
    rw [hsame] at hpair
    cases hpair

/-- What is filled in need be neither short nor distinct, whichever way it is filled in. -/
theorem fillings_escape_constraints :
    (crampedColumns.map Column.name).Nodup ∧ process "<now>" crampedRows crampedColumns = .ok crampedFilled ∧
      ∀ c ∈ crampedColumns, ¬Short c crampedFilled ∧ ¬Distinct c crampedFilled := by
  refine ⟨by decide, process_crampedRows, fun c hc => ?_⟩
  simp only [crampedColumns, List.mem_cons, List.not_mem_nil, or_false] at hc
  rcases hc with rfl | rfl | rfl
  · exact not_short_not_distinct (v := .int Int64.maxValue) rfl rfl rfl rfl (by decide) rfl
  · exact not_short_not_distinct (v := .text "<now>") rfl rfl rfl rfl (by decide) rfl
  · exact not_short_not_distinct (v := .text "draft") rfl rfl rfl rfl (by decide) rfl

end FluentTables.Autofill
