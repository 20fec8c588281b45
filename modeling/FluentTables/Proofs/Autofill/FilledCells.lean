import FluentTables.Proofs.Autofill.Filling

/-!
# What filling in touches

Filling in does not look at what is checked: columns that allow everything (`Column.relaxed`) accept every batch, and
with the rows that the columns themselves fill in, be it for an accepted batch or for one that is rejected. A filled
row keeps what was given and what no column names, each key in its place, and adds new keys behind, in the order of
the columns (`FilledFrom`). The ids that are made count on from the largest one, row by row, whatever is wrong with
the rows (`toInt_idAt`). `process_fillings` says all of this of a batch.
-/

namespace FluentTables

/-- The column with everything allowed: it may go without a value, at any length, and repeat. -/
def Column.relaxed (c : Column) : Column := { c with nullable := true, unique := false, maxLength := none }

namespace Autofill

variable {now : String} {columns : List Column} {rows : List Row} {i : Nat} {input : Row}

/-! ## Columns that allow everything -/

theorem filledRows_relaxed (next : Int64) (rows : List Row) :
    filledRows now (columns.map Column.relaxed) next rows = filledRows now columns next rows := by
  induction rows generalizing next with
  | nil => rfl
  | cons input r ih =>
    have hrow : fillRow now (columns.map Column.relaxed) next input = fillRow now columns next input :=
      fillRow_map (g := Column.relaxed) (fun _ _ _ => rfl) next input
    rw [filledRows, filledRows, hrow, ih]

theorem columnViolations_relaxed (earlier : List Row) (input : Row) (c : Column) :
    columnViolations earlier input c.relaxed = [] := by
  have hlimit : Column.limit? c.relaxed = none := ite_self none
  have hunique : c.relaxed.unique = false := rfl
  unfold columnViolations
  cases given? input c.relaxed.name with
  | none => simp [Column.isOptional, Column.relaxed]
  | some v => simp [hlimit, hunique]

/-- Columns that allow everything accept every batch. -/
theorem process_relaxed (rows : List Row) :
    process now rows (columns.map Column.relaxed) = .ok (filledBatch now columns rows) := by
  refine process_eq_ok_iff.2 ⟨(filledRows_relaxed _ rows).symm, fun i input _ => ?_⟩
  rw [rowViolations, List.flatMap_map, List.flatMap_eq_nil_iff]
  exact fun c _ => columnViolations_relaxed _ input c

/-- The rows come out filled in whether they are accepted or not. -/
theorem process_cases (rows : List Row) :
    process now rows columns = .ok (filledBatch now columns rows) ∨
      ∃ vs, process now rows columns = .error ⟨vs, filledBatch now columns rows⟩ := by
  rw [process_eq]
  split
  · exact Or.inl rfl
  · exact Or.inr ⟨_, rfl⟩

/-! ## The cells of a filled row -/

/-- A row filled in from an input: given values stay, and so does every cell without a column; the keys stay in their
places, and new ones come behind them in the order of the columns. -/
structure FilledFrom (columns : List Column) (input out : Row) : Prop where
  given : ∀ k v, given? input k = some v → out.get? k = some v
  undeclared : ∀ k, k ∉ columns.map Column.name → out.get? k = input.get? k
  places : ∃ new, out.keys = input.keys ++ new ∧ new.Sublist (columns.map Column.name) ∧ ∀ k ∈ new, k ∉ input.keys

/-- A column adds its own key, if any. -/
theorem keys_fillColumn (now : String) (input : Row) (f : Filling) (c : Column) :
    (fillColumn now input f c).row.keys = f.row.keys ∨
      c.name ∉ f.row.keys ∧ (fillColumn now input f c).row.keys = f.row.keys ++ [c.name] := by
  rw [row_fillColumn]
  split
  · exact Or.inl rfl
  · split
    · rw [OrderedMap.keys_insert]
      split
      · exact Or.inl rfl
      · next hk => exact Or.inr ⟨hk, rfl⟩
    · exact Or.inl rfl

theorem keys_foldl_fillColumn (now : String) (input : Row) :
    ∀ (cs : List Column) (f : Filling), ∃ new,
      (cs.foldl (fillColumn now input) f).row.keys = f.row.keys ++ new ∧ new.Sublist (cs.map Column.name) ∧
        ∀ k ∈ new, k ∉ f.row.keys
  | [], f => ⟨[], by simp⟩
  | c :: cs, f => by
    obtain ⟨new, hkeys, hsub, hnew⟩ := keys_foldl_fillColumn now input cs (fillColumn now input f c)
    rcases keys_fillColumn now input f c with hsame | ⟨hfresh, hadd⟩
    · rw [hsame] at hkeys hnew
      exact ⟨new, hkeys, hsub.cons _, hnew⟩
    · rw [hadd] at hkeys hnew
      refine ⟨c.name :: new, by simpa using hkeys, hsub.cons_cons _, fun k hk => ?_⟩
      rcases List.mem_cons.1 hk with rfl | hk
      · exact hfresh
      · exact fun hmem => hnew k hk (List.mem_append_left _ hmem)

theorem filledFrom_fillRow (now : String) (columns : List Column) (next : Int64) (input : Row) :
    FilledFrom columns input (fillRow now columns next input).row where
  given _ _ h := get?_fillRow_of_given next h
  undeclared _ h := get?_foldl_fillColumn_of_not_mem now input ⟨input, next⟩ h
  places := keys_foldl_fillColumn now input columns ⟨input, next⟩

/-! ## The ids of a batch -/

/-- The number of rows that give no id. -/
def blankIds (rows : List Row) : Nat := rows.countP fun r => (given? r "id").isNone

theorem blankIds_cons (input : Row) (rows : List Row) :
    blankIds (input :: rows) = blankIds rows + if (given? input "id").isNone then 1 else 0 :=
  List.countP_cons

/-- The counter passes one id for each row that gives none, as far as there are any. -/
theorem toInt_counterAfter (hn : (columns.map Column.name).Nodup) (hcount : columns.any Column.isCounter = true)
    (next : Int64) (rows : List Row) :
    (counterAfter now columns next rows).toInt = min (next.toInt + blankIds rows) Int64.maxValue.toInt := by
  have htop := next.toInt_le
  induction rows generalizing next with
  | nil =>
    show next.toInt = min (next.toInt + ((0 : Nat) : Int)) _
    omega
  | cons input rows ih =>
    have hstep : counterAfter now columns next (input :: rows) =
        counterAfter now columns (fillRow now columns next input).next rows := rfl
    rw [hstep, ih _ (Int64.toInt_le _), next_fillRow hn, hcount, Bool.true_and, blankIds_cons]
    split
    · rw [toInt_nextId]
      omega
    · omega

/-- The id that a row without one gets: it counts the rows without one up to there. -/
theorem toInt_idAt (hn : (columns.map Column.name).Nodup) (hcount : columns.any Column.isCounter = true)
    (rows : List Row) (i : Nat) :
    (idAt now columns rows i).toInt =
      min ((maxId rows).toInt + 1 + blankIds (rows.take i)) Int64.maxValue.toInt := by
  rw [idAt, toInt_counterAfter hn hcount, toInt_nextId]
  omega

/-! ## Batches -/

/-- How a batch is filled in: as by columns that allow everything, whether it is accepted or not, row by row from the
input, and with ids that count on from the largest one. -/
structure Fillings (now : String) (columns : List Column) (rows filled : List Row) : Prop where
  relaxed : process now rows (columns.map Column.relaxed) = .ok filled
  outcome : process now rows columns = .ok filled ∨ ∃ vs, process now rows columns = .error ⟨vs, filled⟩
  length : filled.length = rows.length
  cells : ∀ (i : Nat) (input out : Row), rows[i]? = some input → filled[i]? = some out → FilledFrom columns input out
  ids : columns.any Column.isCounter = true → ∀ (i : Nat) (input out : Row), rows[i]? = some input →
    filled[i]? = some out → given? input "id" = none → ∃ g, out.get? "id" = some (.int g) ∧
      g.toInt = min ((maxId rows).toInt + 1 + blankIds (rows.take i)) Int64.maxValue.toInt

/-- **Filling in does not depend on what is checked, and touches only blank cells of the columns.** -/
theorem process_fillings (hn : (columns.map Column.name).Nodup) : ∃ filled, Fillings now columns rows filled := by
  refine ⟨filledBatch now columns rows, process_relaxed rows, process_cases rows, length_filledBatch rows,
    fun i input out hi hout => ?_, fun hcount i input out hi hout hblank => ?_⟩
  · rw [getElem?_filledBatch, hi] at hout
    cases hout
    exact filledFrom_fillRow now columns _ input
  · rw [getElem?_filledBatch, hi] at hout
    cases hout
    obtain ⟨c, hc, hcounter⟩ := List.any_eq_true.1 hcount
    have hname := name_of_isCounter hcounter
    refine ⟨idAt now columns rows i, ?_, toInt_idAt hn hcount rows i⟩
    rw [← hname, get?_fillRow hn hc, hname, hblank]
    simp [fill?, hcounter]

/-- A column for each way of filling in, and one that is not filled in. -/
def stockColumns : List Column :=
  [Column.id, { name := "at", type := .timestamp, autoFill := true },
    { name := "code", type := .string, maxLength := some 3, unique := true },
    { name := "state", type := .string, default? := some (.text "new") },
    { name := "mark", type := .string, default? := some (.text " ") },
    { name := "note", type := .text, nullable := true }]

/-- Rows of which all but the second are refused. -/
def stockRows : List Row :=
  [⟨[("code", .text "abcd"), ("old", .null)]⟩, ⟨[("state", .text " "), ("id", .int 7), ("code", .text "ab")]⟩,
    ⟨[("id", .text ""), ("note", .null)]⟩, ⟨[("code", .text "abcd")]⟩]

def stockFilled : List Row :=
  let tail : List (String × Value) := [("at", .text "<now>"), ("state", .text "new"), ("mark", .text " ")]
  [⟨[("code", .text "abcd"), ("old", .null), ("id", .int 8)] ++ tail⟩,
    ⟨[("state", .text "new"), ("id", .int 7), ("code", .text "ab"), ("at", .text "<now>"), ("mark", .text " ")]⟩,
    ⟨[("id", .int 9), ("note", .null)] ++ tail⟩, ⟨[("code", .text "abcd"), ("id", .int 10)] ++ tail⟩]

theorem process_fillings_stock :
    (stockColumns.map Column.name).Nodup ∧ Fillings "<now>" stockColumns stockRows stockFilled := by
  have hn : (stockColumns.map Column.name).Nodup := by decide
  obtain ⟨filled, h⟩ := @process_fillings "<now>" stockColumns stockRows hn
  have hbatch : filledBatch "<now>" stockColumns stockRows = stockFilled := by decide +kernel
  obtain rfl : stockFilled = filled :=
    hbatch.symm.trans (Except.ok.inj ((process_relaxed stockRows).symm.trans h.relaxed))
  exact ⟨hn, h⟩

end Autofill

end FluentTables
