import FluentTables.Proofs.Autofill.Constraints

/-!
# Saving saved rows again

A row is settled when nothing is left to be filled in: what a column would put into a blank cell is there already.
Settled rows come out as they are (`filledBatch_eq_self`). Every filled row is settled, whatever the clock says next
(`settled_fillRow`): a cell that a column filled is blank afterwards only if its default is blank, and that default
it has. So an accepted batch that has no text too long and no value twice, as fillings may be, is accepted again as
it is (`process_again`).
-/

namespace FluentTables.Autofill

variable {now later : String} {columns : List Column} {rows out : List Row} {c : Column} {i : Nat} {r input : Row}

/-! ## Settled rows -/

/-- What a column would put into a blank cell is there already. -/
def Settled (now : String) (columns : List Column) (r : Row) : Prop :=
  ∀ c ∈ columns, given? r c.name = none → ∀ n v, fill? now n c = some v → r.get? c.name = some v

theorem foldl_fillColumn_eq_self (r : Row) :
    ∀ (cs : List Column) (f : Filling), Settled now cs r → f.row = r → (cs.foldl (fillColumn now r) f).row = r
  | [], _, _, hf => hf
  | c :: cs, f, h, hf => by
    refine foldl_fillColumn_eq_self r cs _ (fun d hd => h d (List.mem_cons_of_mem c hd)) ?_
    rw [row_fillColumn, hf]
    cases hg : given? r c.name with
    | some v => rfl
    | none =>
      cases hv : fill? now f.next c with
      | none => rfl
      | some v => exact OrderedMap.insert_eq_self (h c List.mem_cons_self hg f.next v hv)

/-- Settled rows come out of a batch as they are. -/
theorem filledBatch_eq_self (h : ∀ r ∈ rows, Settled now columns r) : filledBatch now columns rows = rows := by
  refine List.ext_getElem? fun i => ?_
  rw [getElem?_filledBatch]
  cases hi : rows[i]? with
  | none => rfl
  | some r => exact congrArg some (foldl_fillColumn_eq_self r columns _ (h r (List.mem_of_getElem? hi)) rfl)

/-! ## Filled rows are settled -/

/-- Whether a column fills in does not depend on the time and the id. -/
theorem isSome_fill? (now later : String) (n m : Int64) (c : Column) :
    (fill? now n c).isSome = (fill? later m c).isSome := by
  unfold fill?
  split
  · rfl
  · split <;> rfl

/-- A filling that is blank is a default. -/
theorem fill?_of_isBlank (hnow : (Value.text now).isBlank = false) {n : Int64} {v : Value}
    (h : fill? now n c = some v) (hv : v.isBlank = true) (later : String) (m : Int64) : fill? later m c = some v := by
  unfold fill? at h ⊢
  split at h
  · cases h
    cases hv
  · next hcount =>
    split at h
    · cases h
      rw [hnow] at hv
      cases hv
    · next hstamp => rw [if_neg hcount, if_neg hstamp, h]

/-- A cell that is blank in the filled row was blank before. -/
theorem blank_of_blank_fillRow {next : Int64} {k : String}
    (h : given? (fillRow now columns next input).row k = none) : given? input k = none := by
  cases hg : given? input k with
  | none => rfl
  | some v =>
    rw [given?_eq_some_iff.2 ⟨get?_fillRow_of_given next hg, (given?_eq_some_iff.1 hg).2⟩] at h
    cases h

/-- A filled row is settled for any time to come. -/
theorem settled_fillRow (hn : (columns.map Column.name).Nodup) (hnow : (Value.text now).isBlank = false)
    (later : String) (next : Int64) (input : Row) : Settled later columns (fillRow now columns next input).row := by
  intro c hc hblank n v hv
  have hinput := blank_of_blank_fillRow hblank
  obtain ⟨w, hw⟩ : ∃ w, fill? now next c = some w := by
    rw [← Option.isSome_iff_exists, isSome_fill? now later next n, hv]
    rfl
  have hcell : (fillRow now columns next input).row.get? c.name = some w := by
    rw [get?_fillRow hn hc, hinput, hw]
    rfl
  -- What was filled in is blank, so it is the default.
  have hdefault := fill?_of_isBlank hnow hw (given?_eq_none_iff.1 hblank w hcell) later n
  rw [hdefault] at hv
  rw [hcell, hv]

/-! ## Accepted rows violate nothing -/

/-- Equal values are blank together. -/
theorem isBlank_of_same {v w : Value} (h : v.same w = true) : v.isBlank = w.isBlank := by
  cases v <;> cases w <;> simp_all [Value.same, Value.isBlank]

/-- The rows of an accepted batch violate nothing when they are given themselves. -/
theorem not_violates_of_process (h : process now rows columns = .ok out) (hc : c ∈ columns) (hshort : Short c out)
    (hdistinct : Distinct c out) (hi : out[i]? = some r) (x : Violation) : ¬Violates out i r c x := by
  cases hg : given? r c.name with
  | none =>
    rw [violates_iff_of_blank (given?_eq_none_iff.1 hg)]
    obtain ⟨input, hinput, rfl⟩ := row_of_process h hi
    have hopt := isOptional_of_no_violation (no_violation_of_process h hc hinput) (blank_of_blank_fillRow hg)
    rw [hopt]
    rintro ⟨hfalse, -⟩
    cases hfalse
  | some v =>
    rw [violates_iff_of_given hg]
    rintro (⟨n, hlimit, hlong, -⟩ | ⟨hunique, ⟨j, a, w, hj, ha, hw, hsame⟩, -⟩)
    · have := hshort n hlimit r (List.mem_of_getElem? hi) v hg
      omega
    · obtain ⟨hi', rfl⟩ := List.getElem?_eq_some_iff.1 hi
      obtain ⟨hj', rfl⟩ := List.getElem?_eq_some_iff.1 ha
      have hvalue : w.isBlank = false := by rw [isBlank_of_same hsame, (given?_eq_some_iff.1 hg).2]
      have hne := List.pairwise_iff_getElem.1 (hdistinct hunique) j i hj' hi' hj w v
        (given?_eq_some_iff.2 ⟨hw, hvalue⟩) hg
      rw [hsame] at hne
      cases hne

/-- **Saving saved rows again changes nothing**: an accepted batch in which nothing is too long and nothing comes
twice is accepted as it is, whatever the clock says then. The time of the first call is a date and a time of day, so
it is not blank. -/
theorem process_again (hn : (columns.map Column.name).Nodup) (hnow : (Value.text now).isBlank = false)
    (h : process now rows columns = .ok out) (hshort : ∀ c ∈ columns, Short c out)
    (hdistinct : ∀ c ∈ columns, Distinct c out) (later : String) : process later out columns = .ok out := by
  have hsettled : ∀ r ∈ out, Settled later columns r := by
    intro r hr
    obtain ⟨i, hi⟩ := List.getElem?_of_mem hr
    obtain ⟨input, -, rfl⟩ := row_of_process h hi
    exact settled_fillRow hn hnow later _ input
  refine process_eq_ok_iff_offends.2 ⟨(filledBatch_eq_self hsettled).symm, fun i hoffends => ?_⟩
  obtain ⟨r, c, x, hi, hc, hx⟩ := hoffends
  exact not_violates_of_process h hc (hshort c hc) (hdistinct c hc) hi x hx

/-- Rows that leave a cell to each way of filling in, and a blank note. -/
def soldRows : List Row :=
  [⟨[("code", .text "ab"), ("state", .text " ")]⟩, ⟨[("id", .text "7"), ("code", .int 12), ("note", .text "  ")]⟩]

def soldFilled : List Row :=
  [⟨[("code", .text "ab"), ("state", .text "new"), ("id", .int 8), ("at", .text "2025-03-01 09:30:00"),
      ("mark", .text " ")]⟩,
    ⟨[("id", .text "7"), ("code", .int 12), ("note", .text "  "), ("at", .text "2025-03-01 09:30:00"),
      ("state", .text "new"), ("mark", .text " ")]⟩]

theorem process_again_sold :
    (stockColumns.map Column.name).Nodup ∧ (Value.text "2025-03-01 09:30:00").isBlank = false ∧
      process "2025-03-01 09:30:00" soldRows stockColumns = .ok soldFilled ∧
      (∀ c ∈ stockColumns, Short c soldFilled) ∧ (∀ c ∈ stockColumns, Distinct c soldFilled) ∧
      process "2025-03-02 08:00:00" soldFilled stockColumns = .ok soldFilled := by
  have hn : (stockColumns.map Column.name).Nodup := by decide
  have hnow : (Value.text "2025-03-01 09:30:00").isBlank = false := by decide +kernel
  have h : process "2025-03-01 09:30:00" soldRows stockColumns = .ok soldFilled := by decide +kernel
  have hshort : ∀ c ∈ stockColumns, Short c soldFilled := by decide +kernel
  have hdistinct : ∀ c ∈ stockColumns, Distinct c soldFilled := by decide +kernel
  exact ⟨hn, hnow, h, hshort, hdistinct, process_again hn hnow h hshort hdistinct "2025-03-02 08:00:00"⟩

end FluentTables.Autofill
