import FluentTables.Proofs.Autofill.Filling
import FluentTables.Proofs.Decimal.Integers
import FluentTables.Proofs.Query.Creations

/-!
# Ids that are made are new

An id is made by counting on from the largest id there is. An id that is an integer counts as itself. The text of an
integer counts as the nearest floating-point number, which is the integer itself up to `2 ^ 53`
(`numericId?_toString`). So an id that is made, by a creation or while a batch is filled in, has the key of none of
the ids that are there (`made_ids_fresh`), as long as no text among them says more than `2 ^ 53`; the first text
beyond that is read as one too little, and the id that is made repeats its key (`made_ids_repeat`).
-/

namespace FluentTables

/-- An id that leaves room for a next one and is read as what it says. -/
def ReadableId (v : Value) : Prop :=
  ∃ i : Int64, i ≠ Int64.maxValue ∧ (v = .int i ∨ v = .text (toString i.toInt) ∧ i.toInt ≤ 2 ^ 53)

/-- The text of an integer up to `2 ^ 53` counts as that integer. -/
theorem numericId?_toString {i : Int} (h0 : 0 ≤ i) (h : i ≤ 2 ^ 53) :
    ∃ j, (Value.text (toString i)).numericId? = some j ∧ j.toInt = i := by
  refine ⟨(Binary64.ofDecimal (decide (i < 0)) i.natAbs 0).truncate, ?_, ?_⟩
  · show ((Numeral.parse? (toString i).toList).map Numeral.toBinary64).map Binary64.truncate = _
    rw [Numeral.parse?_toString, Option.map_some, Option.map_some, Numeral.toBinary64_ofInt]
  · rw [decide_eq_false (by omega), Binary64.truncate_ofDecimal_of_le (by omega)]
    omega

section Rows

variable {rows : List Row} {r : Row} {v : Value}

/-- No readable id is above the largest id. -/
theorem toInt_le_maxId {i : Int64} (hr : r ∈ rows) (hv : r.get? "id" = some v)
    (h : v = .int i ∨ v = .text (toString i.toInt) ∧ i.toInt ≤ 2 ^ 53) : i.toInt ≤ (maxId rows).toInt := by
  rcases h with rfl | ⟨rfl, hle⟩
  · exact le_maxId hr hv rfl
  · by_cases h0 : 0 ≤ i.toInt
    · obtain ⟨j, hj, hji⟩ := numericId?_toString h0 hle
      have := le_maxId hr hv hj
      omega
    · have := maxId_nonneg rows
      omega

/-- An id that is not before the next one has the key of no readable id. -/
theorem key_ne_of_nextId_le (hr : r ∈ rows) (hv : r.get? "id" = some v) (h : ReadableId v) {g : Int64}
    (hg : (nextId (maxId rows)).toInt ≤ g.toInt) : v.key ≠ (Value.int g).key := by
  obtain ⟨i, hmax, hi⟩ := h
  have hle := toInt_le_maxId hr hv hi
  have hkey : v.key = toString i.toInt := by rcases hi with rfl | ⟨rfl, -⟩ <;> rfl
  rw [hkey]
  show toString i.toInt ≠ toString g.toInt
  rw [Ne, Numeral.toString_inj]
  intro heq
  have htop := i.toInt_le
  rw [toInt_nextId] at hg
  exact hmax (Int64.toInt_inj.1 (by omega))

end Rows

/-! ## Ids made while a batch is filled in -/

namespace Autofill

variable {now : String} {columns : List Column} {rows : List Row} {i : Nat} {g : Int64}

/-- Row `i` of a batch takes the id `g`: it gives no value for a counter, and `g` is the id that comes next when the
columns before the counter have been filled in. -/
def Takes (now : String) (columns : List Column) (rows : List Row) (i : Nat) (g : Int64) : Prop :=
  ∃ input pre c post, rows[i]? = some input ∧ columns = pre ++ c :: post ∧ c.isCounter = true ∧
    given? input "id" = none ∧ g = (pre.foldl (fillColumn now input) ⟨input, idAt now columns rows i⟩).next

/-- An id that is taken does not come before the first one of the batch. -/
theorem Takes.nextId_maxId_le (h : Takes now columns rows i g) : (nextId (maxId rows)).toInt ≤ g.toInt := by
  obtain ⟨input, pre, c, post, -, -, -, -, rfl⟩ := h
  exact Int.le_trans (nextId_maxId_le_idAt now columns rows i) (next_foldl_fillColumn_ge now input pre _)

/-- With columns of distinct names an id that is taken is the id of the filled row. -/
theorem Takes.get?_id (h : Takes now columns rows i g) (hn : (columns.map Column.name).Nodup) :
    (filledBatch now columns rows)[i]?.bind (·.get? "id") = some (.int g) := by
  obtain ⟨input, pre, c, post, hi, rfl, hc, hgiven, rfl⟩ := h
  have hname := name_of_isCounter hc
  have hpre : "id" ∉ pre.map Column.name := by
    rw [List.map_append, List.map_cons, List.nodup_append] at hn
    exact fun hmem => hn.2.2 _ hmem _ List.mem_cons_self hname.symm
  have hcell : (fillRow now (pre ++ c :: post) (idAt now (pre ++ c :: post) rows i) input).row.get? c.name = _ :=
    get?_fillRow hn (List.mem_append_right pre List.mem_cons_self) _ input
  rw [getElem?_filledBatch, hi, Option.map_some, Option.bind_some, ← hname, hcell, hname, hgiven,
    next_foldl_fillColumn_of_not_any input _ (any_isCounter_of_not_mem hpre)]
  simp [fill?, hc]

end Autofill

/-! ## Both ways to make an id -/

/-- **An id that is made has the key of no id that is there**, if every id that is there is readable: the id of a
created row, and every id that a batch takes, whether the batch is accepted or not. -/
theorem made_ids_fresh {i : Interpreter} {query table : String} {data : Dataset} {rows : List Row} {now : String}
    {columns : List Column}
    (hdata : ∀ r ∈ data.rows table, ∀ v, r.get? "id" = some v → ReadableId v)
    (hrows : ∀ r ∈ rows, ∀ v, Autofill.given? r "id" = some v → ReadableId v) :
    (∀ row, i.interpret query data = .created table row → Query.leavesIdOut query = true →
      ∃ g, row.get? "id" = some (.int g) ∧
        ∀ r ∈ data.rows table, ∀ v, r.get? "id" = some v → v.key ≠ (Value.int g).key) ∧
    ∀ n g, Autofill.Takes now columns rows n g →
      (∀ r ∈ rows, ∀ v, Autofill.given? r "id" = some v → v.key ≠ (Value.int g).key) ∧
        ((columns.map Column.name).Nodup →
          (Autofill.filledBatch now columns rows)[n]?.bind (·.get? "id") = some (.int g)) := by
  refine ⟨fun row hrow hid => ⟨_, Interpreter.get?_id_of_created hrow hid, fun r hr v hv => ?_⟩,
    fun n g htakes => ⟨fun r hr v hv => ?_, htakes.get?_id⟩⟩
  · exact key_ne_of_nextId_le hr hv (hdata r hr v hv) (Int.le_refl _)
  · exact key_ne_of_nextId_le hr (Autofill.given?_eq_some_iff.1 hv).1 (hrows r hr v hv) htakes.nextId_maxId_le

/-- Rows with ids up to `2 ^ 53`, the last of them a text. -/
def mixedIds : List Row := [⟨[("id", .int 7)]⟩, ⟨[("id", .text "9007199254740992")]⟩]

theorem readableId_mixedIds : ∀ r ∈ mixedIds, ∀ v, r.get? "id" = some v → ReadableId v := by
  intro r hr v hv
  simp only [mixedIds, List.mem_cons, List.not_mem_nil, or_false] at hr
  rcases hr with rfl | rfl
  · exact ⟨7, by decide, Or.inl (Option.some.inj hv).symm⟩
  · exact ⟨9007199254740992, by decide, Or.inr ⟨(Option.some.inj hv).symm, by decide⟩⟩

theorem made_ids_fresh_mixedIds :
    let i : Interpreter := ⟨.extend .empty .empty, "<now>"⟩
    let data : Dataset := ⟨⟨[("ts", mixedIds)]⟩⟩
    let counter : Column := { name := "id", type := .bigint, autoIncrement := true }
    let made : Value := .int 9007199254740993
    (∃ row, i.interpret "T::create(['a' => 1])" data = .created "ts" row ∧ row.get? "id" = some made) ∧
      (∀ r ∈ mixedIds, ∀ v, r.get? "id" = some v → v.key ≠ made.key) ∧
      (Autofill.filledBatch "<now>" [counter] (mixedIds ++ [.empty]))[2]?.bind (·.get? "id") = some made := by
  intro i data counter made
  have hgiven : ∀ r ∈ mixedIds ++ [.empty], ∀ v, Autofill.given? r "id" = some v → ReadableId v := by
    intro r hr v hv
    rcases List.mem_append.1 hr with hr | hr
    · exact readableId_mixedIds r hr v (Autofill.given?_eq_some_iff.1 hv).1
    · rw [List.mem_singleton.1 hr] at hv
      cases hv
  have hdata : ∀ r ∈ data.rows "ts", ∀ v, r.get? "id" = some v → ReadableId v := readableId_mixedIds
  have htakes : Autofill.Takes "<now>" [counter] (mixedIds ++ [.empty]) 2 9007199254740993 :=
    ⟨.empty, [], counter, [], rfl, rfl, rfl, rfl, by decide +kernel⟩
  have hcreated : i.interpret "T::create(['a' => 1])" data = .created "ts"
      ⟨[("a", .int 1), ("created_at", .text "<now>"), ("updated_at", .text "<now>"), ("id", made)]⟩ := by
    decide +kernel
  obtain ⟨hcreate, hbatch⟩ :=
    @made_ids_fresh i "T::create(['a' => 1])" "ts" data (mixedIds ++ [.empty]) "<now>" [counter] hdata hgiven
  obtain ⟨g, hg, hfresh⟩ := hcreate _ hcreated (by decide +kernel)
  obtain rfl : 9007199254740993 = g := Value.int.inj (Option.some.inj hg)
  exact ⟨⟨_, hcreated, rfl⟩, hfresh, (hbatch 2 _ htakes).2 (by decide)⟩

/-- The first text beyond `2 ^ 53`: it is read as one too little, and the next id repeats its key. -/
theorem made_ids_repeat :
    let i : Interpreter := ⟨.extend .empty .empty, "<now>"⟩
    let id : Value := .text (toString (9007199254740993 : Int64).toInt)
    let made : Value := .int 9007199254740993
    let rows : List Row := [⟨[("id", id)]⟩]
    let counter : Column := { name := "id", type := .bigint, autoIncrement := true }
    ((9007199254740993 : Int64) ≠ Int64.maxValue ∧ Query.leavesIdOut "T::create(['a' => 1])" = true) ∧
      i.interpret "T::create(['a' => 1])" ⟨⟨[("ts", rows)]⟩⟩ = .created "ts"
        ⟨[("a", .int 1), ("created_at", .text "<now>"), ("updated_at", .text "<now>"), ("id", made)]⟩ ∧
      Autofill.process "<now>" (rows ++ [.empty]) [counter] = .ok (rows ++ [⟨[("id", made)]⟩]) ∧
      id.key = made.key := by
  decide +kernel

end FluentTables
