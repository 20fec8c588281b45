import FluentTables.Dataset

/-!
# Identifiers

The largest id of a list of rows is at least each of their ids (`le_maxId`), and the id that comes next is larger by
one unless it would pass the largest integer of 64 bits (`toInt_nextId`).
-/

namespace FluentTables

/-- The next id, counted as an integer. -/
theorem toInt_nextId (i : Int64) : (nextId i).toInt = min (i.toInt + 1) Int64.maxValue.toInt := by
  have hle := i.toInt_le
  have hmin := i.minValue_le_toInt
  rw [Int64.toInt_maxValue] at hle ⊢
  rw [Int64.toInt_minValue] at hmin
  unfold nextId
  split
  · next h => subst h; rfl
  · next h =>
    have hne : i.toInt ≠ 2 ^ 63 - 1 := fun e => h (Int64.toInt_inj.1 (by rw [e, Int64.toInt_maxValue]))
    rw [Int64.toInt_add, Int64.toInt_one, Int.bmod_eq_of_le (by omega) (by omega)]
    omega

theorem toInt_le_nextId (i : Int64) : i.toInt ≤ (nextId i).toInt := by
  have := i.toInt_le
  rw [toInt_nextId]
  omega

/-- An id that is not passed by the next one is the largest there is. -/
theorem eq_maxValue_of_nextId_le {i : Int64} (h : (nextId i).toInt ≤ i.toInt) : i = Int64.maxValue := by
  have := i.toInt_le
  rw [toInt_nextId] at h
  exact Int64.toInt_inj.1 (by omega)

theorem toInt_max (a b : Int64) : (max a b).toInt = max a.toInt b.toInt := by
  show (if a ≤ b then b else a).toInt = _
  split
  · next h => rw [Int64.le_iff_toInt_le] at h; omega
  · next h => rw [Int64.le_iff_toInt_le] at h; omega

/-- Folding with the maximum passes neither the start nor an element. -/
theorem le_foldl_max (l : List Int64) (m : Int64) :
    m.toInt ≤ (l.foldl max m).toInt ∧ ∀ i ∈ l, i.toInt ≤ (l.foldl max m).toInt := by
  induction l generalizing m with
  | nil => exact ⟨Int.le_refl _, fun i hi => by cases hi⟩
  | cons a l ih =>
    obtain ⟨hm, hl⟩ := ih (max m a)
    rw [toInt_max] at hm
    refine ⟨by rw [List.foldl_cons]; omega, fun i hi => ?_⟩
    rw [List.foldl_cons]
    rcases List.mem_cons.1 hi with rfl | hi
    · omega
    · exact hl i hi

/-- Folding with the maximum ends at the start or at an element. -/
theorem foldl_max_eq_or_mem (l : List Int64) (m : Int64) : l.foldl max m = m ∨ l.foldl max m ∈ l := by
  induction l generalizing m with
  | nil => exact Or.inl rfl
  | cons a l ih =>
    rw [List.foldl_cons]
    rcases ih (max m a) with h | h
    · have hmax : max m a = m ∨ max m a = a := by
        show (if m ≤ a then a else m) = m ∨ (if m ≤ a then a else m) = a
        split
        · exact Or.inr rfl
        · exact Or.inl rfl
      rw [h]
      rcases hmax with hm | ha
      · exact Or.inl hm
      · exact Or.inr (ha.symm ▸ List.mem_cons_self)
    · exact Or.inr (List.mem_cons_of_mem a h)

theorem maxId_nonneg (rows : List Row) : 0 ≤ (maxId rows).toInt := by
  have := (le_foldl_max (rows.filterMap fun row => (row.get? "id").bind Value.numericId?) 0).1
  rwa [Int64.toInt_zero] at this

/-- No numeric id of a row is above the largest id. -/
theorem le_maxId {rows : List Row} {r : Row} (hr : r ∈ rows) {v : Value} (hv : r.get? "id" = some v) {i : Int64}
    (hi : v.numericId? = some i) : i.toInt ≤ (maxId rows).toInt := by
  refine (le_foldl_max _ 0).2 i (List.mem_filterMap.2 ⟨r, hr, ?_⟩)
  rw [hv, Option.bind_some, hi]

end FluentTables
