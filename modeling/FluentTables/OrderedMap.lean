/-!
# Maps that keep the order of insertion

A key keeps the place of its first insertion and takes the value of its last one. The view of a map is its list of
`entries`; `get?_insert` and `keys_insert` say what an insertion does to it.
-/

namespace FluentTables

/-- A map from text that keeps the order of insertion. -/
structure OrderedMap (α : Type) where
  entries : List (String × α) := []
deriving DecidableEq

namespace OrderedMap

variable {α β : Type}

/-- The value of the first entry with a key. -/
def lookup (k : String) : List (String × α) → Option α
  | [] => none
  | (k', v) :: r => if k' = k then some v else lookup k r

/-- The first entry with a key replaced, or a new one at the end. -/
def alterEntries (k : String) (f : Option α → α) : List (String × α) → List (String × α)
  | [] => [(k, f none)]
  | (k', v) :: r => if k' = k then (k, f (some v)) :: r else (k', v) :: alterEntries k f r

/-- The map without entries. -/
def empty : OrderedMap α := ⟨[]⟩

instance : Inhabited (OrderedMap α) := ⟨empty⟩

/-- The value of a key. -/
def get? (m : OrderedMap α) (k : String) : Option α := lookup k m.entries

/-- The map has a key. -/
def contains (m : OrderedMap α) (k : String) : Bool := (m.get? k).isSome

/-- The keys in order. -/
def keys (m : OrderedMap α) : List String := m.entries.map (·.1)

/-- The number of entries. -/
def size (m : OrderedMap α) : Nat := m.entries.length

/-- The map has no entries. -/
def isEmpty (m : OrderedMap α) : Bool := m.entries.isEmpty

/-- The value of a key changed; a new key goes to the end. -/
def alter (m : OrderedMap α) (k : String) (f : Option α → α) : OrderedMap α := ⟨alterEntries k f m.entries⟩

/-- The value of a key set; a new key goes to the end. -/
def insert (m : OrderedMap α) (k : String) (v : α) : OrderedMap α := m.alter k fun _ => v

/-- A key added with a value, unless it is there already. -/
def insertNew (m : OrderedMap α) (k : String) (v : α) : OrderedMap α :=
  if m.contains k then m else m.insert k v

/-- Entries inserted one after another. -/
def insertAll (m : OrderedMap α) (es : List (String × α)) : OrderedMap α :=
  es.foldl (fun m e => m.insert e.1 e.2) m

/-- The map of a list of entries. -/
def ofList (es : List (String × α)) : OrderedMap α := insertAll empty es

@[simp] theorem get?_empty (k : String) : (empty : OrderedMap α).get? k = none := rfl

theorem lookup_alterEntries (k j : String) (f : Option α → α) (es : List (String × α)) :
    lookup j (alterEntries k f es) = if k = j then some (f (lookup j es)) else lookup j es := by
  induction es with
  | nil => simp [alterEntries, lookup]
  | cons e r ih =>
    obtain ⟨k', v⟩ := e
    by_cases h : k' = k
    · subst h
      by_cases hj : k' = j <;> simp [alterEntries, lookup, hj]
    · by_cases hj : k' = j
      · subst hj
        simp [alterEntries, lookup, h, Ne.symm h]
      · simp [alterEntries, lookup, h, hj, ih]

theorem get?_alter (m : OrderedMap α) (k j : String) (f : Option α → α) :
    (m.alter k f).get? j = if k = j then some (f (m.get? j)) else m.get? j :=
  lookup_alterEntries k j f m.entries

theorem get?_insert (m : OrderedMap α) (k j : String) (v : α) :
    (m.insert k v).get? j = if k = j then some v else m.get? j := by
  simp [insert, get?_alter]

@[simp] theorem get?_insert_self (m : OrderedMap α) (k : String) (v : α) : (m.insert k v).get? k = some v := by
  simp [get?_insert]

theorem get?_insert_ne (m : OrderedMap α) {k j : String} (h : k ≠ j) (v : α) :
    (m.insert k v).get? j = m.get? j := by
  simp [get?_insert, h]

theorem alterEntries_eq_self {k : String} {v : α} {es : List (String × α)} (h : lookup k es = some v) :
    alterEntries k (fun _ => v) es = es := by
  induction es with
  | nil => cases h
  | cons e r ih =>
    obtain ⟨j, w⟩ := e
    unfold lookup at h
    unfold alterEntries
    split
    · next hj =>
      rw [if_pos hj] at h
      cases h
      rw [hj]
    · next hj =>
      rw [if_neg hj] at h
      rw [ih h]

/-- A key set to the value that it has. -/
theorem insert_eq_self {m : OrderedMap α} {k : String} {v : α} (h : m.get? k = some v) : m.insert k v = m :=
  congrArg OrderedMap.mk (alterEntries_eq_self h)

theorem lookup_isSome_iff (k : String) (es : List (String × α)) :
    (lookup k es).isSome = true ↔ k ∈ es.map (·.1) := by
  induction es with
  | nil => simp [lookup]
  | cons e r ih =>
    obtain ⟨k', v⟩ := e
    by_cases h : k' = k
    · simp [lookup, h]
    · simp only [lookup, h, if_false, ih, List.map_cons, List.mem_cons]
      exact ⟨Or.inr, fun hm => hm.resolve_left (fun he => h he.symm)⟩

theorem contains_iff (m : OrderedMap α) (k : String) : m.contains k = true ↔ k ∈ m.keys :=
  lookup_isSome_iff k m.entries

theorem keys_alterEntries (k : String) (f : Option α → α) (es : List (String × α)) :
    (alterEntries k f es).map (·.1) =
      if k ∈ es.map (·.1) then es.map (·.1) else es.map (·.1) ++ [k] := by
  induction es with
  | nil => simp [alterEntries]
  | cons e r ih =>
    obtain ⟨k', v⟩ := e
    by_cases h : k' = k
    · simp [alterEntries, h]
    · simp only [alterEntries, h, if_false, List.map_cons, ih, List.mem_cons, Ne.symm h, false_or]
      split <;> simp

/-- A known key leaves the keys as they are; a new one goes to the end. -/
theorem keys_alter (m : OrderedMap α) (k : String) (f : Option α → α) :
    (m.alter k f).keys = if k ∈ m.keys then m.keys else m.keys ++ [k] :=
  keys_alterEntries k f m.entries

theorem keys_insert (m : OrderedMap α) (k : String) (v : α) :
    (m.insert k v).keys = if k ∈ m.keys then m.keys else m.keys ++ [k] :=
  m.keys_alter k _

theorem keys_prefix_alter (m : OrderedMap α) (k : String) (f : Option α → α) : m.keys <+: (m.alter k f).keys := by
  rw [keys_alter]
  split
  · exact List.prefix_refl _
  · exact List.prefix_append _ _

theorem keys_insertNew (m : OrderedMap α) (k : String) (v : α) :
    (m.insertNew k v).keys = if k ∈ m.keys then m.keys else m.keys ++ [k] := by
  unfold insertNew
  simp only [contains_iff]
  split
  · rfl
  · next h => rw [keys_insert, if_neg h]

theorem mem_keys_insertNew {m : OrderedMap α} {k j : String} {v : α} :
    j ∈ (m.insertNew k v).keys ↔ j ∈ m.keys ∨ j = k := by
  rw [keys_insertNew]
  split
  · next h => exact ⟨Or.inl, fun hj => hj.elim id fun he => he ▸ h⟩
  · simp

/-- A known key keeps its value. -/
theorem get?_insertNew (m : OrderedMap α) (k j : String) (v : α) :
    (m.insertNew k v).get? j = if k = j then (m.get? j).or (some v) else m.get? j := by
  unfold insertNew
  cases h : m.get? k with
  | some w =>
    rw [if_pos (by simp [contains, h])]
    split
    · next hj => subst hj; rw [h]; rfl
    · rfl
  | none =>
    rw [if_neg (by simp [contains, h]), get?_insert]
    split
    · next hj => subst hj; rw [h]; rfl
    · rfl

/-- A new key goes to the end with its value. -/
theorem alterEntries_of_not_mem {k : String} {es : List (String × α)} (h : k ∉ es.map (·.1)) (f : Option α → α) :
    alterEntries k f es = es ++ [(k, f none)] := by
  induction es with
  | nil => rfl
  | cons e r ih =>
    obtain ⟨k', v⟩ := e
    rw [List.map_cons, List.mem_cons, not_or] at h
    rw [alterEntries, if_neg (Ne.symm h.1), ih h.2]
    rfl

theorem entries_insertNew (m : OrderedMap α) (k : String) (v : α) :
    (m.insertNew k v).entries = m.entries ++ if k ∈ m.keys then [] else [(k, v)] := by
  unfold insertNew
  simp only [contains_iff]
  split
  · simp
  · next h => exact alterEntries_of_not_mem h _

theorem entries_insertAll {m : OrderedMap α} {es : List (String × α)} (h : (m.keys ++ es.map (·.1)).Nodup) :
    (m.insertAll es).entries = m.entries ++ es := by
  induction es generalizing m with
  | nil => simp [insertAll]
  | cons e r ih =>
    obtain ⟨k, v⟩ := e
    have hk : k ∉ m.keys := fun hk => (List.nodup_append.1 h).2.2 k hk k (by simp) rfl
    have hinsert : (m.insert k v).entries = m.entries ++ [(k, v)] := alterEntries_of_not_mem hk _
    have hkeys : (m.insert k v).keys = m.keys ++ [k] := by rw [keys_insert, if_neg hk]
    have hrest : (m.insertAll ((k, v) :: r)).entries = ((m.insert k v).insertAll r).entries := rfl
    rw [hrest, ih (by simpa [hkeys] using h), hinsert, List.append_assoc, List.singleton_append]

/-- Entries with distinct keys are those of their map. -/
theorem entries_ofList {es : List (String × α)} (h : (es.map (·.1)).Nodup) : (ofList es).entries = es :=
  entries_insertAll h

/-- Of entries inserted with distinct keys each has its value. -/
theorem get?_insertAll {es : List (String × α)} (h : (es.map (·.1)).Nodup) (m : OrderedMap α) (k : String) :
    (m.insertAll es).get? k = (lookup k es).or (m.get? k) := by
  induction es generalizing m with
  | nil => rfl
  | cons e r ih =>
    obtain ⟨j, v⟩ := e
    rw [List.map_cons, List.nodup_cons] at h
    have hrest : (m.insertAll ((j, v) :: r)).get? k = ((m.insert j v).insertAll r).get? k := rfl
    rw [hrest, ih h.2, get?_insert, lookup]
    by_cases hk : j = k
    · subst hk
      have hnone : lookup j r = none := by
        rw [← Option.not_isSome_iff_eq_none, lookup_isSome_iff]
        exact h.1
      simp [hnone]
    · simp [hk]

/-- The value of a key is one that was inserted, or was there before. -/
theorem mem_of_get?_insertAll {m : OrderedMap α} {es : List (String × α)} {k : String} {v : α}
    (h : (m.insertAll es).get? k = some v) : (k, v) ∈ es ∨ m.get? k = some v := by
  induction es generalizing m with
  | nil => exact Or.inr h
  | cons e r ih =>
    obtain ⟨j, w⟩ := e
    rcases ih (m := m.insert j w) h with hr | hm
    · exact Or.inl (List.mem_cons_of_mem _ hr)
    · rw [get?_insert] at hm
      split at hm
      · next hj =>
        cases hm
        exact Or.inl (hj ▸ List.mem_cons_self)
      · exact Or.inr hm

theorem keys_prefix_insertAll (m : OrderedMap α) (es : List (String × α)) : m.keys <+: (m.insertAll es).keys := by
  induction es generalizing m with
  | nil => exact List.prefix_refl _
  | cons e r ih => exact (m.keys_prefix_alter e.1 _).trans (ih _)

theorem mem_keys_insertAll (m : OrderedMap α) (es : List (String × α)) (k : String) :
    k ∈ (m.insertAll es).keys ↔ k ∈ m.keys ∨ k ∈ es.map (·.1) := by
  induction es generalizing m with
  | nil => simp [insertAll]
  | cons e r ih =>
    have hinsert : k ∈ (m.insert e.1 e.2).keys ↔ k ∈ m.keys ∨ k = e.1 := by
      rw [keys_insert]
      split
      · next h => exact ⟨Or.inl, fun hk => hk.elim id fun he => he ▸ h⟩
      · simp
    rw [show m.insertAll (e :: r) = (m.insert e.1 e.2).insertAll r from rfl, ih, hinsert, List.map_cons,
      List.mem_cons, or_assoc]

theorem keys_nodup_alter {m : OrderedMap α} (h : m.keys.Nodup) (k : String) (f : Option α → α) :
    (m.alter k f).keys.Nodup := by
  rw [keys_alter]
  split
  · exact h
  · next hk =>
    rw [List.nodup_append]
    exact ⟨h, by simp, by rintro a ha b hb rfl; simp_all⟩

theorem keys_nodup_insert {m : OrderedMap α} (h : m.keys.Nodup) (k : String) (v : α) :
    (m.insert k v).keys.Nodup := keys_nodup_alter h k _

theorem keys_nodup_insertAll {m : OrderedMap α} (h : m.keys.Nodup) (es : List (String × α)) :
    (m.insertAll es).keys.Nodup := by
  induction es generalizing m with
  | nil => exact h
  | cons e r ih => exact ih (keys_nodup_insert h e.1 e.2)

/-- A map that was built from entries has each key once. -/
theorem keys_nodup_ofList (es : List (String × α)) : (ofList es).keys.Nodup :=
  keys_nodup_insertAll (by simp [empty, keys]) es

end OrderedMap

end FluentTables
