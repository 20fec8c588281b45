import FluentTables.Proofs.Relation.Existence

/-!
# Cells written over

Attaching relations writes cells of their names and leaves every other cell as it is and where it is; new columns
follow at the end (`overlays_attach`).
-/

namespace FluentTables

/-- A cell stays in its column, and stays as it is unless its column is one of the names. -/
def KeptCell (names : List String) (old new : String × Value) : Prop :=
  new.1 = old.1 ∧ (old.1 ∉ names → new = old)

/-- A row with cells of some names written into it: the columns that were there keep their order, the cells of other
names stay as they are, and new columns follow at the end. -/
def Row.Overlays (names : List String) (source row : Row) : Prop :=
  ∃ (kept : List (String × Value)) (added : Row), row.entries = kept ++ added.entries ∧
    List.Forall₂ (KeptCell names) source.entries kept ∧
    added.keys.Nodup ∧ ∀ k ∈ added.keys, k ∈ names ∧ k ∉ source.keys

namespace OrderedMap

variable {α : Type} {k : String} {f : Option α → α}

theorem alterEntries_append_of_mem {es : List (String × α)} (h : k ∈ es.map (·.1)) (more : List (String × α)) :
    alterEntries k f (es ++ more) = alterEntries k f es ++ more := by
  induction es with
  | nil => cases h
  | cons e es ih =>
    obtain ⟨j, v⟩ := e
    by_cases hj : j = k
    · simp [alterEntries, hj]
    · have hk : k ∈ es.map (·.1) := (List.mem_cons.1 h).resolve_left (Ne.symm hj)
      simp [alterEntries, hj, ih hk]

theorem alterEntries_append_of_not_mem {es : List (String × α)} (h : k ∉ es.map (·.1)) (more : List (String × α)) :
    alterEntries k f (es ++ more) = es ++ alterEntries k f more := by
  induction es with
  | nil => rfl
  | cons e es ih =>
    obtain ⟨j, v⟩ := e
    rw [List.map_cons, List.mem_cons, not_or] at h
    simp [alterEntries, Ne.symm h.1, ih h.2]

end OrderedMap

namespace Row

variable {names : List String} {source row : Row}

theorem overlays_refl (names : List String) (row : Row) : Overlays names row row :=
  ⟨row.entries, .empty, (List.append_nil _).symm, List.forall₂_same.2 fun _ _ => ⟨rfl, fun _ => rfl⟩, List.nodup_nil,
    fun _ hk => nomatch hk⟩

theorem keys_of_forall₂ {es kept : List (String × Value)} (h : List.Forall₂ (KeptCell names) es kept) :
    kept.map (·.1) = es.map (·.1) := by
  induction h with
  | nil => rfl
  | cons he _ ih => rw [List.map_cons, List.map_cons, he.1, ih]

/-- A cell of one of the names may be written again. -/
theorem forall₂_alterEntries {es kept : List (String × Value)} {name : String} {f : Option Value → Value}
    (h : List.Forall₂ (KeptCell names) es kept) (hname : name ∈ names) (hmem : name ∈ kept.map (·.1)) :
    List.Forall₂ (KeptCell names) es (OrderedMap.alterEntries name f kept) := by
  induction h with
  | nil => cases hmem
  | @cons old new es kept he hrest ih =>
    obtain ⟨j, v⟩ := new
    by_cases hj : j = name
    · subst hj
      rw [OrderedMap.alterEntries, if_pos rfl]
      exact .cons ⟨he.1, fun hold => absurd (he.1 ▸ hname) hold⟩ hrest
    · rw [OrderedMap.alterEntries, if_neg hj]
      exact .cons he (ih ((List.mem_cons.1 hmem).resolve_left (Ne.symm hj)))

/-- One more cell of one of the names. -/
theorem Overlays.insert {name : String} (h : Overlays names source row) (hname : name ∈ names) (v : Value) :
    Overlays names source (row.insert name v) := by
  obtain ⟨kept, added, hentries, hkept, hnodup, hadded⟩ := h
  have hinsert : (row.insert name v).entries =
      OrderedMap.alterEntries name (fun _ => v) (kept ++ added.entries) := by
    rw [← hentries]
    rfl
  by_cases hmem : name ∈ kept.map (·.1)
  · rw [OrderedMap.alterEntries_append_of_mem hmem] at hinsert
    exact ⟨_, added, hinsert, forall₂_alterEntries hkept hname hmem, hnodup, hadded⟩
  · rw [OrderedMap.alterEntries_append_of_not_mem hmem] at hinsert
    refine ⟨kept, added.insert name v, hinsert, hkept, OrderedMap.keys_nodup_insert hnodup name v, fun k hk => ?_⟩
    rw [keys_of_forall₂ hkept] at hmem
    rw [OrderedMap.keys_insert] at hk
    split at hk
    · exact hadded k hk
    · rcases List.mem_append.1 hk with hk | hk
      · exact hadded k hk
      · rw [List.mem_singleton.1 hk]
        exact ⟨hname, hmem⟩

end Row

/-- **Attaching trees writes cells of their names only.** -/
theorem Naming.overlays_attach (n : Naming) (data : Dataset) {names : List String} {source row : Row}
    {nodes : List RelationNode} (hnodes : ∀ node ∈ nodes, node.name ∈ names) (owner : String)
    (h : Row.Overlays names source row) : Row.Overlays names source (n.attach data nodes owner row) := by
  induction nodes generalizing row with
  | nil => exact h
  | cons node nodes ih =>
    rw [attach_cons]
    exact ih (fun other hother => hnodes other (List.mem_cons_of_mem node hother))
      (h.insert (hnodes node List.mem_cons_self) _)

end FluentTables
