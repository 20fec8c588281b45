import FluentTables.Query.Interpret

/-!
# Creations

A query creates a row only by the shape of a creation (`interpret_created`). The row has the cells that the query
states, and the next id of the table if it states none (`get?_id_newRow`).
-/

namespace FluentTables

/-- A query that creates a row and states no id for it. -/
def Query.leavesIdOut (query : String) : Bool :=
  match Shape.recognize? (Query.prepare query.toList) with
  | some (.create, m) => !(Interpreter.statedCells (m.group 2)).contains "id"
  | _ => false

namespace Interpreter

variable {i : Interpreter} {query table : String} {data : Dataset} {row : Row}

/-- A row that a query creates is made from the pairs of the query. -/
theorem interpret_created (h : i.interpret query data = .created table row) :
    ∃ m, Shape.recognize? (Query.prepare query.toList) = some (.create, m) ∧
      row = i.newRow (m.group 2) table data := by
  unfold interpret at h
  dsimp only at h
  split at h
  · next shape m hshape =>
    cases shape with
    | create =>
      simp only [dispatch, QueryResult.created.injEq] at h
      obtain ⟨rfl, rfl⟩ := h
      exact ⟨m, hshape, rfl⟩
    | multiWhere | whereWith | whereGet | whereFirst =>
      simp only [dispatch] at h
      split at h <;> cases h
    | _ => cases h
  · cases h

/-- Without a stated id a new row has the next one of its table. -/
theorem get?_id_newRow (body : List Char) (h : (statedCells body).contains "id" = false) :
    (i.newRow body table data).get? "id" = some (.int (nextId (data.maxId table))) := by
  have hstated : (statedCells body).get? "id" = none := by
    simpa [OrderedMap.contains] using h
  unfold newRow
  rw [OrderedMap.get?_insertNew, if_pos rfl, OrderedMap.get?_insertNew, if_neg (by decide), OrderedMap.get?_insertNew,
    if_neg (by decide), hstated, Option.none_or]

/-- **The id of a row that is created without one.** -/
theorem get?_id_of_created (h : i.interpret query data = .created table row) (hid : Query.leavesIdOut query = true) :
    row.get? "id" = some (.int (nextId (data.maxId table))) := by
  obtain ⟨m, hshape, rfl⟩ := interpret_created h
  unfold Query.leavesIdOut at hid
  rw [hshape] at hid
  exact get?_id_newRow _ (by simpa using hid)

end Interpreter

end FluentTables
