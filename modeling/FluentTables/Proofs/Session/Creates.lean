import FluentTables.Proofs.Identifiers
import FluentTables.Proofs.Query.Creations
import FluentTables.Proofs.Session.Store

/-!
# Ids along a run

A creation counts on from the largest id that its table has at the time. When a table starts with distinct integers
as its ids (`Counted`) and a run writes to it only by creations that state no id (`createsOnly`), the rows that are
created have consecutive ids in the order of the statements, and the ids of the table stay distinct at every point of
the run (`ids_of_creates`). What one statement does to the table is `rows_next` and `counted_next`.
-/

namespace FluentTables

variable {rows : List Row} {row : Row} {m : Int}

/-! ## Distinct integers as ids -/

/-- The id of a row is an integer. -/
def IdIs (row : Row) (k : Int) : Prop := ∃ i : Int64, row.get? "id" = some (.int i) ∧ i.toInt = k

/-- The integers in the id cells of rows. -/
def intIds (rows : List Row) : List Int :=
  rows.filterMap fun row => match row.get? "id" with
    | some (.int i) => some i.toInt
    | _ => none

theorem mem_intIds {k : Int} : k ∈ intIds rows ↔ ∃ r ∈ rows, IdIs r k := by
  rw [intIds, List.mem_filterMap]
  constructor
  · rintro ⟨r, hr, h⟩
    split at h
    · next i hi => exact ⟨r, hr, i, hi, Option.some.inj h⟩
    · cases h
  · rintro ⟨r, hr, i, hi, rfl⟩
    exact ⟨r, hr, by rw [hi]⟩

theorem intIds_append {k : Int} (h : IdIs row k) : intIds (rows ++ [row]) = intIds rows ++ [k] := by
  obtain ⟨i, hi, rfl⟩ := h
  rw [intIds, List.filterMap_append, ← intIds, List.filterMap_cons, hi]
  rfl

/-- The ids of rows are distinct integers, and `m` is the largest of them, or zero if none is above zero. -/
structure Counted (rows : List Row) (m : Int) : Prop where
  ints : ∀ r ∈ rows, ∀ v, r.get? "id" = some v → ∃ i, v = .int i
  distinct : (intIds rows).Nodup
  le : ∀ k ∈ intIds rows, k ≤ m
  nonneg : 0 ≤ m
  attained : m = 0 ∨ m ∈ intIds rows

namespace Counted

theorem toInt_maxId (h : Counted rows m) : (maxId rows).toInt = m := by
  have hle : (maxId rows).toInt ≤ m := by
    rcases foldl_max_eq_or_mem (rows.filterMap fun row => (row.get? "id").bind Value.numericId?) 0 with hzero | hmem
    · rw [maxId, hzero, Int64.toInt_zero]
      exact h.nonneg
    · obtain ⟨r, hr, hnum⟩ := List.mem_filterMap.1 hmem
      obtain ⟨v, hv, hnum⟩ := Option.bind_eq_some_iff.1 hnum
      obtain ⟨i, rfl⟩ := h.ints r hr v hv
      exact h.le _ (mem_intIds.2 ⟨r, hr, i, hv, congrArg Int64.toInt (Option.some.inj hnum)⟩)
  have hge : m ≤ (maxId rows).toInt := by
    rcases h.attained with hzero | hmem
    · rw [hzero]
      exact maxId_nonneg rows
    · obtain ⟨r, hr, i, hi, rfl⟩ := mem_intIds.1 hmem
      exact le_maxId hr hi rfl
  exact Int.le_antisymm hle hge

/-- The id that comes next, as long as there is room for one. -/
theorem toInt_nextId (h : Counted rows m) (hroom : m + 1 ≤ Int64.maxValue.toInt) :
    (nextId (maxId rows)).toInt = m + 1 := by
  rw [FluentTables.toInt_nextId, h.toInt_maxId, Int.min_eq_left hroom]

/-- A row with the next id added. -/
theorem append (h : Counted rows m) (hid : IdIs row (m + 1)) : Counted (rows ++ [row]) (m + 1) := by
  have hids : intIds (rows ++ [row]) = intIds rows ++ [m + 1] := intIds_append hid
  constructor
  case ints =>
    intro r hr v hv
    rcases List.mem_append.1 hr with hr | hr
    · exact h.ints r hr v hv
    · obtain ⟨i, hi, -⟩ := hid
      rw [List.mem_singleton.1 hr, hi, Option.some.injEq] at hv
      exact ⟨i, hv.symm⟩
  case distinct =>
    rw [hids, List.nodup_append]
    refine ⟨h.distinct, by simp, fun k hk j hj => ?_⟩
    have := h.le k hk
    have := List.mem_singleton.1 hj
    omega
  case le =>
    intro k hk
    rw [hids, List.mem_append, List.mem_singleton] at hk
    rcases hk with hk | rfl
    · have := h.le k hk
      omega
    · exact Int.le_refl _
  case nonneg =>
    have := h.nonneg
    omega
  case attained => exact Or.inr (by rw [hids]; simp)

end Counted

/-! ## One statement -/

namespace Session

variable {s t : Session} {o : Output} {table : String} {e : Nat × List Char}

/-- The row that a statement creates in a table. -/
def created? (table : String) (s : Session) (e : Nat × List Char) : Option Row :=
  match s.execute e.1 e.2 with
  | .ok (.result (.created t row), _) => if t = table then some row else none
  | _ => none

/-- A statement that writes to a table only by creating a row for which it states no id. -/
def createsOnly (table : String) (s : Session) (e : Nat × List Char) : Bool :=
  match s.execute e.1 e.2 with
  | .ok (.result (.created t _), _) => t != table || Query.leavesIdOut (String.ofList (Text.trim e.2))
  | .ok _ => kind e.2 != .saving || (saveRequest? (Text.trim e.2)).map (·.1) != some table
  | .error _ => true

/-- Only a query that creates a row in the table has created one. -/
theorem created?_of_ne (hok : s.execute e.1 e.2 = .ok (o, t)) (ho : ∀ row, o ≠ .result (.created table row)) :
    created? table s e = none := by
  unfold created?
  rw [hok]
  cases o with
  | result r =>
    cases r with
    | created u row => exact if_neg fun hu => ho row (by rw [hu])
    | _ => rfl
  | _ => rfl

/-- What a statement does to a table that it writes to only by creations. -/
theorem rows_next (h : createsOnly table s e = true) :
    (s.next e.1 e.2).data.rows table = s.data.rows table ++ (created? table s e).toList ∧
      ∀ row, created? table s e = some row → row.get? "id" = some (.int (nextId (s.data.maxId table))) := by
  unfold createsOnly at h
  -- What creates nothing in the table has to leave its rows.
  have hkept : ∀ t : Session, created? table s e = none → t.data.rows table = s.data.rows table →
      t.data.rows table = s.data.rows table ++ (created? table s e).toList ∧
        ∀ row, created? table s e = some row → row.get? "id" = some (.int (nextId (s.data.maxId table))) := by
    intro t hnone hrows
    rw [hnone, hrows]
    simp
  rcases next_cases s e.1 e.2 with ⟨err, herr, heq⟩ | ⟨o, hok, heffect⟩
  · rw [heq]
    exact hkept s (by unfold created?; rw [herr]) rfl
  · generalize s.next e.1 e.2 = t at hok heffect
    rw [hok] at h
    cases heffect with
    | @created u row hk hresult =>
      by_cases hu : u = table
      · subst hu
        have hcreated : created? u s e = some row := by unfold created?; rw [hok]; exact if_pos rfl
        rw [hcreated, Dataset.rows_push, if_pos rfl]
        refine ⟨rfl, fun row' hrow => ?_⟩
        cases hrow
        exact Interpreter.get?_id_of_created hresult (by simpa using h)
      · refine hkept _ (created?_of_ne hok (by simp [hu])) ?_
        rw [Dataset.rows_push, if_neg hu]
    | @saved u rows filled columns hk hrequest hcolumns hfilled =>
      have hu : u ≠ table := by simpa [hk, hrequest] using h
      refine hkept _ (created?_of_ne hok (by simp)) ?_
      rw [Dataset.rows_setRows, if_neg hu]
    | declared hk => exact hkept _ (created?_of_ne hok (by simp)) (rows_declare s _ table)
    | answered hk hresult hr =>
      exact hkept s (created?_of_ne hok fun row heq => hr table row (Output.result.inj heq)) rfl
    | silent hk => exact hkept s (created?_of_ne hok (by simp)) rfl
    | shown hk ho => exact hkept s (created?_of_ne hok fun row => ho _) rfl

/-- A row that is created has the id after the largest one, and the ids stay distinct integers. -/
theorem counted_next (h : createsOnly table s e = true) (hc : Counted (s.data.rows table) m)
    (hroom : m + (created? table s e).toList.length ≤ Int64.maxValue.toInt) :
    Counted ((s.next e.1 e.2).data.rows table) (m + (created? table s e).toList.length) ∧
      ∀ row, created? table s e = some row → IdIs row (m + 1) := by
  obtain ⟨hrows, hid⟩ := rows_next h
  rw [hrows]
  cases hcreated : created? table s e with
  | none =>
    refine ⟨?_, nofun⟩
    simpa using hc
  | some row =>
    rw [hcreated] at hroom
    have hnext : IdIs row (m + 1) := ⟨_, hid row hcreated, hc.toInt_nextId hroom⟩
    refine ⟨hc.append hnext, fun row' hrow => ?_⟩
    cases hrow
    exact hnext

/-! ## Runs -/

/-- The rows that a run creates in a table, in order. -/
def createdRows (table : String) : Session → List (Nat × List Char) → List Row
  | _, [] => []
  | s, e :: run => (created? table s e).toList ++ createdRows table (s.next e.1 e.2) run

/-- A run that writes to a table only by creating rows for which it states no id. -/
def runCreatesOnly (table : String) : Session → List (Nat × List Char) → Bool
  | _, [] => true
  | s, e :: run => createsOnly table s e && runCreatesOnly table (s.next e.1 e.2) run

/-- Rows numbered on from `m`, with or without a first one before the others. -/
theorem idIs_of_append {first : Option Row} {rest : List Row} (hfirst : ∀ row, first = some row → IdIs row (m + 1))
    (hrest : ∀ (j : Nat) row, rest[j]? = some row → IdIs row (m + first.toList.length + 1 + j)) {j : Nat} {row : Row}
    (h : (first.toList ++ rest)[j]? = some row) : IdIs row (m + 1 + j) := by
  cases first with
  | none => simpa using hrest j row h
  | some r =>
    cases j with
    | zero =>
      cases h
      simpa using hfirst _ rfl
    | succ j =>
      have hid := hrest j row h
      rwa [show m + (some r).toList.length + 1 + j = m + 1 + (j + 1 : Nat) by simp; omega] at hid

/-- **Ids along a run**: rows that are created are numbered on from the largest id, whatever else the run does, and
at every point of the run the ids of the table are distinct integers with the last number as their largest. -/
theorem ids_of_creates {run : List (Nat × List Char)} (hrun : runCreatesOnly table s run = true)
    (hc : Counted (s.data.rows table) m)
    (hroom : m + (createdRows table s run).length ≤ Int64.maxValue.toInt) :
    (s.nextAll run).data.rows table = s.data.rows table ++ createdRows table s run ∧
      (∀ (j : Nat) row, (createdRows table s run)[j]? = some row → IdIs row (m + 1 + j)) ∧
      ∀ j, Counted ((s.nextAll (run.take j)).data.rows table) (m + (createdRows table s (run.take j)).length) := by
  induction run generalizing s m with
  | nil =>
    refine ⟨by simp [createdRows, nextAll], nofun, fun j => ?_⟩
    simpa [createdRows, nextAll] using hc
  | cons e run ih =>
    simp only [runCreatesOnly, Bool.and_eq_true] at hrun
    obtain ⟨hstep, hrest⟩ := hrun
    simp only [createdRows, List.length_append, Int.natCast_add] at hroom
    obtain ⟨hc', hid⟩ := counted_next hstep hc (by omega)
    obtain ⟨hrows, hids, hpoints⟩ := ih hrest hc' (by omega)
    refine ⟨?_, fun j row hrow => ?_, fun j => ?_⟩
    · show ((s.next e.1 e.2).nextAll run).data.rows table = _
      rw [hrows, (rows_next hstep).1, createdRows, List.append_assoc]
    · exact idIs_of_append hid hids hrow
    · cases j with
      | zero => simpa [createdRows, nextAll] using hc
      | succ j =>
        have h := hpoints j
        rw [List.take_succ_cons, createdRows, List.length_append, Int.natCast_add, ← Int.add_assoc]
        exact h

/-- Creations between reads, a failure, a declaration of the same table and a creation in another one. -/
def mixedRun : List (Nat × List Char) :=
  [(1, "T::create(['a' => 1])"), (2, "SHOW ts"), (3, "SAVE ts oops"), (4, "U::create(['id' => 4])"),
    (5, "CREATE TABLE ts (id INT);"), (6, "T::create(['b' => 'x'])"), (7, "T::find(5)")].map fun (n, x) => (n, x.toList)

theorem ids_of_creates_mixedRun :
    let s := start ⟨.extend .empty .empty, "<now>"⟩ ⟨⟨[("ts", [⟨[("id", .int (-3))]⟩, ⟨[("id", .int 4)]⟩])]⟩⟩
    (runCreatesOnly "ts" s mixedRun = true ∧ Counted (s.data.rows "ts") 4 ∧ (createdRows "ts" s mixedRun).length = 2) ∧
      intIds ((s.nextAll mixedRun).data.rows "ts") = [-3, 4, 5, 6] ∧
      ∀ j, (intIds ((s.nextAll (mixedRun.take j)).data.rows "ts")).Nodup := by
  intro s
  have hrun : runCreatesOnly "ts" s mixedRun = true := by decide +kernel
  have hlength : (createdRows "ts" s mixedRun).length = 2 := by decide +kernel
  have hcounted : Counted (s.data.rows "ts") 4 := by
    constructor
    case ints =>
      intro r hr v hv
      have hr : r ∈ [(⟨[("id", .int (-3))]⟩ : Row), ⟨[("id", .int 4)]⟩] := hr
      simp only [List.mem_cons, List.not_mem_nil, or_false] at hr
      rcases hr with rfl | rfl
      · exact ⟨-3, (Option.some.inj hv).symm⟩
      · exact ⟨4, (Option.some.inj hv).symm⟩
    case distinct => decide
    case le => decide
    case nonneg => decide
    case attained => decide
  obtain ⟨-, -, hpoints⟩ := ids_of_creates hrun hcounted (by rw [hlength]; decide)
  exact ⟨⟨hrun, hcounted, hlength⟩, by decide +kernel, fun j => (hpoints j).distinct⟩

end Session

end FluentTables
