import FluentTables.Condition
import FluentTables.Proofs.Decimal.Rounding

/-!
# Comparing integers

Both sides of a condition are brought into normal form, in which an integer and the text of one are the nearest
floating-point numbers (`normalize_toString`). So a comparison of two integers is one of these numbers
(`holds_int_iff`), which are in the order of the integers: as long as they differ, the comparison is exact, and integers
with the same number count as equal (`holds_comparison`). The first that do are `2 ^ 53` and its successor
(`neighbours_alike`).
-/

namespace FluentTables

namespace Operator

/-- The signs by which numbers are compared. -/
def comparisons : List Operator := [eq, gt, lt, ge, le]

/-- What a sign says of two integers. -/
def Relates : Operator → Int → Int → Prop
  | eq, a, b => a = b
  | gt, a, b => a > b
  | lt, a, b => a < b
  | ge, a, b => a ≥ b
  | le, a, b => a ≤ b
  | like, _, _ | unsupported _, _, _ => False

instance : (op : Operator) → (a b : Int) → Decidable (op.Relates a b)
  | eq, a, b => inferInstanceAs (Decidable (a = b))
  | gt, a, b => inferInstanceAs (Decidable (a > b))
  | lt, a, b => inferInstanceAs (Decidable (a < b))
  | ge, a, b => inferInstanceAs (Decidable (a ≥ b))
  | le, a, b => inferInstanceAs (Decidable (a ≤ b))
  | like, _, _ | unsupported _, _, _ => inferInstanceAs (Decidable False)

/-- What a sign says depends on the order of the two only. -/
theorem relates_congr (op : Operator) {a b x y : Int} (hlt : x < y ↔ a < b) (hgt : y < x ↔ b < a) :
    op.Relates x y ↔ op.Relates a b := by
  cases op with
  | like | unsupported w => exact Iff.rfl
  | eq =>
    show x = y ↔ a = b
    omega
  | gt => exact hgt
  | lt => exact hlt
  | ge =>
    show y ≤ x ↔ b ≤ a
    omega
  | le =>
    show x ≤ y ↔ a ≤ b
    omega

end Operator

/-- The text of an integer counts as the nearest number. -/
theorem Value.normalize_toString (i : Int) : (Value.text (toString i)).normalize = .float (.ofInt i) := by
  have hne : ∀ w : String, w.toList.all (fun c => c == '-' || c.isDigit) = false → toString i ≠ w := by
    rintro w hw rfl
    exact Numeral.toString_ne hw rfl
  have hnumber : Value.textNumber? (toString i) = some (.ofInt i) := by
    rw [Value.textNumber?, Numeral.parse?_toString, Option.map_some, Numeral.toBinary64_ofInt, Binary64.ofDecimal_zero,
      Binary64.ofInt]
  rw [Value.normalize, if_neg (hne "true" (by decide)), if_neg (hne "false" (by decide)), hnumber]

namespace Condition

variable {row : Row} {column : String} {a b : Int64} {op : Operator}

/-- The condition that compares a column with an integer, given by its text. -/
def withInt (column : String) (op : Operator) (b : Int64) : Condition := ⟨column, op, .text (toString b.toInt)⟩

/-- A condition on an integer compares the nearest numbers. -/
theorem holds_int_iff (hcell : row.get? column = some (.int a)) (hop : op ∈ Operator.comparisons) :
    (withInt column op b).holds row = true ↔
      op.Relates (Binary64.ofInt a.toInt).rank (Binary64.ofInt b.toInt).rank := by
  have hleft : (Value.int a).normalize = .float (.ofInt a.toInt) := rfl
  unfold holds withInt holdsFor
  simp only [hcell, Value.isNull, Bool.not_false, Bool.true_and, hleft, Value.normalize_toString]
  simp only [Operator.comparisons, List.mem_cons, List.not_mem_nil, or_false] at hop
  rcases hop with rfl | rfl | rfl | rfl | rfl <;>
    simp [valuesEqual, compareNumbers, Value.number?, Binary64.numEq, Binary64.numLt, Binary64.numLe, Operator.Relates]

/-- **A comparison of two integers is exact, unless they have the same nearest number**; then they count as equal. That
happens to different integers only if both are `2 ^ 53` or more, or both `-2 ^ 53` or less. -/
theorem holds_comparison (hcell : row.get? column = some (.int a)) (hop : op ∈ Operator.comparisons) :
    ((Binary64.ofInt a.toInt).IsNearest a.toInt ∧ (Binary64.ofInt b.toInt).IsNearest b.toInt) ∧
      (¬ Binary64.Alike a.toInt b.toInt → ((withInt column op b).holds row = true ↔ op.Relates a.toInt b.toInt)) ∧
      (Binary64.Alike a.toInt b.toInt → ((withInt column op b).holds row = true ↔ op.Relates a.toInt a.toInt)) ∧
      (Binary64.Alike a.toInt b.toInt → a ≠ b →
        2 ^ 53 ≤ min a.toInt b.toInt ∨ max a.toInt b.toInt ≤ -2 ^ 53) := by
  refine ⟨⟨Binary64.isNearest_ofInt a, Binary64.isNearest_ofInt b⟩, fun hdiffer => ?_, fun halike => ?_,
    fun halike hne => halike.far fun h => hne (Int64.toInt_inj.1 h)⟩
  · have hdiffer' : ¬ Binary64.Alike b.toInt a.toInt := fun h => hdiffer h.symm
    rw [holds_int_iff hcell hop]
    exact op.relates_congr (Binary64.rank_ofInt_lt_iff hdiffer) (Binary64.rank_ofInt_lt_iff hdiffer')
  · rw [holds_int_iff hcell hop, ← show (Binary64.ofInt a.toInt).rank = _ from halike]
    exact op.relates_congr (by omega) (by omega)

theorem holds_comparison_farApart :
    let row : Row := ⟨[("n", .int 9007199254740993)]⟩
    (row.get? "n" = some (.int 9007199254740993) ∧ ∀ op ∈ [.gt, .eq], op ∈ Operator.comparisons) ∧
      (withInt "n" .gt 9007199254740991).holds row = true ∧ (withInt "n" .eq 9007199254740991).holds row ≠ true := by
  intro row
  have hdiffer : ¬ Binary64.Alike (9007199254740993 : Int64).toInt (9007199254740991 : Int64).toInt := by
    decide +kernel
  have hgt := (@holds_comparison row "n" 9007199254740993 9007199254740991 .gt rfl (by decide)).2.1 hdiffer
  have heq := (@holds_comparison row "n" 9007199254740993 9007199254740991 .eq rfl (by decide)).2.1 hdiffer
  exact ⟨⟨rfl, by decide⟩, hgt.2 (by decide), fun h => absurd (heq.1 h) (by decide)⟩

/-- The first integer above `2 ^ 53` counts as `2 ^ 53`: it is found by that number, and not above it. -/
theorem neighbours_alike :
    let row : Row := ⟨[("n", .int 9007199254740993)]⟩
    row.get? "n" = some (.int 9007199254740993) ∧ ∀ op ∈ [.eq, .gt, .le], op ∈ Operator.comparisons ∧
      ¬ ((withInt "n" op 9007199254740992).holds row = true ↔
        op.Relates (9007199254740993 : Int64).toInt (9007199254740992 : Int64).toInt) := by
  decide +kernel

end Condition

end FluentTables
