import Mathlib.Algebra.Ring.Int.Defs
import Mathlib.Algebra.Ring.Nat
import Mathlib.Data.List.TakeDrop
import Mathlib.Data.List.TakeWhile
import FluentTables.Decimal.Numeral

/-!
# Integers as numerals and as numbers

The decimal text of an integer is the numeral of that integer (`parse?_toString`), so different integers have
different texts (`toString_inj`). The number nearest to an integer is the integer itself up to `2 ^ 53`
(`representable_of_le`, `ofRatio_of_le`); beyond that it may be another one.
-/

namespace FluentTables

/-! ## Decimal texts of integers -/

theorem Text.isBlank_of_isDigit {c : Char} (h : c.isDigit = true) : Text.isBlank c = false := by
  simp only [Char.isDigit, Bool.and_eq_true, decide_eq_true_eq, UInt32.le_iff_toNat_le] at h
  have hlow : 48 ≤ c.toNat := h.1
  have hhigh : c.toNat ≤ 57 := h.2
  unfold Text.isBlank
  simp only [Bool.or_eq_false_iff, Bool.and_eq_false_iff, decide_eq_false_iff_not, beq_eq_false_iff_ne]
  omega

namespace Numeral

/-- The numeral of an integer. -/
def ofInt (i : Int) : Numeral := ⟨decide (i < 0), Nat.toDigits 10 i.natAbs, none, none⟩

theorem digitsValue_toDigits (n : Nat) : digitsValue (Nat.toDigits 10 n) = n :=
  Nat.ofDigitChars_ten_toDigits

theorem wholeValue_ofInt (i : Int) : (ofInt i).wholeValue = i := by
  unfold wholeValue ofInt
  dsimp only
  rw [digitsValue_toDigits]
  by_cases h : i < 0
  · rw [if_pos (decide_eq_true h)]
    omega
  · rw [if_neg (by simpa using h)]
    omega

theorem natAbs_wholeValue (n : Numeral) : n.wholeValue.natAbs = digitsValue n.whole := by
  unfold wholeValue
  split <;> simp

theorem isInteger_iff {n : Numeral} : n.isInteger = true ↔ n.fraction = none ∧ n.exponent = none := by
  simp [isInteger]

theorem toList_toString (i : Int) :
    (toString i).toList = (if i < 0 then ['-'] else []) ++ Nat.toDigits 10 i.natAbs := by
  rw [Int.toString_eq_repr, Int.repr_eq_if]
  split
  · next h =>
    rw [Nat.repr_eq_ofList_toDigits, String.toList_ofList, if_neg (by omega), List.nil_append]
    congr 1
    omega
  · next h =>
    rw [Nat.repr_eq_ofList_toDigits, String.toList_append, if_pos (by omega)]
    show ['-'] ++ (String.ofList (Nat.toDigits 10 (-i).toNat)).toList = _
    rw [String.toList_ofList, show (-i).toNat = i.natAbs by omega]

/-- The text of an integer has digits, perhaps behind a minus sign. -/
theorem mem_toString {i : Int} {c : Char} (h : c ∈ (toString i).toList) : c = '-' ∨ c.isDigit = true := by
  rw [toList_toString, List.mem_append] at h
  rcases h with h | h
  · split at h
    · exact Or.inl (List.mem_singleton.1 h)
    · cases h
  · exact Or.inr (Nat.isDigit_of_mem_toDigits (by decide) (by decide) h)

theorem toString_ne_nil (i : Int) : (toString i).toList ≠ [] := by
  rw [toList_toString]
  exact List.append_ne_nil_of_right_ne_nil _ Nat.toDigits_ne_nil

/-- The text of an integer is no word with a letter in it. -/
theorem toString_ne {i : Int} {w : List Char} (h : w.all (fun c => c == '-' || c.isDigit) = false) :
    (toString i).toList ≠ w := by
  rintro rfl
  obtain ⟨c, hc, hne⟩ := List.all_eq_false.1 h
  apply hne
  simpa using mem_toString hc

section Digits

variable {ds : List Char} (hne : ds ≠ []) (hd : ∀ c ∈ ds, c.isDigit = true)
include hd

/-- A class that has all digits takes all of them. -/
theorem span_of_digits {p : Char → Bool} (hp : ∀ c, c.isDigit = true → p c = true) : ds.span p = (ds, []) := by
  have hall : ∀ c ∈ ds, p c = true := fun c hc => hp c (hd c hc)
  rw [List.span_eq_takeWhile_dropWhile, List.takeWhile_eq_self_iff.2 hall, List.dropWhile_eq_nil_iff.2 hall]

include hne

theorem mantissa?_of_digits : mantissa? ds = some (ds, none) := by
  have hpoint : ∀ c : Char, c.isDigit = true → (c != '.') = true := by
    intro c hc
    rw [bne_iff_ne]
    rintro rfl
    cases hc
  have hdigits : allDigits ds = true := List.all_eq_true.2 hd
  unfold mantissa?
  rw [span_of_digits hd hpoint]
  simp [hne, hdigits]

theorem ofTrimmed?_of_split {s : List Char} {negative : Bool} (hs : splitSign s = (negative, ds)) :
    ofTrimmed? s = some ⟨negative, ds, none, none⟩ := by
  have hmark : ∀ c : Char, c.isDigit = true → (!isExponentMark c) = true := by
    intro c hc
    simp only [isExponentMark, Bool.not_eq_true', Bool.or_eq_false_iff, beq_eq_false_iff_ne]
    constructor <;> (rintro rfl; cases hc)
  unfold ofTrimmed?
  rw [hs]
  simp only [span_of_digits hd hmark, mantissa?_of_digits hne hd, Option.map_some]

theorem splitSign_of_digits : splitSign ds = (false, ds) := by
  cases ds with
  | nil => exact absurd rfl hne
  | cons c r =>
    have hc := hd c List.mem_cons_self
    unfold splitSign
    split
    · next heq => cases heq; cases hc
    · next heq => cases heq; cases hc
    · rfl

end Digits

/-- **The text of an integer is its numeral.** -/
theorem parse?_toString (i : Int) : parse? (toString i).toList = some (ofInt i) := by
  have hne : Nat.toDigits 10 i.natAbs ≠ [] := Nat.toDigits_ne_nil
  have hd : ∀ c ∈ Nat.toDigits 10 i.natAbs, c.isDigit = true := fun c hc =>
    Nat.isDigit_of_mem_toDigits (by decide) (by decide) hc
  have hblank : ∀ c ∈ (toString i).toList, Text.isBlank c = false := by
    intro c hc
    rw [toList_toString, List.mem_append] at hc
    rcases hc with hc | hc
    · split at hc
      · rw [List.mem_singleton.1 hc]; decide
      · cases hc
    · exact Text.isBlank_of_isDigit (hd c hc)
  have htrim : Text.trim (toString i).toList = (toString i).toList := Text.trimBy_eq_self_of_forall hblank
  rw [parse?, htrim]
  refine ofTrimmed?_of_split hne hd ?_
  rw [toList_toString]
  by_cases h : i < 0
  · rw [if_pos h, decide_eq_true h]
    rfl
  · rw [if_neg h, decide_eq_false h]
    exact splitSign_of_digits hne hd

/-- Different integers have different texts. -/
theorem toString_inj {i j : Int} : toString i = toString j ↔ i = j := by
  refine ⟨fun h => ?_, fun h => h ▸ rfl⟩
  have hparse := parse?_toString i
  rw [h, parse?_toString j, Option.some.injEq] at hparse
  rw [← wholeValue_ofInt i, ← hparse, wholeValue_ofInt]

end Numeral

/-- The integers of 64 bits fit. -/
theorem fitsInt64_toInt (i : Int64) : fitsInt64 i.toInt = true := by
  simp only [fitsInt64, Bool.and_eq_true, decide_eq_true_eq]
  constructor
  · exact i.minValue_le_toInt
  · exact i.toInt_le

/-! ## The nearest numbers of integers -/

namespace Binary64

theorem one_shiftLeft_pos (k : Nat) : 0 < 1 <<< k := by
  rw [Nat.one_shiftLeft]
  exact Nat.two_pow_pos k

theorem one_pos : 0 < one := one_shiftLeft_pos 1074

/-- What has no bit to lose is not rounded. -/
theorem roundQuotient_of_dvd {units : Nat} (h : 1 <<< spareBits units ∣ units) : roundQuotient units 1 = units := by
  have hpos := one_shiftLeft_pos (spareBits units)
  have hstep : ¬(1 <<< spareBits units < 2 * 0 || 2 * 0 == 1 <<< spareBits units &&
      units / 1 <<< spareBits units % 2 == 1) = true := by
    simp only [Bool.or_eq_true, decide_eq_true_eq, Bool.and_eq_true, beq_iff_eq]
    omega
  unfold roundQuotient
  dsimp only
  rw [Nat.div_one, Nat.mod_eq_zero_of_dvd h, if_neg hstep, Nat.shiftLeft_eq, ← Nat.one_shiftLeft]
  exact Nat.div_mul_cancel h

/-- An integer up to `2 ^ 53` has no bit to lose. -/
theorem spareBits_dvd {n : Nat} (h : n ≤ 2 ^ 53) (k : Nat) : 1 <<< spareBits (n * 1 <<< k) ∣ n * 1 <<< k := by
  rw [Nat.one_shiftLeft k, Nat.one_shiftLeft]
  rcases Nat.lt_or_eq_of_le h with hlt | rfl
  · refine Nat.dvd_mul_left_of_dvd (Nat.pow_dvd_pow 2 ?_) n
    by_cases h0 : n * 2 ^ k = 0
    · rw [h0]
      exact Nat.zero_le k
    · have hbits : n * 2 ^ k < 2 ^ (53 + k) := by
        rw [Nat.pow_add]
        exact Nat.mul_lt_mul_of_pos_right hlt (Nat.two_pow_pos k)
      have := (Nat.log2_lt h0).2 hbits
      unfold spareBits
      omega
  · rw [← Nat.pow_add, spareBits, Nat.log2_two_pow]
    exact Nat.pow_dvd_pow 2 (by omega)

theorem mul_shiftLeft_lt {n j : Nat} (h : n < 2 ^ j) (k : Nat) : n * 1 <<< k < 1 <<< (j + k) := by
  rw [Nat.one_shiftLeft, Nat.one_shiftLeft, Nat.pow_add]
  exact Nat.mul_lt_mul_of_pos_right h (Nat.two_pow_pos k)

theorem representable_of_le {n : Nat} (h : n ≤ 2 ^ 53) : Representable (n * one) := by
  refine ⟨spareBits_dvd h 1074, ?_⟩
  have hpow : ∀ j, 53 < j → n < 2 ^ j := fun j hj => Nat.lt_of_le_of_lt h (Nat.pow_lt_pow_right (by decide) hj)
  exact mul_shiftLeft_lt (hpow 1024 (by decide)) 1074

/-- **Up to `2 ^ 53` the number nearest to an integer is that integer.** -/
theorem ofRatio_of_le {n : Nat} (h : n ≤ 2 ^ 53) (negative : Bool) :
    ofRatio negative n 1 = finite negative (n * one) := by
  obtain ⟨hdvd, hlt⟩ := representable_of_le h
  unfold ofRatio ofUnitRatio
  dsimp only
  rw [roundQuotient_of_dvd hdvd, if_pos hlt]

/-- The number that digits without an exponent denote. -/
theorem ofDecimal_zero (negative : Bool) (n : Nat) : ofDecimal negative n 0 = ofRatio negative n 1 := by
  unfold ofDecimal
  split
  · next h =>
    rw [h, ofRatio_of_le (Nat.zero_le _), Nat.zero_mul]
  · have hsmall : ¬((n.log2 : Int) + 3 * 0 < -1100) := by omega
    rw [if_neg (by decide), if_neg hsmall, if_pos (by decide)]
    show ofRatio negative (n * 1) 1 = _
    rw [Nat.mul_one]

/-- An integer up to `2 ^ 53` stays when it is read as a number and brought back. -/
theorem truncate_ofDecimal_of_le {n : Nat} (h : n ≤ 2 ^ 53) : (ofDecimal false n 0).truncate.toInt = n := by
  rw [ofDecimal_zero, ofRatio_of_le h, truncate, Nat.mul_div_cancel _ one_pos, Int64.toInt_ofIntClamp]
  · rw [Int64.toInt_minValue]; omega
  · rw [Int64.toInt_maxValue]; omega

end Binary64

/-- The number of a numeral without a fraction and an exponent is that of its digits. -/
theorem Numeral.toBinary64_of_isInteger {n : Numeral} (h : n.isInteger = true) :
    n.toBinary64 = Binary64.ofRatio n.negative (digitsValue n.whole) 1 := by
  obtain ⟨hfraction, hexponent⟩ := isInteger_iff.1 h
  rw [toBinary64, exponentValue, fractionDigits, hfraction, hexponent, Option.getD_none, List.append_nil]
  exact Binary64.ofDecimal_zero _ _

/-- The number of the numeral of an integer. -/
theorem Numeral.toBinary64_ofInt (i : Int) :
    (Numeral.ofInt i).toBinary64 = Binary64.ofDecimal (decide (i < 0)) i.natAbs 0 := by
  unfold toBinary64 ofInt fractionDigits exponentValue
  dsimp only
  rw [Option.getD_none, List.append_nil, digitsValue_toDigits]
  rfl

end FluentTables
