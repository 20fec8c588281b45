import FluentTables.Proofs.Decimal.Grammar
import FluentTables.Proofs.Decimal.Rounding
import FluentTables.Proofs.Text.Arguments
import FluentTables.Value.Literal

/-!
# Numbers among literals

An integer of more than 64 bits is rounded, but never below the largest integer of 64 bits, because rounding keeps the
order. So it is not brought back to an integer: a number is an integer just if it is written as one of 64 bits
(`ofNumeralText_eq`). White space and quotes around a numeral change nothing about that. The digits of an integer stand
for this integer or for a floating-point number, and no text with a point or an exponent stands for an integer
(`ofLiteral_digits`).
-/

namespace FluentTables

open Text Numeral

/-! ## White space and quotes around a text -/

namespace Text

/-- The text with white space around it, or without. -/
def Padded (t s : List Char) : Prop :=
  ∃ a b, s = a ++ (t ++ b) ∧ (∀ c ∈ a, isBlank c = true) ∧ ∀ c ∈ b, isBlank c = true

/-- The text alone or in one pair of quotes, with white space inside the quotes and outside, or without. -/
def Enclosed (t s : List Char) : Prop :=
  Padded t s ∨ ∃ q u, isQuote q = true ∧ Padded t u ∧ Padded (quotedBy q u) s

variable {s t : List Char} {c : Char}

theorem Padded.trim_eq (h : Padded t s) : trim s = trim t := by
  obtain ⟨a, b, rfl, ha, hb⟩ := h
  rw [trim, trimBy_append_left ha, trimBy_append_right hb, trim]

theorem Padded.mem (h : Padded t s) (hc : c ∈ t) : c ∈ s := by
  obtain ⟨a, b, rfl, -, -⟩ := h
  simp [hc]

theorem Padded.char (h : Padded t s) (hc : c ∈ s) : isBlank c = true ∨ c ∈ t := by
  obtain ⟨a, b, rfl, ha, hb⟩ := h
  rcases List.mem_append.1 hc with hc | hc
  · exact Or.inl (ha c hc)
  · exact (List.mem_append.1 hc).symm.imp_left (hb c)

theorem Enclosed.mem (h : Enclosed t s) (hc : c ∈ t) : c ∈ s := by
  rcases h with hpad | ⟨q, u, -, hpad, hquoted⟩
  · exact hpad.mem hc
  · exact hquoted.mem (mem_quotedBy.2 (Or.inr (hpad.mem hc)))

/-- A text of neither white space nor quotes is left when what encloses it is dropped. -/
theorem Enclosed.trim_stripQuotes (h : Enclosed t s) (ht : ∀ c ∈ t, isBlank c = false ∧ isQuote c = false) :
    trim (stripQuotes s) = t := by
  have htrim : trim t = t := trimBy_eq_self_of_forall fun c hc => (ht c hc).1
  rcases h with hpad | ⟨q, u, hq, hpad, hquoted⟩
  · have hquote : trimBy isQuote t = t := trimBy_eq_self_of_forall fun c hc => (ht c hc).2
    rw [stripQuotes, hpad.trim_eq, htrim, hquote, htrim]
  · have hu : ∀ c ∈ u, isQuote c = false := by
      intro c hc
      rcases hpad.char hc with hblank | hmem
      · refine Bool.eq_false_iff.2 fun hquote => ?_
        rw [isBlank_of_isQuote hquote] at hblank
        cases hblank
      · exact (ht c hmem).2
    have hstrip : stripQuotes s = stripQuotes (quotedBy q u) := by
      rw [stripQuotes, stripQuotes, hquoted.trim_eq]
    rw [hstrip, stripQuotes_quotedBy hq hu, hpad.trim_eq, htrim]

/-- What is dropped from a text is white space and quotes. -/
theorem mem_trim_stripQuotes_or (hc : c ∈ s) : (isBlank c = true ∨ isQuote c = true) ∨ c ∈ trim (stripQuotes s) := by
  rcases mem_trimBy_or isBlank hc with hblank | hc
  · exact Or.inl (Or.inl hblank)
  rcases mem_trimBy_or isQuote hc with hquote | hc
  · exact Or.inl (Or.inr hquote)
  exact (mem_trimBy_or isBlank hc).imp_left Or.inl

end Text

namespace Numeral

variable {n : Numeral} {s t : List Char} {c : Char}

theorem plain_of_isNumeralChar (h : isNumeralChar c = true) : isBlank c = false ∧ isQuote c = false := by
  simp only [isNumeralChar, isExponentMark, Bool.or_eq_true, beq_iff_eq] at h
  rcases h with (((hdigit | rfl) | rfl) | rfl) | rfl | rfl
  · refine ⟨isBlank_of_isDigit hdigit, Bool.eq_false_iff.2 fun hquote => ?_⟩
    simp only [isQuote, Bool.or_eq_true, beq_iff_eq] at hquote
    rcases hquote with rfl | rfl <;> cases hdigit
  all_goals decide

theorem parse?_of_enclosed (hn : n.Written t) (hs : Enclosed t s) : parse? (stripQuotes s) = some n := by
  rw [parse?_eq_some_iff, hs.trim_stripQuotes fun c hc => plain_of_isNumeralChar (hn.isNumeralChar hc)]
  exact hn

/-- A numeral is not changed when quotes are dropped from it. -/
theorem parse?_stripQuotes (h : parse? s = some n) : parse? (stripQuotes s) = some n :=
  parse?_of_enclosed (parse?_eq_some_iff.1 h) (Or.inl (exists_trimBy isBlank s))

/-- The marks that make a numeral a floating-point number: a point and those before an exponent. -/
def IsFloatMark (c : Char) : Prop := c = '.' ∨ isExponentMark c = true

/-- A numeral with such a mark in it, or around it, is not written as an integer. -/
theorem isInteger_of_parse? (h : parse? (stripQuotes s) = some n) (hc : c ∈ s) (hmark : IsFloatMark c) :
    n.isInteger = false := by
  refine Bool.eq_false_iff.2 fun hinteger => ?_
  have hplain : isBlank c = false ∧ isQuote c = false := by
    apply plain_of_isNumeralChar
    rcases hmark with rfl | hmark
    · rfl
    · simp [isNumeralChar, hmark]
  obtain ⟨sign, heq, hsign, hdigits⟩ := (parse?_eq_some_iff.1 h).of_isInteger hinteger
  rcases mem_trim_stripQuotes_or hc with hdropped | hmem
  · simp [hplain] at hdropped
  · rw [heq, List.mem_append] at hmem
    rcases hmem with hmem | hmem
    · rcases hsign.char hmem with rfl | rfl <;> exact absurd hmark (by simp [IsFloatMark, isExponentMark])
    · obtain ⟨-, -, hpoint, hexponent⟩ := isDigit_cases (hdigits.2 c hmem)
      simp [IsFloatMark, hpoint, hexponent] at hmark

end Numeral

/-! ## Integers of more than 64 bits -/

namespace Numeral

variable {n : Numeral}

/-- They are larger in size than the largest of 64 bits, the negative ones, too. -/
theorem lt_digitsValue (h : fitsInt64 n.wholeValue = false) : Int64.maxValue.toInt < digitsValue n.whole := by
  have habs := natAbs_wholeValue n
  simp only [fitsInt64, Bool.and_eq_false_iff, decide_eq_false_iff_not, Int64.toInt_minValue, Int64.toInt_maxValue]
    at h ⊢
  omega

/-- The number of such an integer is the nearest one; only zero could have another sign. -/
theorem toBinary64_eq_ofInt (hinteger : n.isInteger = true) (hfits : fitsInt64 n.wholeValue = false) :
    n.toBinary64 = .ofInt n.wholeValue := by
  have hpos : (0 : Int) < digitsValue n.whole := Int.lt_trans (by decide) (lt_digitsValue hfits)
  have hsign : decide (n.wholeValue < 0) = n.negative := by
    unfold wholeValue
    cases n.negative with
    | false => simp
    | true => simpa using hpos
  rw [toBinary64_of_isInteger hinteger, Binary64.ofInt, hsign, natAbs_wholeValue]

end Numeral

/-! ## Literals -/

namespace Value

/-- What a text stands for without its quotes: a truth value if it is one of the two words, a number if it is a
numeral, and else itself. -/
inductive Denotes : List Char → Value → Prop
  | true : Denotes "true".toList (bool true)
  | false : Denotes "false".toList (bool false)
  | int {s : List Char} {n : Numeral} {i : Int64} : n.Written (trim s) → n.isInteger = true →
      i.toInt = n.wholeValue → Denotes s (int i)
  | float {s : List Char} {n : Numeral} : n.Written (trim s) →
      (n.isInteger = true → fitsInt64 n.wholeValue = false) → Denotes s (float n.toBinary64)
  | text {s : List Char} : s ≠ "true".toList → s ≠ "false".toList → ¬ IsNumeral (trim s) →
      Denotes s (text (String.ofList s))

variable {n : Numeral} {s t : List Char} {i : Int64}

theorem toInt_ofInt_of_fitsInt64 {z : Int} (h : fitsInt64 z = true) : (Int64.ofInt z).toInt = z := by
  simp only [fitsInt64, Bool.and_eq_true, decide_eq_true_eq, Int64.toInt_minValue, Int64.toInt_maxValue] at h
  exact Int64.toInt_ofInt_of_le (by omega) (by omega)

/-- **A rounded number is never brought back to an integer**: if it was written as one, it is not below the largest
integer of 64 bits. -/
theorem ofNumeralText_eq (n : Numeral) : ofNumeralText n =
    if n.isInteger && fitsInt64 n.wholeValue then int (Int64.ofInt n.wholeValue) else float n.toBinary64 := by
  unfold ofNumeralText
  split
  · rfl
  · next h =>
    dsimp only
    cases hinteger : n.isInteger with
    | false => rfl
    | true =>
      have hfits : fitsInt64 n.wholeValue = false := by simpa [hinteger] using h
      -- The largest integer is itself rounded to `2 ^ 63`; that number is kept out because the bound is strict.
      have hlarge := Binary64.not_numLt_ofRatio n.negative (Int.le_of_lt (lt_digitsValue hfits))
      rw [← toBinary64_of_isInteger hinteger] at hlarge
      rw [hlarge, Bool.and_false, if_neg Bool.false_ne_true]

/-- A numeral is none of the words. -/
theorem ofBareLiteral_of_parse? (h : parse? s = some n) : ofBareLiteral s = ofNumeralText n := by
  have hword : ∀ w : List Char, parse? w = none → s ≠ w := by
    rintro w hw rfl
    rw [hw] at h
    cases h
  rw [ofBareLiteral, if_neg (hword _ (by decide)), if_neg (hword _ (by decide)), h]

theorem denotes_ofNumeralText (h : n.Written (trim s)) : Denotes s (ofNumeralText n) := by
  rw [ofNumeralText_eq]
  split
  · next hint =>
    obtain ⟨hinteger, hfits⟩ := Bool.and_eq_true_iff.1 hint
    exact .int h hinteger (toInt_ofInt_of_fitsInt64 hfits)
  · next hfloat =>
    exact .float h fun hinteger => by simpa [hinteger] using hfloat

/-- **A text without quotes is read as what it stands for.** -/
theorem denotes_iff {v : Value} : Denotes s v ↔ v = ofBareLiteral s := by
  constructor
  · rintro (_ | _ | ⟨hn, hinteger, hi⟩ | ⟨hn, hfits⟩ | ⟨htrue, hfalse, hnone⟩)
    · rfl
    · rfl
    · rw [ofBareLiteral_of_parse? (parse?_eq_some_iff.2 hn), ofNumeralText_eq, hinteger, ← hi, fitsInt64_toInt,
        Int64.ofInt_toInt]
      rfl
    · rw [ofBareLiteral_of_parse? (parse?_eq_some_iff.2 hn), ofNumeralText_eq, if_neg]
      simpa using hfits
    · have hparse : parse? s = none := by
        rw [← Option.not_isSome_iff_eq_none, isSome_parse?_iff]
        exact hnone
      rw [ofBareLiteral, if_neg htrue, if_neg hfalse, hparse]
  · rintro rfl
    by_cases htrue : s = "true".toList
    · subst htrue
      exact .true
    by_cases hfalse : s = "false".toList
    · subst hfalse
      exact .false
    cases hparse : parse? s with
    | some n =>
      rw [ofBareLiteral_of_parse? hparse]
      exact denotes_ofNumeralText (parse?_eq_some_iff.1 hparse)
    | none =>
      rw [ofBareLiteral, if_neg htrue, if_neg hfalse, hparse]
      refine .text htrue hfalse fun hnumeral => ?_
      rw [← isSome_parse?_iff, hparse] at hnumeral
      cases hnumeral

/-- A literal with a numeral in it is a number. -/
theorem ofLiteral_of_parse? (h : parse? (stripQuotes s) = some n) : ofLiteral s = ofNumeralText n := by
  have hnull : trim s ≠ "null".toList := by
    intro hnull
    have hparse : parse? (stripQuotes s) = none := by
      rw [stripQuotes, hnull]
      decide
    rw [hparse] at h
    cases h
  rw [ofLiteral, if_neg hnull, ofBareLiteral_of_parse? h]

/-- A literal is an integer only if it has a numeral in it. -/
theorem parse?_of_ofLiteral (h : ofLiteral s = int i) : ∃ n, parse? (stripQuotes s) = some n := by
  cases hparse : parse? (stripQuotes s) with
  | some n => exact ⟨n, rfl⟩
  | none =>
    simp only [ofLiteral, ofBareLiteral, hparse] at h
    split_ifs at h

theorem ofLiteral_of_isInteger (h : parse? (stripQuotes s) = some n) (hinteger : n.isInteger = true) :
    (fitsInt64 n.wholeValue = true → ∃ i : Int64, i.toInt = n.wholeValue ∧ ofLiteral s = int i) ∧
      (fitsInt64 n.wholeValue = false → ofLiteral s = float (.ofInt n.wholeValue)) := by
  rw [ofLiteral_of_parse? h, ofNumeralText_eq, hinteger, Bool.true_and]
  refine ⟨fun hfits => ⟨Int64.ofInt n.wholeValue, toInt_ofInt_of_fitsInt64 hfits, if_pos hfits⟩, fun hfits => ?_⟩
  · rw [hfits, if_neg Bool.false_ne_true, toBinary64_eq_ofInt hinteger hfits]

/-- With a point or an exponent mark in the text a numeral is rounded. -/
theorem ofLiteral_of_floatMark (h : parse? (stripQuotes s) = some n) {c : Char} (hc : c ∈ s)
    (hmark : IsFloatMark c) : ofLiteral s = float n.toBinary64 := by
  rw [ofLiteral_of_parse? h, ofNumeralText_eq, isInteger_of_parse? h hc hmark]
  rfl

/-- **Digits stand for the integer that they denote, if it has 64 bits, and else for the nearest number**, with white
space and one pair of quotes around them or without; a numeral with a point or an exponent is rounded, and nothing with
one of these in it is an integer. -/
theorem ofLiteral_digits :
    (∀ negative sign ds s, IsSign negative sign → IsDigits ds → Enclosed (sign ++ ds) s →
      let i : Int := if negative then -digitsValue ds else digitsValue ds
      (fitsInt64 i = true → ∃ j : Int64, j.toInt = i ∧ ofLiteral s = int j) ∧
        (fitsInt64 i = false → ofLiteral s = float (.ofInt i))) ∧
      (∀ (n : Numeral) t s, n.Written t → Enclosed t s → (∃ c ∈ t, IsFloatMark c) → ofLiteral s = float n.toBinary64) ∧
      ∀ s, (∃ c ∈ s, IsFloatMark c) → ∀ j, ofLiteral s ≠ int j := by
  refine ⟨fun negative sign ds s hsign hdigits hs => ?_, fun n t s hn hs hmark => ?_, fun s hmark j hint => ?_⟩
  · have hn : Written ⟨negative, ds, none, none⟩ (sign ++ ds) :=
      ⟨sign, ds, [], by rw [List.append_nil], hsign, .whole hdigits, .missing⟩
    exact ofLiteral_of_isInteger (parse?_of_enclosed hn hs) rfl
  · obtain ⟨c, hc, hmark⟩ := hmark
    exact ofLiteral_of_floatMark (parse?_of_enclosed hn hs) (hs.mem hc) hmark
  · obtain ⟨c, hc, hmark⟩ := hmark
    obtain ⟨n, hn⟩ := parse?_of_ofLiteral hint
    rw [ofLiteral_of_floatMark hn hc hmark] at hint
    cases hint

theorem ofLiteral_digits_limits :
    let zeros := "009223372036854775808".toList
    let limit := "9223372036854775808".toList
    let exact : Numeral := ⟨false, limit, some ['0'], none⟩
    ((IsSign true ['-'] ∧ IsDigits zeros ∧ Enclosed (['-'] ++ zeros) "\t'-009223372036854775808 '".toList) ∧
        ofLiteral "\t'-009223372036854775808 '".toList = int Int64.minValue) ∧
      ((IsSign false [] ∧ IsDigits limit ∧ Enclosed ([] ++ limit) limit) ∧
        ofLiteral limit = float (.ofInt 9223372036854775808)) ∧
      ((exact.Written (limit ++ ".0".toList) ∧ Enclosed (limit ++ ".0".toList) (limit ++ ".0".toList) ∧
          ∃ c ∈ limit ++ ".0".toList, IsFloatMark c) ∧
        ofLiteral (limit ++ ".0".toList) = float exact.toBinary64) ∧
      (∃ c ∈ "1e".toList, IsFloatMark c) ∧ ∀ j, ofLiteral "1e".toList ≠ int j := by
  intro zeros limit exact
  obtain ⟨hdigits, hmarked, hnone⟩ := ofLiteral_digits
  have hzeros : IsDigits zeros := ⟨by decide, by decide⟩
  have hlimit : IsDigits limit := ⟨by decide, by decide⟩
  have hpadded : ∀ t, Padded t t := fun t => ⟨[], [], by simp, by simp, by simp⟩
  have hquoted : Enclosed (['-'] ++ zeros) "\t'-009223372036854775808 '".toList :=
    Or.inr ⟨'\'', ['-'] ++ zeros ++ [' '], rfl, ⟨[], [' '], by decide, by decide, by decide⟩,
      ['\t'], [], by decide, by decide, by decide⟩
  have hexact : exact.Written (limit ++ ".0".toList) :=
    ⟨[], limit ++ ".0".toList, [], by decide, .missing, .point hlimit (by decide), .missing⟩
  have hpoint : ∃ c ∈ limit ++ ".0".toList, IsFloatMark c := ⟨'.', by decide, Or.inl rfl⟩
  have hmark : ∃ c ∈ "1e".toList, IsFloatMark c := ⟨'e', by decide, Or.inr rfl⟩
  obtain ⟨j, hj, hlow⟩ := (hdigits true ['-'] zeros _ .minus hzeros hquoted).1 (by decide)
  have hmin : j = Int64.minValue := Int64.toInt_inj.1 (hj.trans (by decide))
  exact ⟨⟨⟨.minus, hzeros, hquoted⟩, hmin ▸ hlow⟩,
    ⟨⟨.missing, hlimit, Or.inl (hpadded limit)⟩,
      (hdigits false [] limit _ .missing hlimit (Or.inl (hpadded limit))).2 (by decide)⟩,
    ⟨⟨hexact, Or.inl (hpadded _), hpoint⟩, hmarked exact _ _ hexact (Or.inl (hpadded _)) hpoint⟩,
    hmark, hnone _ hmark⟩

end Value

end FluentTables
