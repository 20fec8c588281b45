import FluentTables.Proofs.Decimal.StoredNumbers
import FluentTables.Value.Basic

/-!
# The grammar of numerals

A numeral is a sign or none, digits with a fraction or without, and an exponent or none (`Written`). A text is cut at
its first exponent mark, and what stands before that at its first point. The parts are found just if the text is
written in this way (`ofTrimmed?_eq_some_iff`), so texts count as numbers by the grammar and by nothing else
(`numeral_iff`).
-/

namespace FluentTables

namespace Numeral

/-! ## How a numeral is written -/

/-- A sign, or none, which counts as plus. -/
inductive IsSign : Bool → List Char → Prop
  | missing : IsSign false []
  | plus : IsSign false ['+']
  | minus : IsSign true ['-']

/-- Digits with an optional fraction: the digits before the point, those behind it if there is a point, and the
text. -/
inductive IsMantissa : List Char → Option (List Char) → List Char → Prop
  | whole {w : List Char} : IsDigits w → IsMantissa w none w
  | point {w f : List Char} : IsDigits w → (∀ c ∈ f, c.isDigit = true) → IsMantissa w (some f) (w ++ '.' :: f)
  | bare {f : List Char} : IsDigits f → IsMantissa [] (some f) ('.' :: f)

/-- An optional exponent: its sign and digits if there is one, and the text. -/
inductive IsExponent : Option (Bool × List Char) → List Char → Prop
  | missing : IsExponent none []
  | marked {mark : Char} {negative : Bool} {sign ds : List Char} : isExponentMark mark = true →
      IsSign negative sign → IsDigits ds → IsExponent (some (negative, ds)) (mark :: (sign ++ ds))

/-- The text is the numeral written out. -/
def Written (n : Numeral) (s : List Char) : Prop :=
  ∃ sign m e, s = sign ++ (m ++ e) ∧ IsSign n.negative sign ∧ IsMantissa n.whole n.fraction m ∧
    IsExponent n.exponent e

/-- The text is a numeral. -/
def IsNumeral (s : List Char) : Prop := ∃ n, Written n s

variable {s a b w m ds : List Char} {f : Option (List Char)} {negative : Bool} {n : Numeral} {p : Char → Bool}

theorem isDigits_iff : IsDigits ds ↔ (!ds.isEmpty && allDigits ds) = true := by
  simp [IsDigits, allDigits]

/-- A digit is no sign, no point and no exponent mark. -/
theorem isDigit_cases {c : Char} (h : c.isDigit = true) :
    c ≠ '+' ∧ c ≠ '-' ∧ c ≠ '.' ∧ isExponentMark c = false := by
  have hne : ∀ d : Char, d.isDigit = false → c ≠ d := by
    rintro d hd rfl
    rw [hd] at h
    cases h
  refine ⟨hne _ rfl, hne _ rfl, hne _ rfl, ?_⟩
  simp [isExponentMark, hne 'e' rfl, hne 'E' rfl]

/-! ## Cutting a text -/

theorem of_span_eq (h : s.span p = (a, b)) : s = a ++ b ∧ (∀ c ∈ a, p c = true) ∧ b.head?.any p = false := by
  rw [List.span_eq_takeWhile_dropWhile] at h
  cases h
  refine ⟨List.takeWhile_append_dropWhile.symm, fun c hc => ?_, ?_⟩
  · exact List.all_eq_true.1 List.all_takeWhile c hc
  · have hnot := List.head?_dropWhile_not p s
    cases hd : (s.dropWhile p).head? with
    | none => rfl
    | some c => simpa [hd] using hnot

theorem span_append (ha : ∀ c ∈ a, p c = true) (hb : b.head?.any p = false) : (a ++ b).span p = (a, b) := by
  rw [List.span_eq_takeWhile_dropWhile, List.takeWhile_append_of_pos ha, List.dropWhile_append_of_pos ha]
  cases b with
  | nil => simp
  | cons c b =>
    have hc : p c = false := by simpa using hb
    simp [hc]

/-! ## The parts -/

theorem splitSign_eq (s : List Char) : ∃ sign, s = sign ++ (splitSign s).2 ∧ IsSign (splitSign s).1 sign := by
  unfold splitSign
  split
  · exact ⟨['+'], rfl, .plus⟩
  · exact ⟨['-'], rfl, .minus⟩
  · exact ⟨[], rfl, .missing⟩

theorem splitSign_append {sign : List Char} (h : IsSign negative sign) (hs : ∀ c ∈ s.head?, c ≠ '+' ∧ c ≠ '-') :
    splitSign (sign ++ s) = (negative, s) := by
  cases h with
  | plus | minus => rfl
  | missing =>
    cases s with
    | nil => rfl
    | cons c s =>
      obtain ⟨hplus, hminus⟩ := hs c rfl
      simp [splitSign, hplus, hminus]

theorem mantissa?_eq_some_iff : mantissa? s = some (w, f) ↔ IsMantissa w f s := by
  constructor
  · intro h
    unfold mantissa? at h
    split at h
    · next w' hspan =>
      obtain ⟨rfl, -, -⟩ := of_span_eq hspan
      split at h
      · next hdigits =>
        cases h
        rw [List.append_nil]
        exact .whole (isDigits_iff.2 hdigits)
      · cases h
    · next w' c f' hspan =>
      obtain ⟨rfl, -, hc⟩ := of_span_eq hspan
      obtain rfl : c = '.' := by simpa using hc
      split at h
      · next hdigits =>
        cases h
        simp only [allDigits, Bool.and_eq_true, List.all_eq_true, Bool.not_eq_true', Bool.and_eq_false_iff,
          List.isEmpty_eq_false_iff] at hdigits
        obtain ⟨⟨hw, hf⟩, hsome⟩ := hdigits
        cases w with
        | nil => exact .bare ⟨hsome.resolve_left (by simp), hf⟩
        | cons d w => exact .point ⟨List.cons_ne_nil d w, hw⟩ hf
      · cases h
  · have hpoint : ∀ {w : List Char}, (∀ c ∈ w, c.isDigit = true) → ∀ c ∈ w, (c != '.') = true := fun hw c hc =>
      bne_iff_ne.2 (isDigit_cases (hw c hc)).2.2.1
    intro h
    unfold mantissa?
    cases h with
    | whole hw =>
      have hspan := span_append (b := []) (hpoint hw.2) rfl
      rw [List.append_nil] at hspan
      rw [hspan]
      exact if_pos (isDigits_iff.1 hw)
    | point hw hf =>
      rw [span_append (hpoint hw.2) (by simp)]
      simp [allDigits, List.all_eq_true.2 hw.2, List.all_eq_true.2 hf, hw.1]
    | bare hf =>
      rw [← List.nil_append ('.' :: _), span_append (by simp) (by simp)]
      simp [allDigits, List.all_eq_true.2 hf.2, hf.1]

theorem exponent?_eq_some_iff :
    exponent? s = some (negative, ds) ↔ ∃ sign, s = sign ++ ds ∧ IsSign negative sign ∧ IsDigits ds := by
  constructor
  · intro h
    obtain ⟨sign, hs, hsign⟩ := splitSign_eq s
    unfold exponent? at h
    dsimp only at h
    split at h
    · next hdigits =>
      cases h
      exact ⟨sign, hs, hsign, isDigits_iff.2 hdigits⟩
    · cases h
  · rintro ⟨sign, rfl, hsign, hds⟩
    unfold exponent?
    rw [splitSign_append hsign fun c hc => by
      have hdigit := isDigit_cases (hds.2 c (List.mem_of_mem_head? hc))
      exact ⟨hdigit.1, hdigit.2.1⟩]
    exact if_pos (isDigits_iff.1 hds)

/-- A mantissa begins with a digit or a point, and has nothing else. -/
theorem IsMantissa.char (h : IsMantissa w f m) {c : Char} (hc : c ∈ m) : c.isDigit = true ∨ c = '.' := by
  cases h with
  | whole hw => exact Or.inl (hw.2 c hc)
  | point hw hf =>
    rcases List.mem_append.1 hc with hc | hc
    · exact Or.inl (hw.2 c hc)
    · exact (List.mem_cons.1 hc).symm.imp_left (hf c)
  | bare hf => exact (List.mem_cons.1 hc).symm.imp_left (hf.2 c)

theorem IsMantissa.ne_nil (h : IsMantissa w f m) : m ≠ [] := by
  cases h with
  | whole hw => exact hw.1
  | point hw hf => simp
  | bare hf => simp

/-! ## Numerals -/

/-- **A numeral is read just from the texts that it is written as.** -/
theorem ofTrimmed?_eq_some_iff : ofTrimmed? s = some n ↔ n.Written s := by
  constructor
  · intro h
    obtain ⟨sign, hs, hsign⟩ := splitSign_eq s
    unfold ofTrimmed? at h
    dsimp only at h
    split at h
    · next m hspan =>
      obtain ⟨hbody, -, -⟩ := of_span_eq hspan
      obtain ⟨⟨w, f⟩, hm, rfl⟩ := Option.map_eq_some_iff.1 h
      exact ⟨sign, m, [], by rw [← hbody]; exact hs, hsign, mantissa?_eq_some_iff.1 hm, .missing⟩
    · next m mark e hspan =>
      obtain ⟨hbody, -, hmark⟩ := of_span_eq hspan
      split at h
      · next q x hm he =>
        cases h
        obtain ⟨sign', rfl, hsign', hds⟩ := exponent?_eq_some_iff.1 he
        exact ⟨sign, m, _, by rw [← hbody]; exact hs, hsign, mantissa?_eq_some_iff.1 hm,
          .marked (by simpa using hmark) hsign' hds⟩
      · cases h
  · obtain ⟨negative, w, f, x⟩ := n
    rintro ⟨sign, m, e, rfl, hsign, hm, he⟩
    have hbody : ∀ c ∈ (m ++ e).head?, c ≠ '+' ∧ c ≠ '-' := by
      intro c hc
      obtain ⟨d, m, rfl⟩ := List.exists_cons_of_ne_nil hm.ne_nil
      obtain rfl : d = c := by simpa using hc
      rcases hm.char List.mem_cons_self with hdigit | rfl
      · exact ⟨(isDigit_cases hdigit).1, (isDigit_cases hdigit).2.1⟩
      · decide
    have hnomark : ∀ c ∈ m, (!isExponentMark c) = true := by
      intro c hc
      rcases hm.char hc with hdigit | rfl
      · simp [(isDigit_cases hdigit).2.2.2]
      · decide
    unfold ofTrimmed?
    rw [splitSign_append hsign hbody]
    dsimp only
    cases he with
    | missing =>
      rw [span_append hnomark rfl]
      dsimp only
      rw [mantissa?_eq_some_iff.2 hm]
      rfl
    | marked hmark hsign' hds =>
      rw [span_append hnomark (by simpa using hmark)]
      dsimp only
      rw [mantissa?_eq_some_iff.2 hm, exponent?_eq_some_iff.2 ⟨_, rfl, hsign', hds⟩]

/-- Without a fraction and an exponent there are a sign, or none, and digits. -/
theorem Written.of_isInteger (h : n.Written s) (hinteger : n.isInteger = true) :
    ∃ sign, s = sign ++ n.whole ∧ IsSign n.negative sign ∧ IsDigits n.whole := by
  obtain ⟨negative, w, f, x⟩ := n
  obtain ⟨rfl, rfl⟩ : f = none ∧ x = none := isInteger_iff.1 hinteger
  obtain ⟨sign, m, e, rfl, hsign, hm, he⟩ := h
  cases hm with
  | whole hw =>
    cases he with
    | missing => exact ⟨sign, by rw [List.append_nil], hsign, hw⟩

/-- The characters of numerals. -/
def isNumeralChar (c : Char) : Bool := c.isDigit || c == '.' || c == '+' || c == '-' || isExponentMark c

theorem isNumeralChar_of_isDigit {c : Char} (h : c.isDigit = true) : isNumeralChar c = true := by
  simp [isNumeralChar, h]

theorem IsSign.char {sign : List Char} (h : IsSign negative sign) {c : Char} (hc : c ∈ sign) : c = '+' ∨ c = '-' := by
  cases h with
  | missing => cases hc
  | plus => exact Or.inl (List.mem_singleton.1 hc)
  | minus => exact Or.inr (List.mem_singleton.1 hc)

theorem IsSign.isNumeralChar {sign : List Char} (h : IsSign negative sign) {c : Char} (hc : c ∈ sign) :
    isNumeralChar c = true := by
  rcases h.char hc with rfl | rfl <;> decide

theorem Written.isNumeralChar (h : n.Written s) {c : Char} (hc : c ∈ s) : isNumeralChar c = true := by
  obtain ⟨sign, m, e, rfl, hsign, hm, he⟩ := h
  rw [List.mem_append, List.mem_append] at hc
  rcases hc with hc | hc | hc
  · exact hsign.isNumeralChar hc
  · rcases hm.char hc with hdigit | rfl
    · exact isNumeralChar_of_isDigit hdigit
    · decide
  · generalize n.exponent = x at he
    cases he with
    | missing => cases hc
    | marked hmark hsign' hds =>
      rw [List.mem_cons, List.mem_append] at hc
      rcases hc with rfl | hc | hc
      · simp [Numeral.isNumeralChar, hmark]
      · exact hsign'.isNumeralChar hc
      · exact isNumeralChar_of_isDigit (hds.2 c hc)

theorem parse?_eq_some_iff : parse? s = some n ↔ n.Written (Text.trim s) := ofTrimmed?_eq_some_iff

theorem isSome_parse?_iff : (parse? s).isSome = true ↔ IsNumeral (Text.trim s) :=
  Option.isSome_iff_exists.trans (exists_congr fun _ => parse?_eq_some_iff)

end Numeral

namespace Value

/-- The words for truth values are no numerals. -/
theorem number?_normalize_text (s : String) : (text s).normalize.number? = textNumber? s := by
  by_cases htrue : s = "true"
  · subst htrue
    decide
  · by_cases hfalse : s = "false"
    · subst hfalse
      decide
    · rw [normalize, if_neg htrue, if_neg hfalse]
      cases textNumber? s <;> rfl

open Numeral in
/-- **A text counts as a number just if it is a numeral**, white space around it apart: then a comparison makes a
number of it, and it has an integer as its id. -/
theorem numeral_iff (s : String) :
    ((parse? s.toList).isSome = true ↔ IsNumeral (Text.trim s.toList)) ∧
      ((text s).normalize.number?.isSome = true ↔ IsNumeral (Text.trim s.toList)) ∧
      ((text s).numericId?.isSome = true ↔ IsNumeral (Text.trim s.toList)) := by
  have hnumber : (textNumber? s).isSome = true ↔ IsNumeral (Text.trim s.toList) := by
    rw [textNumber?, Option.isSome_map]
    exact isSome_parse?_iff
  refine ⟨isSome_parse?_iff, ?_, ?_⟩
  · rw [number?_normalize_text]
    exact hnumber
  · rw [numericId?, Option.isSome_map]
    exact hnumber

end Value

end FluentTables
