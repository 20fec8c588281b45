import FluentTables.Proofs.Pattern.Occurrences
import FluentTables.Proofs.Text.Arguments
import FluentTables.Query.Interpret

/-!
# Statements as they are written

A statement without white space at its ends and without a decimal comma is read as it stands (`prepare_eq_self`), and
is answered by its first shape (`interpret_ofList`). What the parts of a shape take is said here once: the model
(`takes_model`), the first call (`takes_firstCall`) and the end of a list (`takes_close`).
-/

namespace FluentTables

/-! ## ASCII words -/

namespace Text

/-- A word of ASCII characters. -/
def IsAsciiWord (s : List Char) : Prop := s ≠ [] ∧ ∀ c ∈ s, c.toNat < 0x80 ∧ isWord c = true

instance : DecidablePred IsAsciiWord := fun _ => inferInstanceAs (Decidable (_ ∧ _))

theorem ascii_cases {P : Char → Prop} (h : ∀ n < 0x80, P (Char.ofNat n)) {c : Char} (hc : c.toNat < 0x80) : P c := by
  have := h c.toNat hc
  rwa [Char.ofNat_toNat] at this

/-- ASCII word characters are neither white space nor marks of the language. -/
theorem ascii_word {c : Char} (hc : c.toNat < 0x80 ∧ isWord c = true) :
    isBlank c = false ∧ isQuote c = false ∧ c ∉ [',', '(', ')', '[', ']', '{', '}', ':', '>', '.', '\\'] := by
  obtain ⟨hc, hw⟩ := hc
  revert hw
  exact ascii_cases (P := fun c => isWord c = true → isBlank c = false ∧ isQuote c = false ∧
    c ∉ [',', '(', ')', '[', ']', '{', '}', ':', '>', '.', '\\']) (by decide) hc

theorem ascii_of_isAlpha {c : Char} (h : c.isAlpha = true) : c.toNat < 0x80 := by
  have hletter : (decide ('A'.val ≤ c.val ∧ c.val ≤ 'Z'.val) ||
      (decide ('a'.val ≤ c.val) && decide (c.val ≤ 'z'.val))) = true := h
  simp only [Bool.or_eq_true, Bool.and_eq_true, decide_eq_true_eq, UInt32.le_iff_toNat_le] at hletter
  rcases hletter with ⟨-, hle⟩ | ⟨-, hle⟩ <;> exact Nat.lt_of_le_of_lt hle (by decide)

theorem ascii_word_of_isDigit {c : Char} (h : c.isDigit = true) : c.toNat < 0x80 ∧ isWord c = true := by
  have hbounds := h
  simp only [Char.isDigit, Bool.and_eq_true, decide_eq_true_eq, UInt32.le_iff_toNat_le] at hbounds
  have hascii : c.toNat < 0x80 := Nat.lt_of_le_of_lt hbounds.2 (by decide)
  exact ⟨hascii, by simp [isWord_ascii hascii, Char.isAlphanum, h]⟩

/-! ## Decimal commas -/

/-- A comma and a digit at the beginning. -/
def startsCommaDigit : List Char → Bool
  | ',' :: c :: _ => isDigit c
  | _ => false

/-- A digit, a comma and a digit somewhere. -/
def hasDecimalComma : List Char → Bool
  | [] => false
  | c :: r => (isDigit c && startsCommaDigit r) || hasDecimalComma r

variable {a s : List Char}

/-- Nothing new arises where a text begins with no digit, nor with a comma and a digit. -/
theorem hasDecimalComma_append (hdigit : s.head?.any isDigit = false) (hcomma : startsCommaDigit s = false) :
    hasDecimalComma (a ++ s) = (hasDecimalComma a || hasDecimalComma s) := by
  induction a with
  | nil => rfl
  | cons c a ih =>
    have hstart : startsCommaDigit (a ++ s) = startsCommaDigit a := by
      match a with
      | [] => exact hcomma
      | [d] =>
        by_cases hd : d = ','
        · subst hd
          cases s with
          | nil => rfl
          | cons e s => exact hdigit
        · simp [startsCommaDigit, hd]
      | d :: e :: a => by_cases hd : d = ',' <;> simp [startsCommaDigit, hd]
    rw [List.cons_append, hasDecimalComma, hstart, ih, hasDecimalComma, Bool.or_assoc]

/-- Text without digits in front changes nothing. -/
theorem hasDecimalComma_append_left (h : ∀ c ∈ a, isDigit c = false) :
    hasDecimalComma (a ++ s) = hasDecimalComma s := by
  induction a with
  | nil => rfl
  | cons c a ih =>
    rw [List.cons_append, hasDecimalComma, h c (by simp), Bool.false_and, Bool.false_or,
      ih fun d hd => h d (by simp [hd])]

theorem hasDecimalComma_of_suffix (h : hasDecimalComma s = true) (a : List Char) : hasDecimalComma (a ++ s) = true := by
  induction a with
  | nil => exact h
  | cons c a ih => rw [List.cons_append, hasDecimalComma, ih, Bool.or_true]

theorem hasDecimalComma_of_not_mem (h : ',' ∉ s) : hasDecimalComma s = false := by
  induction s with
  | nil => rfl
  | cons c s ih =>
    rw [List.mem_cons, not_or] at h
    have hstart : startsCommaDigit s = false := by
      match s with
      | [] | [_] => simp [startsCommaDigit]
      | d :: _ :: _ =>
        have hd : d ≠ ',' := fun hd => h.2 (by simp [hd])
        simp [startsCommaDigit, hd]
    rw [hasDecimalComma, hstart, Bool.and_false, Bool.false_or, ih h.2]

theorem isDigit_of_isQuote {q : Char} (h : isQuote q = true) : isDigit q = false := by
  simp only [isQuote, Bool.or_eq_true, beq_iff_eq] at h
  rcases h with rfl | rfl <;> decide

/-- The white space characters, one by one. -/
theorem blank_cases {P : Char → Prop} (h : ∀ n ∈ [9, 10, 11, 12, 13, 0x20, 0x85, 0xA0, 0x1680, 0x2000, 0x2001, 0x2002,
    0x2003, 0x2004, 0x2005, 0x2006, 0x2007, 0x2008, 0x2009, 0x200A, 0x2028, 0x2029, 0x202F, 0x205F, 0x3000],
    P (Char.ofNat n)) {c : Char} (hc : isBlank c = true) : P c := by
  rw [← Char.ofNat_toNat c]
  refine h _ ?_
  simp only [isBlank, Bool.or_eq_true, Bool.and_eq_true, decide_eq_true_eq, beq_iff_eq] at hc
  simp only [List.mem_cons, List.not_mem_nil, or_false]
  omega

theorem isDigit_of_isBlank {c : Char} (h : isBlank c = true) : isDigit c = false :=
  blank_cases (P := fun c => isDigit c = false) (by decide +kernel) h

/-- The table of word characters as a list, which is quicker to go through than an array. -/
theorem isWord_eq (c : Char) : isWord c = if c.toNat < 0x80 then c.isAlphanum || c == '_'
    else wordRanges.toList.any fun r => r.1 ≤ c.toNat && c.toNat ≤ r.2 := by
  rw [isWord, inRanges, Array.any_toList]

theorem isWord_of_isBlank {c : Char} (h : isBlank c = true) : isWord c = false := by
  rw [isWord_eq]
  exact blank_cases (P := fun c => (if c.toNat < 0x80 then c.isAlphanum || c == '_'
    else wordRanges.toList.any fun r => r.1 ≤ c.toNat && c.toNat ≤ r.2) = false) (by decide +kernel) h

/-- Quotes part what they hold from what is around them. -/
theorem hasDecimalComma_quotedBy {q : Char} (hq : isQuote q = true) (s r : List Char) :
    hasDecimalComma (quotedBy q s ++ r) = (hasDecimalComma s || hasDecimalComma r) := by
  have hd := isDigit_of_isQuote hq
  have hcomma : q ≠ ',' := by rintro rfl; cases hq
  have hstart : startsCommaDigit (q :: r) = false := by cases r <;> simp [startsCommaDigit, hcomma]
  rw [quotedBy, List.cons_append, hasDecimalComma, hd, Bool.false_and, Bool.false_or, List.append_assoc,
    List.singleton_append, hasDecimalComma_append (s := q :: r) hd hstart, hasDecimalComma, hd, Bool.false_and,
    Bool.false_or]

/-- A list of arguments that do not begin with digits has the decimal commas of these. -/
theorem hasDecimalComma_joined {gap : List Char} {args : List (List Char)} (hgap : ∀ c ∈ gap, isBlank c = true)
    (h : ∀ a ∈ args, a.head?.any isDigit = false ∧ hasDecimalComma a = false) :
    (joined gap args).head?.any isDigit = false ∧ hasDecimalComma (joined gap args) = false := by
  induction args with
  | nil => exact ⟨rfl, rfl⟩
  | cons a args ih =>
    obtain ⟨hhead, ha⟩ := h a (by simp)
    cases args with
    | nil => rw [joined_singleton]; exact ⟨hhead, ha⟩
    | cons b args =>
      obtain ⟨hhead', hrest⟩ := ih fun d hd => h d (List.mem_cons_of_mem a hd)
      have hdigits : ∀ c ∈ gap, isDigit c = false := fun c hc => isDigit_of_isBlank (hgap c hc)
      have hstart : startsCommaDigit (',' :: (gap ++ joined gap (b :: args))) = false := by
        cases gap with
        | nil =>
          rw [List.nil_append]
          revert hhead'
          cases joined [] (b :: args) <;> simp [startsCommaDigit]
        | cons c gap => exact hdigits c (by simp)
      rw [joined_cons_cons]
      constructor
      · cases a with
        | nil => rfl
        | cons c a => exact hhead
      · rw [hasDecimalComma_append (by rfl) hstart, ha, hasDecimalComma, show isDigit ',' = false by decide,
          Bool.false_and, Bool.false_or, Bool.false_or, hasDecimalComma_append_left hdigits, hrest]

end Text

namespace Query

open Pattern Text

theorem search_decimalComma {s : List Char} (h : hasDecimalComma s = false) : decimalComma.search s = none := by
  refine search_eq_none_of_spells ?_
  rintro w ⟨p, q, rfl⟩ ⟨u, v, rfl, ⟨hu, hudigits⟩, x, y, rfl, hx, z, z', rfl, ⟨hz, hzdigits⟩, rfl⟩
  obtain ⟨u, d, rfl⟩ : ∃ u' d, u = u' ++ [d] := ⟨_, _, (List.dropLast_concat_getLast hu).symm⟩
  obtain ⟨e, z, rfl⟩ := List.exists_cons_of_ne_nil hz
  rw [spells_char] at hx
  subst hx
  have hd : isDigit d = true := hudigits d (by simp)
  have he : isDigit e = true := hzdigits e (by simp)
  have hcomma : hasDecimalComma (d :: ',' :: e :: (z ++ q)) = true := by
    simp [hasDecimalComma, startsCommaDigit, hd, he]
  rw [← Bool.not_eq_true] at h
  refine h ?_
  simpa using hasDecimalComma_of_suffix hcomma (p ++ u)

/-- **A trimmed statement without decimal commas is read as it stands.** -/
theorem prepare_eq_self {s : List Char} (htrim : trim s = s) (h : hasDecimalComma s = false) : prepare s = s := by
  rw [prepare, htrim]
  exact replaced_none (search_decimalComma h)

/-- A statement begins with a model and ends with a parenthesis. -/
theorem trim_statement {model : List Char} (h : IsAsciiWord model) (s : List Char) :
    trim (model ++ (s ++ [')'])) = model ++ (s ++ [')']) := by
  obtain ⟨c, w, rfl⟩ := List.exists_cons_of_ne_nil h.1
  have hc : isBlank c = false := (ascii_word (h.2 c (by simp))).1
  have htrim := trim_of_ends hc (show isBlank ')' = false by decide) (w ++ s)
  simpa using htrim

/-- The model of a statement does not make a decimal comma. -/
theorem hasDecimalComma_statement {model : List Char} (h : IsAsciiWord model) (s : List Char) :
    hasDecimalComma (model ++ ':' :: s) = hasDecimalComma s := by
  have hmodel : hasDecimalComma model = false :=
    hasDecimalComma_of_not_mem fun hc => (ascii_word (h.2 _ hc)).2.2 (by simp)
  have hstart : startsCommaDigit (':' :: s) = false := by simp [startsCommaDigit]
  rw [hasDecimalComma_append (by rfl) hstart, hmodel, hasDecimalComma, show isDigit ':' = false by decide,
    Bool.false_and, Bool.false_or, Bool.false_or]

end Query

/-- A statement that is read as it stands is answered by its first shape. -/
theorem Interpreter.interpret_ofList (i : Interpreter) {s : List Char} {shape : Shape} {m : Pattern.Match}
    (hprepare : Query.prepare s = s) (h : Shape.recognize? s = some (shape, m)) (data : Dataset) :
    i.interpret (String.ofList s) data = i.dispatch shape m s data := by
  unfold interpret
  dsimp only
  rw [String.toList_ofList, hprepare, h]

/-! ## The parts of a shape -/

namespace Shape

open Pattern Text

variable {b : Option Char} {w rest : List Char}

theorem takes_model (hw : IsAsciiWord w) (hrest : rest.head?.any isWord = false) :
    Takes model b w rest [(1, w)] :=
  (takes_some1 hw.1 (fun c hc => (hw.2 c hc).2) hrest).group 1

theorem takes_firstCall (name : String) : Takes (firstCall name) b ("::" ++ name ++ "(").toList rest [] :=
  takes_text _

theorem takes_blanks (hw : ∀ c ∈ w, isBlank c = true) (hrest : rest.head?.any isBlank = false) :
    Takes blanks b w rest [] := takes_span hw hrest

theorem takes_close : Takes close b [')'] rest [] :=
  (takes_blanks (w := []) (by simp) rfl).chain_cons ((takes_char ')').chain_cons takes_chain_nil)

end Shape

end FluentTables
