import FluentTables.Json.Basic
import FluentTables.Json.Reader
import FluentTables.Proofs.Decimal.StoredNumbers

/-!
# Reading what was written

The compact text of a JSON value is read as the tree of that value, whatever follows it that does not go on with a
number (`readValue_compactChars`, `read?_compactChars`). Nothing is assumed of the numbers in it: the tree keeps their
digits.
-/

namespace FluentTables.Json

open Numeral (chars)

variable {rest : List Char}

/-! ## The tree of a value -/

mutual

/-- A JSON value taken apart. -/
def tree : Json → Tree
  | null => .null
  | bool b => .bool b
  | int n => .number (.ofInt n)
  | float x => x.numeral?.elim .null .number
  | string s => .string (some s)
  | array items => .array (itemTrees items)
  | object fields => .object (fieldTrees fields)

/-- The elements of an array taken apart. -/
def itemTrees : List Json → List Tree
  | [] => []
  | x :: xs => tree x :: itemTrees xs

/-- The fields of an object taken apart. -/
def fieldTrees : List (String × Json) → List (Option String × Tree)
  | [] => []
  | (k, x) :: xs => (some k, tree x) :: fieldTrees xs

end

/-- What holds of arrays and objects if it holds of what they hold. -/
@[elab_as_elim]
theorem nested_induction {P : Json → Prop} (null : P null) (bool : ∀ b, P (bool b)) (int : ∀ i, P (int i))
    (float : ∀ x, P (float x)) (string : ∀ s, P (string s))
    (array : ∀ items, (∀ x ∈ items, P x) → P (array items))
    (object : ∀ fields, (∀ f ∈ fields, P f.2) → P (object fields)) : ∀ j, P j
  | .null => null
  | .bool b => bool b
  | .int i => int i
  | .float x => float x
  | .string s => string s
  | .array items => array items fun x _ => nested_induction null bool int float string array object x
  | .object fields => object fields fun f _ => nested_induction null bool int float string array object f.2
decreasing_by
  · simp_wf
    exact Nat.lt_add_left 1 (List.sizeOf_lt_of_mem (by assumption))
  · obtain ⟨k, x⟩ := f
    have := List.sizeOf_lt_of_mem (a := (k, x)) (by assumption)
    simp_wf
    simp only [Prod.mk.sizeOf_spec] at this
    omega

/-! ## Numbers -/

/-- What does not go on with a number. -/
def EndsNumber (rest : List Char) : Prop :=
  ∀ c ∈ rest.head?, c.isDigit = false ∧ c ≠ '.' ∧ Numeral.isExponentMark c = false

theorem endsNumber_nil : EndsNumber [] := by rintro c ⟨⟩

theorem endsNumber_cons {c : Char} (r : List Char)
    (h : c.isDigit = false ∧ c ≠ '.' ∧ Numeral.isExponentMark c = false) : EndsNumber (c :: r) := by
  rintro d ⟨⟩
  exact h

theorem any_head_eq_false {p : Char → Bool} (h : ∀ c ∈ rest.head?, p c = false) : rest.head?.any p = false := by
  cases rest with
  | nil => rfl
  | cons c r => exact h c rfl

theorem readDigits_append {ds : List Char} (h : Numeral.IsDigits ds) (hrest : rest.head?.any Char.isDigit = false) :
    readDigits (ds ++ rest) = some (ds, rest) := by
  have hspan : (ds ++ rest).span Char.isDigit = (ds, rest) := by
    rw [List.span_eq_takeWhile_dropWhile, List.takeWhile_append_of_pos h.2, List.dropWhile_append_of_pos h.2]
    cases rest with
    | nil => simp
    | cons c r =>
      have hc : c.isDigit = false := hrest
      simp [hc]
  obtain ⟨d, r, rfl⟩ := List.exists_cons_of_ne_nil h.1
  rw [readDigits, hspan]

theorem readWhole_append {ds : List Char} (h : Numeral.IsDigits ds) (hzero : ds.head? = some '0' → ds = ['0'])
    (hrest : rest.head?.any Char.isDigit = false) : readWhole (ds ++ rest) = some (ds, rest) := by
  rw [readWhole, readDigits_append h hrest]
  split
  · next heq =>
    obtain ⟨rfl, rfl⟩ : ds = _ ∧ rest = _ := by simpa using heq
    exact absurd (hzero rfl) (by simp)
  · rfl

theorem readFraction_append {f : Option (List Char)} (h : ∀ ds ∈ f, Numeral.IsDigits ds)
    (hrest : rest.head?.any Char.isDigit = false) (hpoint : rest.head? ≠ some '.') :
    readFraction (f.elim [] ('.' :: ·) ++ rest) = some (f, rest) := by
  cases f with
  | some ds =>
    show (readDigits (ds ++ rest)).map _ = _
    rw [readDigits_append (h ds rfl) hrest]
    rfl
  | none =>
    rw [Option.elim_none, List.nil_append]
    unfold readFraction
    split
    · exact absurd rfl hpoint
    · rfl

theorem readExponent_append {e : Option (Bool × List Char)} (h : ∀ x ∈ e, Numeral.IsDigits x.2)
    (hrest : EndsNumber rest) :
    readExponent ((e.elim [] fun x => 'e' :: (if x.1 then '-' else '+') :: x.2) ++ rest) = some (e, rest) := by
  have hdigits : rest.head?.any Char.isDigit = false := any_head_eq_false fun c hc => (hrest c hc).1
  cases e with
  | some x =>
    obtain ⟨negative, ds⟩ := x
    have hread := readDigits_append (h _ rfl) hdigits
    cases negative with
    | true =>
      show (readDigits (ds ++ rest)).map _ = _
      rw [hread]
      rfl
    | false =>
      show (readDigits (ds ++ rest)).map _ = _
      rw [hread]
      rfl
  | none =>
    rw [Option.elim_none, List.nil_append]
    cases rest with
    | nil => rfl
    | cons c r => rw [readExponent, if_neg (by simp [(hrest c rfl).2.2])]

/-- The parts of a number are read one after another. -/
theorem readNumber_parts {negative : Bool} {s s' s'' : List Char} {whole : List Char} {fraction : Option (List Char)}
    {exponent : Option (Bool × List Char)} (hsign : s.head? ≠ some '-') (hwhole : readWhole s = some (whole, s'))
    (hfraction : readFraction s' = some (fraction, s'')) (hexponent : readExponent s'' = some (exponent, rest)) :
    readNumber ((if negative then ['-'] else []) ++ s) = some (⟨negative, whole, fraction, exponent⟩, rest) := by
  cases negative with
  | true => simp [readNumber, hwhole, hfraction, hexponent]
  | false =>
    -- picks the equation of `readNumber` for no sign
    have hunsigned : ∀ r, s ≠ '-' :: r := by
      rintro r rfl
      exact hsign rfl
    simp [readNumber, hwhole, hfraction, hexponent]

/-- **A strict numeral is read back.** -/
theorem readNumber_chars {n : Numeral} (h : n.IsStrict) (hrest : EndsNumber rest) :
    readNumber (n.chars ++ rest) = some (n, rest) := by
  obtain ⟨negative, whole, fraction, exponent⟩ := n
  obtain ⟨hwhole, hleading, hfraction, hexponent⟩ := h
  have hfollow : ∀ c ∈ ((exponent.elim [] fun x => 'e' :: (if x.1 then '-' else '+') :: x.2) ++ rest).head?,
      c.isDigit = false ∧ c ≠ '.' := by
    intro c hc
    cases exponent with
    | none => exact ⟨(hrest c hc).1, (hrest c hc).2.1⟩
    | some x =>
      cases hc
      decide
  have hpoint : ∀ c ∈ (fraction.elim [] ('.' :: ·) ++
      ((exponent.elim [] fun x => 'e' :: (if x.1 then '-' else '+') :: x.2) ++ rest)).head?, c.isDigit = false := by
    intro c hc
    cases fraction with
    | none => exact (hfollow c hc).1
    | some ds =>
      cases hc
      decide
  simp only [chars, List.append_assoc]
  apply readNumber_parts
  · obtain ⟨c, r, rfl⟩ := List.exists_cons_of_ne_nil hwhole.1
    rintro ⟨⟩
    exact absurd (hwhole.2 '-' List.mem_cons_self) (by decide)
  · exact readWhole_append hwhole hleading (any_head_eq_false hpoint)
  · apply readFraction_append hfraction
    · exact any_head_eq_false fun c hc => (hfollow c hc).1
    · exact fun hc => (hfollow '.' hc).2 rfl
  · exact readExponent_append hexponent hrest

/-! ## Strings -/

theorem hexDigit?_digitChar : ∀ d < 16, hexDigit? d.digitChar = some d := by decide

/-- A character that is written as itself. -/
theorem readString_char {b : StringBuffer} {c : Char} (hquote : c ≠ '"') (hslash : c ≠ '\\') (hc : ¬ c.toNat < 0x20)
    (r : List Char) : readString b (c :: r) = readString (b.char c) r := by
  rw [readString.eq_def]
  split
  · next heq => cases heq
  · next heq =>
    cases heq
    exact absurd rfl hquote
  · next heq =>
    cases heq
    exact absurd rfl hslash
  · next heq =>
    cases heq
    exact absurd rfl hslash
  · next heq =>
    cases heq
    rw [if_neg (by simp [hslash, hc])]

/-- A control character is written by its number. -/
theorem readString_control {b : StringBuffer} (hb : b.half = none) {c : Char} (hc : c.toNat < 0x20) (r : List Char) :
    readString b ('\\' :: 'u' :: '0' :: '0' :: Nat.digitChar (c.toNat / 16) :: Nat.digitChar (c.toNat % 16) :: r) =
      readString (b.char c) r := by
  have hhex : hex4? '0' '0' (Nat.digitChar (c.toNat / 16)) (Nat.digitChar (c.toNat % 16)) = some c.toNat := by
    have hzero : hexDigit? '0' = some 0 := by decide
    rw [hex4?, hzero, hexDigit?_digitChar _ (by omega), hexDigit?_digitChar _ (Nat.mod_lt _ (by decide))]
    show some (((0 * 16 + 0) * 16 + c.toNat / 16) * 16 + c.toNat % 16) = some c.toNat
    congr 1
    omega
  have hunit : b.unit c.toNat = b.char c := by
    rw [StringBuffer.unit, hb]
    simp only
    rw [if_neg (by simp; omega), if_neg (by simp; omega), Char.ofNat_toNat]
  rw [readString, hhex]
  simp only [hunit]

/-- **A character is read back**, escaped or not. -/
theorem readString_escape {b : StringBuffer} (hb : b.half = none) (c : Char) (r : List Char) :
    readString b (escape c ++ r) = readString (b.char c) r := by
  have hcode : ∀ n, c.toNat = n → c = Char.ofNat n := fun n h => by rw [← h, Char.ofNat_toNat]
  unfold escape
  split
  · next h => rw [beq_iff_eq.1 h]; rfl
  split
  · next h => rw [beq_iff_eq.1 h]; rfl
  split
  · next h => rw [beq_iff_eq.1 h]; rfl
  split
  · next h => rw [beq_iff_eq.1 h]; rfl
  split
  · next h => rw [beq_iff_eq.1 h]; rfl
  split
  · next h => rw [hcode 8 (beq_iff_eq.1 h)]; rfl
  split
  · next h => rw [hcode 12 (beq_iff_eq.1 h)]; rfl
  split
  · next h => exact readString_control hb h r
  · next hquote hslash _ _ _ _ _ hcontrol =>
    exact readString_char (by simpa using hquote) (by simpa using hslash) hcontrol r

theorem readString_escaped {cs done : List Char} :
    readString { done := some done } (cs.flatMap escape ++ '"' :: rest) =
      some (some (String.ofList (done.reverse ++ cs)), rest) := by
  induction cs generalizing done with
  | nil => simp [readString, StringBuffer.finish]
  | cons c cs ih =>
    rw [List.flatMap_cons, List.append_assoc, readString_escape rfl]
    have h : ({ done := some done } : StringBuffer).char c = { done := some (c :: done) } := rfl
    rw [h, ih, List.reverse_cons, List.append_assoc]
    rfl

theorem readString_quoted (s : String) :
    readString {} (s.toList.flatMap escape ++ '"' :: rest) = some (some s, rest) := by
  rw [readString_escaped, List.reverse_nil, List.nil_append, String.ofList_toList]

/-! ## Values -/

theorem skipGap_cons {c : Char} (h : isGap c = false) (r : List Char) : skipGap (c :: r) = c :: r := by
  simp [skipGap, h]

theorem isGap_of_number {c : Char} (h : c = '-' ∨ c.isDigit = true) : isGap c = false := by
  refine Bool.eq_false_iff.2 fun hgap => ?_
  simp only [isGap, Bool.or_eq_true, beq_iff_eq] at hgap
  rcases hgap with ((rfl | rfl) | rfl) | rfl <;> exact absurd h (by decide)

theorem readValue_number {n : Nat} {c : Char} (h : c = '-' ∨ c.isDigit = true) (r : List Char) :
    readValue (n + 1) (c :: r) = (readNumber (c :: r)).map fun (x, r) => (.number x, r) := by
  rw [readValue.eq_def]
  simp only [skipGap_cons (isGap_of_number h)]
  split
  case h_7 => rfl
  all_goals
    next heq =>
    cases heq
    exact absurd h (by decide)

/-- What follows an element of an array or a field of an object. -/
theorem endsNumber_items (xs : List Json) (rest : List Char) : EndsNumber (compactItems xs ++ rest) := by
  cases xs with
  | nil => exact endsNumber_cons rest (by decide)
  | cons x xs => exact endsNumber_cons _ (by decide)

theorem endsNumber_fields (xs : List (String × Json)) (rest : List Char) : EndsNumber (compactFields xs ++ rest) := by
  cases xs with
  | nil => exact endsNumber_cons rest (by decide)
  | cons x xs => exact endsNumber_cons _ (by decide)

/-- The first character of a numeral. -/
theorem chars_head {n : Numeral} (h : n.IsStrict) : ∃ c r, n.chars = c :: r ∧ (c = '-' ∨ c.isDigit = true) := by
  obtain ⟨negative, whole, fraction, exponent⟩ := n
  obtain ⟨⟨hne, hdigits⟩, -, -, -⟩ := h
  dsimp only at hne hdigits
  obtain ⟨c, r, rfl⟩ := List.exists_cons_of_ne_nil hne
  cases negative with
  | true => exact ⟨'-', _, rfl, Or.inl rfl⟩
  | false => exact ⟨c, _, rfl, Or.inr (hdigits c List.mem_cons_self)⟩

/-- The text of a number that is not a value of its own is that of null. -/
theorem compactChars_float (x : Binary64) :
    (float x).compactChars = x.numeral?.elim "null".toList Numeral.chars := by
  show x.stored?.getD "null".toList = _
  rw [x.stored?_eq]
  cases x.numeral? <;> rfl

/-- The first character of a text: no white space, and no bracket that closes. -/
theorem compactChars_head (j : Json) : ∃ c r, j.compactChars = c :: r ∧ isGap c = false ∧ c ≠ ']' := by
  have hnumber : ∀ {n : Numeral}, n.IsStrict → ∃ c r, n.chars = c :: r ∧ isGap c = false ∧ c ≠ ']' := by
    intro n hn
    obtain ⟨c, r, hchars, hc⟩ := chars_head hn
    refine ⟨c, r, hchars, isGap_of_number hc, ?_⟩
    rintro rfl
    exact absurd hc (by decide)
  cases j with
  | null => exact ⟨'n', _, rfl, by decide⟩
  | bool b => cases b <;> exact ⟨_, _, rfl, by decide⟩
  | int i =>
    have htext : (int i).compactChars = (Numeral.ofInt i).chars := (Numeral.chars_ofInt i).symm
    rw [htext]
    exact hnumber (Numeral.ofInt_isStrict i)
  | float x =>
    rw [compactChars_float]
    cases hx : x.numeral? with
    | none => exact ⟨'n', _, rfl, by decide⟩
    | some n => exact hnumber (Binary64.numeral?_isStrict hx)
  | string s => exact ⟨'"', _, rfl, by decide⟩
  | array items => cases items <;> exact ⟨'[', _, rfl, by decide⟩
  | object fields => cases fields <;> exact ⟨'{', _, rfl, by decide⟩

theorem compactChars_pos (j : Json) : 0 < j.compactChars.length := by
  obtain ⟨c, r, h, -⟩ := j.compactChars_head
  simp [h]

/-! ### Elements and fields -/

/-- The text of a value is read back in front of what ends a number. -/
def ReadsBack (j : Json) : Prop :=
  ∀ (n : Nat) (rest : List Char), 2 * j.compactChars.length ≤ n → EndsNumber rest →
    readValue n (j.compactChars ++ rest) = some (j.tree, rest)

/-- With one step at least. -/
theorem readsBack_of_succ {j : Json}
    (h : ∀ (n : Nat) (rest : List Char), 2 * j.compactChars.length ≤ n + 1 → EndsNumber rest →
      readValue (n + 1) (j.compactChars ++ rest) = some (j.tree, rest)) : j.ReadsBack := by
  intro n rest hn hrest
  have hpos := j.compactChars_pos
  obtain ⟨m, rfl⟩ : ∃ m, n = m + 1 := ⟨n - 1, by omega⟩
  exact h m rest hn hrest

theorem readValue_chars {n : Numeral} (h : n.IsStrict) {m : Nat} (hrest : EndsNumber rest) :
    readValue (m + 1) (n.chars ++ rest) = some (.number n, rest) := by
  obtain ⟨c, r, hchars, hc⟩ := chars_head h
  have hread := readNumber_chars h hrest
  rw [hchars, List.cons_append] at hread ⊢
  rw [readValue_number hc, hread]
  rfl

theorem readsBack_float (x : Binary64) : ReadsBack (float x) := by
  refine readsBack_of_succ fun n rest _ hrest => ?_
  rw [compactChars_float, tree]
  cases hx : x.numeral? with
  | none => rfl
  | some m => exact readValue_chars (Binary64.numeral?_isStrict hx) hrest

theorem readsBack_int (i : Int) : ReadsBack (int i) := by
  refine readsBack_of_succ fun n rest _ hrest => ?_
  have htext : (int i).compactChars = (Numeral.ofInt i).chars := (Numeral.chars_ofInt i).symm
  rw [htext, tree]
  exact readValue_chars (Numeral.ofInt_isStrict i) hrest

theorem readsBack_string (s : String) : ReadsBack (string s) := by
  refine readsBack_of_succ fun n rest _ _ => ?_
  have htext : (string s).compactChars ++ rest = '"' :: (s.toList.flatMap escape ++ '"' :: rest) := by
    show quoted s ++ rest = _
    simp [quoted]
  have hgap : isGap '"' = false := by decide
  rw [htext, readValue, skipGap_cons hgap]
  show (readString {} _).map _ = _
  rw [readString_quoted]
  rfl

/-- The elements of an array are read back one after another. -/
theorem readItems_compactItems {x : Json} {xs : List Json} (h : ∀ y ∈ x :: xs, ReadsBack y) {n : Nat}
    (hn : 2 * (x.compactChars.length + (compactItems xs).length) ≤ n) (acc : List Tree) (rest : List Char) :
    readItems n acc (x.compactChars ++ (compactItems xs ++ rest)) =
      some (.array (acc.reverse ++ itemTrees (x :: xs)), rest) := by
  induction xs generalizing x n acc with
  | nil =>
    obtain ⟨m, rfl⟩ : ∃ m, n = m + 1 := ⟨n - 1, by have := x.compactChars_pos; omega⟩
    have hlength : (compactItems []).length = 1 := rfl
    have hx := h x List.mem_cons_self m _ (by omega) (endsNumber_items [] rest)
    rw [readItems, hx]
    simp [compactItems, skipGap_cons, isGap, itemTrees]
  | cons y ys ih =>
    obtain ⟨m, rfl⟩ : ∃ m, n = m + 1 := ⟨n - 1, by have := x.compactChars_pos; omega⟩
    simp only [compactItems, List.length_cons, List.length_append] at hn
    have hx := h x List.mem_cons_self m _ (by omega) (endsNumber_items (y :: ys) rest)
    have hys := ih (fun z hz => h z (List.mem_cons_of_mem x hz)) (n := m) (by omega) (x.tree :: acc)
    have hgap : isGap ',' = false := by decide
    rw [readItems, hx]
    simp only [compactItems, List.cons_append, List.append_assoc, skipGap_cons hgap]
    rw [hys]
    simp [itemTrees]

/-- The fields of an object are read back one after another. -/
theorem readFields_compactFields {k : String} {x : Json} {xs : List (String × Json)}
    (h : ∀ f ∈ (k, x) :: xs, ReadsBack f.2) {n : Nat}
    (hn : 2 * ((quoted k).length + 1 + x.compactChars.length + (compactFields xs).length) ≤ n)
    (acc : List (Option String × Tree)) (rest : List Char) :
    readFields n acc (quoted k ++ ':' :: (x.compactChars ++ (compactFields xs ++ rest))) =
      some (.object (acc.reverse ++ fieldTrees ((k, x) :: xs)), rest) := by
  have hquote : isGap '"' = false := by decide
  have hcolon : isGap ':' = false := by decide
  have hcomma : isGap ',' = false := by decide
  have hclose : isGap '}' = false := by decide
  have hkey : ∀ (k : String) (r : List Char), quoted k ++ r = '"' :: (k.toList.flatMap escape ++ '"' :: r) := by
    intro k r
    simp [quoted]
  induction xs generalizing k x n acc with
  | nil =>
    obtain ⟨m, rfl⟩ : ∃ m, n = m + 1 := ⟨n - 1, by omega⟩
    have hlength : (compactFields []).length = 1 := rfl
    have hsize : 2 * x.compactChars.length ≤ m := by omega
    have hx := h (k, x) List.mem_cons_self m _ hsize (endsNumber_fields [] rest)
    rw [hkey, readFields, skipGap_cons hquote]
    simp only [readString_quoted, skipGap_cons hcolon, hx]
    simp [compactFields, skipGap_cons hclose, fieldTrees]
  | cons f fs ih =>
    obtain ⟨j, y⟩ := f
    obtain ⟨m, rfl⟩ : ∃ m, n = m + 1 := ⟨n - 1, by omega⟩
    simp only [compactFields, List.length_cons, List.length_append] at hn
    have hsize : 2 * x.compactChars.length ≤ m := by omega
    have hx := h (k, x) List.mem_cons_self m _ hsize (endsNumber_fields ((j, y) :: fs) rest)
    have hys := ih (fun z hz => h z (List.mem_cons_of_mem (k, x) hz)) (n := m) (by omega) ((some k, x.tree) :: acc)
    rw [hkey, readFields, skipGap_cons hquote]
    simp only [readString_quoted, skipGap_cons hcolon, hx]
    simp only [compactFields, List.cons_append, List.append_assoc, skipGap_cons hcomma]
    rw [hys]
    simp [fieldTrees]

theorem readsBack_array {items : List Json} (h : ∀ x ∈ items, ReadsBack x) : ReadsBack (array items) := by
  refine readsBack_of_succ fun n rest hn _ => ?_
  have hopen : isGap '[' = false := by decide
  cases items with
  | nil => rfl
  | cons x xs =>
    simp only [compactChars, List.length_cons, List.length_append] at hn
    have hitems := readItems_compactItems h (n := n) (by omega) [] rest
    obtain ⟨c, r, hx, hgap, hc⟩ := x.compactChars_head
    simp only [compactChars, List.cons_append, List.append_assoc]
    rw [readValue, skipGap_cons hopen]
    rw [hx] at hitems ⊢
    simp only [List.cons_append, skipGap_cons hgap]
    split
    · next heq => exact absurd (List.cons_eq_cons.1 heq).1 hc
    · exact hitems

theorem readsBack_object {fields : List (String × Json)} (h : ∀ f ∈ fields, ReadsBack f.2) :
    ReadsBack (object fields) := by
  refine readsBack_of_succ fun n rest hn _ => ?_
  have hopen : isGap '{' = false := by decide
  have hquote : isGap '"' = false := by decide
  cases fields with
  | nil => rfl
  | cons f fs =>
    obtain ⟨k, x⟩ := f
    simp only [compactChars, List.length_cons, List.length_append] at hn
    have hfields := readFields_compactFields h (n := n) (by omega) [] rest
    simp only [compactChars, List.cons_append, List.append_assoc]
    rw [readValue, skipGap_cons hopen]
    simp only [quoted, List.cons_append, skipGap_cons hquote] at hfields ⊢
    exact hfields

/-- **What was written is read back**, whatever follows that does not go on with a number. -/
theorem readsBack (j : Json) : ReadsBack j := by
  induction j using nested_induction with
  | null => exact readsBack_of_succ fun _ _ _ _ => rfl
  | bool b =>
    cases b
    · exact readsBack_of_succ fun _ _ _ _ => rfl
    · exact readsBack_of_succ fun _ _ _ _ => rfl
  | int i => exact readsBack_int i
  | float x => exact readsBack_float x
  | string s => exact readsBack_string s
  | array items ih => exact readsBack_array ih
  | object fields ih => exact readsBack_object ih

/-- **The compact text of a value is the text of its tree.** -/
theorem read?_compactChars (j : Json) : Tree.read? j.compactChars = some j.tree := by
  have h := j.readsBack (2 * j.compactChars.length + 2) [] (by omega) endsNumber_nil
  rw [List.append_nil] at h
  rw [Tree.read?, h]
  rfl

/-- Two values with one text have one tree. -/
theorem tree_eq_of_compact {a b : Json} (h : a.compact = b.compact) : a.tree = b.tree := by
  have hread : some a.tree = some b.tree := by
    rw [← read?_compactChars, ← read?_compactChars, String.ofList_injective h]
  exact Option.some.inj hread

end FluentTables.Json
