import FluentTables.Text.Quoted

/-!
# Argument lists as they are written

Arguments stand between commas, with white space around these. Quotes hide what stands between them from the reader
of a list (`isArgument_quotedBy`), so a list that is written out is read back (`splitArgs_of_joins`). A reader of names
looks at nothing but the quotes (`quotedNames_joined`).
-/

namespace FluentTables.Text

/-- What holds of all characters of a text is decided along the text, not among all characters there are. -/
instance (priority := high) decidableForallMem (p : Char → Prop) [DecidablePred p] (s : List Char) :
    Decidable (∀ c ∈ s, p c) := List.decidableBAll p s

/-- A text between quotes. -/
def quotedBy (q : Char) (s : List Char) : List Char := q :: (s ++ [q])

/-- A text between single quotes. -/
def quoted (s : List Char) : List Char := quotedBy '\'' s

/-- Arguments one after another, with white space behind each comma. -/
def joined (gap : List Char) (args : List (List Char)) : List Char := List.intercalate (',' :: gap) args

variable {gap s : List Char} {q c : Char}

theorem joined_singleton (a : List Char) : joined gap [a] = a := List.intercalate_singleton

theorem joined_cons_cons (a b : List Char) (args : List (List Char)) :
    joined gap (a :: b :: args) = a ++ ',' :: (gap ++ joined gap (b :: args)) := by
  simp [joined, List.intercalate_cons_cons]

/-- A character of a list is one of an argument, a comma or white space behind one. -/
theorem mem_joined {args : List (List Char)} (h : c ∈ joined gap args) : (∃ a ∈ args, c ∈ a) ∨ c = ',' ∨ c ∈ gap := by
  induction args with
  | nil => cases h
  | cons a args ih =>
    cases args with
    | nil => exact Or.inl ⟨a, by simp, by rwa [joined_singleton] at h⟩
    | cons b args =>
      rw [joined_cons_cons, List.mem_append, List.mem_cons, List.mem_append] at h
      rcases h with h | h | h | h
      · exact Or.inl ⟨a, by simp, h⟩
      · exact Or.inr (Or.inl h)
      · exact Or.inr (Or.inr h)
      · rcases ih h with ⟨d, hd, hc⟩ | h
        · exact Or.inl ⟨d, by simp [hd], hc⟩
        · exact Or.inr h

theorem mem_quotedBy : c ∈ quotedBy q s ↔ c = q ∨ c ∈ s := by
  simp [quotedBy, or_comm]

/-! ## Quotes at the ends -/

/-- Where a character that stays is at both ends, nothing is dropped. -/
theorem trim_of_ends {d : Char} (hc : isBlank c = false) (hd : isBlank d = false) (s : List Char) :
    trim (c :: (s ++ [d])) = c :: (s ++ [d]) := by
  refine trimBy_eq_self (fun e he => ?_) fun e he => ?_
  · cases he
    exact hc
  · rw [← List.cons_append, List.getLast?_append, List.getLast?_singleton] at he
    cases he
    exact hd

theorem isBlank_of_isQuote (h : isQuote q = true) : isBlank q = false := by
  simp only [isQuote, Bool.or_eq_true, beq_iff_eq] at h
  rcases h with rfl | rfl <;> decide

theorem trim_quotedBy (h : isQuote q = true) (s : List Char) : trim (quotedBy q s) = quotedBy q s :=
  trim_of_ends (isBlank_of_isQuote h) (isBlank_of_isQuote h) s

/-- Quotes around a text are dropped, and with them all quotes at its ends. -/
theorem stripQuotes_quotedBy_eq (hq : isQuote q = true) (s : List Char) :
    stripQuotes (quotedBy q s) = trimBy isQuote s := by
  have hone : ∀ c ∈ [q], isQuote c = true := by simpa using hq
  rw [stripQuotes, trim_quotedBy hq, quotedBy, ← List.singleton_append, trimBy_append_left hone,
    trimBy_append_right hone]

theorem stripQuotes_quotedBy (hq : isQuote q = true) (hs : ∀ c ∈ s, isQuote c = false) :
    stripQuotes (quotedBy q s) = s := by
  rw [stripQuotes_quotedBy_eq hq]
  exact trimBy_eq_self_of_forall hs

/-! ## Reading a list -/

/-- A text that a reader of a list takes as part of one argument. -/
def IsArgument (a : List Char) : Prop :=
  ∀ acc r, splitArgsFrom {} acc (a ++ r) = splitArgsFrom {} (a.reverse ++ acc) r

theorem IsArgument.append {a b : List Char} (ha : IsArgument a) (hb : IsArgument b) : IsArgument (a ++ b) := by
  intro acc r
  rw [List.append_assoc, ha, hb, List.reverse_append, List.append_assoc]

/-- The characters that mean something to the reader outside quotes. -/
def isMark (c : Char) : Bool := c == ',' || isQuote c || isOpener c || isCloser c

theorem isMark_of_isBlank (h : isBlank c = true) : isMark c = false := by
  refine Bool.eq_false_iff.2 fun hc => ?_
  simp only [isMark, isQuote, isOpener, isCloser, Bool.or_eq_true, beq_iff_eq, or_assoc] at hc
  rcases hc with rfl | rfl | rfl | rfl | rfl | rfl | rfl | rfl | rfl <;> exact absurd h (by decide)

/-- A text without such characters. -/
theorem isArgument_of_plain {a : List Char} (h : ∀ c ∈ a, isMark c = false) : IsArgument a := by
  intro acc r
  induction a generalizing acc with
  | nil => rfl
  | cons c a ih =>
    have hc := h c (by simp)
    simp only [isMark, Bool.or_eq_false_iff, beq_eq_false_iff_ne] at hc
    obtain ⟨⟨⟨hcomma, hquote⟩, hopener⟩, hcloser⟩ := hc
    have hstep : ArgState.step {} c = {} := by simp [ArgState.step, hquote, hopener, hcloser]
    rw [List.cons_append, splitArgsFrom, hstep, if_neg (by simp [hcomma]), ih fun d hd => h d (by simp [hd])]
    simp

/-- Inside quotes nothing ends an argument. -/
theorem splitArgsFrom_quote (hs : ∀ c ∈ s, c ≠ q ∧ c ≠ '\\') (acc r : List Char) :
    splitArgsFrom { quote := some q } acc (s ++ r) = splitArgsFrom { quote := some q } (s.reverse ++ acc) r := by
  induction s generalizing acc with
  | nil => rfl
  | cons c s ih =>
    obtain ⟨hc, hb⟩ := hs c (by simp)
    have hstep : ArgState.step { quote := some q } c = { quote := some q } := by simp [ArgState.step, hc, hb]
    rw [List.cons_append, splitArgsFrom, hstep, if_neg (by simp [ArgState.atTop]),
      ih fun d hd => hs d (by simp [hd])]
    simp

theorem isArgument_quotedBy (hq : isQuote q = true) (hs : ∀ c ∈ s, c ≠ q ∧ c ≠ '\\') : IsArgument (quotedBy q s) := by
  intro acc r
  have hcomma : q ≠ ',' := by rintro rfl; cases hq
  have hback : q ≠ '\\' := by rintro rfl; cases hq
  have hopen : ArgState.step {} q = { quote := some q } := by simp [ArgState.step, hq]
  have hclose : ArgState.step { quote := some q } q = {} := by simp [ArgState.step, hback]
  rw [quotedBy, List.cons_append, splitArgsFrom, hopen, if_neg (by simp [hcomma]), List.append_assoc,
    splitArgsFrom_quote hs, List.singleton_append, splitArgsFrom, hclose, if_neg (by simp [hcomma])]
  simp

/-- A text between quotes stands as one argument. -/
theorem argument_quotedBy (hq : isQuote q = true) (hs : ∀ c ∈ s, c ≠ q ∧ c ≠ '\\') :
    IsArgument (quotedBy q s) ∧ trim (quotedBy q s) = quotedBy q s ∧ quotedBy q s ≠ [] :=
  ⟨isArgument_quotedBy hq hs, trim_quotedBy hq s, List.cons_ne_nil _ _⟩

/-- A text without its white space. -/
def dense (s : List Char) : List Char := s.filter (!isBlank ·)

/-- The text is the arguments, with separators between them: commas with white space around. -/
inductive Joins : List (List Char) → List Char → Prop
  | nil : Joins [] []
  | single (a : List Char) : Joins [a] a
  | cons (a : List Char) {sep b : List Char} {args : List (List Char)} {s : List Char} : dense sep = [','] →
      Joins (b :: args) s → Joins (a :: b :: args) (a ++ (sep ++ s))

theorem exists_of_dense {sep : List Char} (h : dense sep = [',']) :
    ∃ x y, sep = x ++ ',' :: y ∧ (∀ c ∈ x, isBlank c = true) ∧ ∀ c ∈ y, isBlank c = true := by
  obtain ⟨x, y, rfl, hx, -, hy⟩ := List.filter_eq_cons_iff.1 h
  refine ⟨x, y, rfl, fun c hc => by simpa using hx c hc, fun c hc => ?_⟩
  simpa using List.filter_eq_nil_iff.1 hy c hc

theorem joins_joined (hgap : ∀ c ∈ gap, isBlank c = true) (args : List (List Char)) :
    Joins args (joined gap args) := by
  induction args with
  | nil => exact .nil
  | cons a args ih =>
    cases args with
    | nil =>
      rw [joined_singleton]
      exact .single a
    | cons b args =>
      have hsep : dense (',' :: gap) = [','] := by
        rw [dense, List.filter_cons_of_pos (by decide), List.filter_eq_nil_iff.2 (by simpa using hgap)]
      rw [joined_cons_cons, ← List.cons_append]
      exact .cons a hsep ih

/-- **A list of arguments is read back**, whatever the white space around its commas. -/
theorem splitArgs_of_joins {args : List (List Char)} (hjoins : Joins args s)
    (h : ∀ a ∈ args, IsArgument a ∧ trim a = a ∧ a ≠ []) : splitArgs s = args := by
  have hplain : ∀ {x : List Char}, (∀ c ∈ x, isBlank c = true) → IsArgument x := fun hx =>
    isArgument_of_plain fun c hc => isMark_of_isBlank (hx c hc)
  -- What stands before the first argument is white space or nothing.
  have hfrom : ∀ acc : List Char, (∀ c ∈ acc, isBlank c = true) → args ≠ [] → splitArgsFrom {} acc s = args := by
    induction hjoins with
    | nil => exact fun _ _ hne => absurd rfl hne
    | single a =>
      intro acc hacc _
      obtain ⟨harg, htrim, hne⟩ := h a List.mem_cons_self
      have hread : trim (a.reverse ++ acc).reverse = a := by
        rw [List.reverse_append, List.reverse_reverse, trim, trimBy_append_left (by simpa using hacc)]
        exact htrim
      have hend := harg acc []
      rw [List.append_nil] at hend
      rw [hend, splitArgsFrom, hread, if_neg (by simpa using hne)]
    | cons a hsep _ ih =>
      intro acc hacc _
      obtain ⟨harg, htrim, -⟩ := h a List.mem_cons_self
      obtain ⟨x, y, rfl, hx, hy⟩ := exists_of_dense hsep
      have hread : trim (x.reverse ++ (a.reverse ++ acc)).reverse = a := by
        rw [List.reverse_append, List.reverse_append, List.reverse_reverse, List.reverse_reverse, trim,
          trimBy_append_right hx, trimBy_append_left (by simpa using hacc)]
        exact htrim
      rw [harg, List.append_assoc, hplain hx, List.cons_append, splitArgsFrom, if_pos (by simp [ArgState.atTop]),
        hread, hplain hy, List.append_nil, ih (fun b hb => h b (List.mem_cons_of_mem a hb)) _ (by simpa using hy)
          (List.cons_ne_nil _ _)]
  cases hjoins with
  | nil => rfl
  | single a => exact hfrom [] (by simp) (List.cons_ne_nil _ _)
  | cons a hsep hrest => exact hfrom [] (by simp) (List.cons_ne_nil _ _)

/-- **A list that is written out is read back.** -/
theorem splitArgs_joined {args : List (List Char)} (hgap : ∀ c ∈ gap, isBlank c = true)
    (h : ∀ a ∈ args, IsArgument a ∧ trim a = a ∧ a ≠ []) : splitArgs (joined gap args) = args :=
  splitArgs_of_joins (joins_joined hgap args) h

/-! ## Reading names -/

theorem quotedNamesFrom_outside {r : List Char} (h : ∀ c ∈ s, isQuote c = false) :
    quotedNamesFrom none (s ++ r) = quotedNamesFrom none r := by
  induction s with
  | nil => rfl
  | cons c s ih =>
    rw [List.cons_append, quotedNamesFrom, h c (by simp), if_neg (by simp), ih fun d hd => h d (by simp [hd])]

theorem quotedNamesFrom_inside {r acc : List Char} (h : q ∉ s) :
    quotedNamesFrom (some (q, acc)) (s ++ r) = quotedNamesFrom (some (q, s.reverse ++ acc)) r := by
  induction s generalizing acc with
  | nil => rfl
  | cons c s ih =>
    have hc : c ≠ q := fun hc => h (by simp [hc])
    rw [List.cons_append, quotedNamesFrom, if_neg (by simpa using hc), ih fun hm => h (by simp [hm])]
    simp

/-- A name in quotes. -/
theorem quotedNamesFrom_quotedBy {r : List Char} (hq : isQuote q = true) (hs : q ∉ s) (hne : s ≠ []) :
    quotedNamesFrom none (quotedBy q s ++ r) = s :: quotedNamesFrom none r := by
  rw [quotedBy, List.cons_append, quotedNamesFrom, if_pos hq, List.append_assoc, quotedNamesFrom_inside hs,
    List.singleton_append, quotedNamesFrom, if_pos (by simp), if_neg (by simpa using hne)]
  simp

/-- **Names that are written out are read back.** -/
theorem quotedNames_joined {names : List (List Char)} (hgap : ∀ c ∈ gap, isQuote c = false)
    (h : ∀ s ∈ names, '\'' ∉ s ∧ s ≠ []) : quotedNames (joined gap (names.map quoted)) = names := by
  have hfrom : ∀ r, quotedNamesFrom none (joined gap (names.map quoted) ++ r) = names ++ quotedNamesFrom none r := by
    intro r
    induction names with
    | nil => rfl
    | cons s names ih =>
      obtain ⟨hs, hne⟩ := h s (by simp)
      cases names with
      | nil =>
        rw [List.map_singleton, joined_singleton]
        exact quotedNamesFrom_quotedBy (by decide) hs hne
      | cons t names =>
        have hcomma : ∀ c ∈ ',' :: gap, isQuote c = false := by simpa [show isQuote ',' = false by decide] using hgap
        rw [List.map_cons, List.map_cons, joined_cons_cons, List.append_assoc, List.cons_append, List.append_assoc,
          ← List.cons_append, quoted, quotedNamesFrom_quotedBy (by decide) hs hne, quotedNamesFrom_outside hcomma,
          ← List.map_cons, ih fun u hu => h u (List.mem_cons_of_mem s hu)]
        rfl
  have h := hfrom []
  rwa [List.append_nil, quotedNamesFrom, List.append_nil] at h

end FluentTables.Text
