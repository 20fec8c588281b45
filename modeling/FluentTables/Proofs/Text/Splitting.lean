import FluentTables.Proofs.Text.Arguments

/-!
# Cutting argument lists

A list is cut at its commas outside quotes and brackets. The cut drops these commas, the white space around them and
a last argument without text; put together again, the arguments have every other character of the list
(`dense_splitArgsFrom`). A text whose quotes and brackets are closed, with all its commas inside them, is not cut
(`IsFragment.isArgument`), so a list of such texts is read back (`splitArgs_lossless`).
-/

namespace FluentTables.Text

variable {st : ArgState} {a s t acc : List Char}

/-! ## Texts without their white space -/

theorem dense_append (s t : List Char) : dense (s ++ t) = dense s ++ dense t := List.filter_append ..

theorem dense_comma (s : List Char) : dense (',' :: s) = ',' :: dense s := List.filter_cons_of_pos (by decide)

theorem dense_eq_nil_iff : dense s = [] ↔ ∀ c ∈ s, isBlank c = true := by
  simp [dense, List.filter_eq_nil_iff]

theorem dense_trim (s : List Char) : dense (trim s) = dense s := by
  obtain ⟨a, b, hs, ha, hb⟩ := exists_trimBy isBlank s
  rw [hs, dense_append, dense_append, dense_eq_nil_iff.2 ha, dense_eq_nil_iff.2 hb, ← hs, List.nil_append,
    List.append_nil, trim]

theorem trim_eq_nil_iff : trim s = [] ↔ ∀ c ∈ s, isBlank c = true := by
  constructor
  · intro h
    rw [← dense_eq_nil_iff, ← dense_trim, h]
    rfl
  · intro h
    have htrim : trim (s ++ []) = trim [] := trimBy_append_left h
    rwa [List.append_nil] at htrim

theorem dense_joined_cons {args : List (List Char)} (h : args ≠ []) :
    dense (joined [] (a :: args)) = dense a ++ ',' :: dense (joined [] args) := by
  obtain ⟨b, args, rfl⟩ := List.exists_cons_of_ne_nil h
  rw [joined_cons_cons, dense_append, dense_comma, List.nil_append]

/-! ## What a cut keeps -/

/-- From a state on, the text has a comma outside quotes and brackets with nothing but white space behind it. -/
def endsInComma (st : ArgState) : List Char → Bool
  | [] => false
  | c :: r => (c == ',' && st.atTop && r.all isBlank) || endsInComma (st.step c) r

/-- A comma changes nothing outside quotes. -/
theorem step_comma (h : st.atTop = true) : st.step ',' = st := by
  have hquote : st.quote = none := by
    rw [ArgState.atTop, Bool.and_eq_true, Option.isNone_iff_eq_none] at h
    exact h.1
  rw [ArgState.step, hquote]
  rfl

/-- Nothing is left of white space only. -/
theorem splitArgsFrom_eq_nil_iff : splitArgsFrom st acc s = [] ↔ ∀ c ∈ acc.reverse ++ s, isBlank c = true := by
  induction s generalizing st acc with
  | nil =>
    rw [splitArgsFrom, List.append_nil, ← trim_eq_nil_iff]
    split <;> simp_all
  | cons c s ih =>
    rw [splitArgsFrom]
    split
    · next hc =>
      obtain rfl : c = ',' := by
        rw [Bool.and_eq_true] at hc
        exact beq_iff_eq.1 hc.1
      refine iff_of_false (List.cons_ne_nil _ _) fun h => ?_
      exact absurd (h ',' (by simp)) (by decide)
    · rw [ih, List.reverse_cons, List.append_assoc, List.singleton_append]

/-- By induction on the text; a comma at which it is cut is there again if something follows it. -/
theorem dense_splitArgsFrom (st : ArgState) (acc s : List Char) : dense (acc.reverse ++ s) =
    dense (joined [] (splitArgsFrom st acc s)) ++ if endsInComma st s then [','] else [] := by
  induction s generalizing st acc with
  | nil =>
    rw [splitArgsFrom, endsInComma, if_neg Bool.false_ne_true, List.append_nil, List.append_nil, ← dense_trim]
    split
    · next h =>
      rw [List.isEmpty_iff.1 h]
      rfl
    · rw [joined_singleton]
  | cons c s ih =>
    rw [splitArgsFrom, endsInComma]
    by_cases hc : (c == ',' && st.atTop) = true
    · rw [if_pos hc]
      rw [Bool.and_eq_true] at hc
      obtain rfl : c = ',' := beq_iff_eq.1 hc.1
      rw [hc.2, step_comma hc.2, dense_append, dense_comma, ← dense_trim]
      by_cases hs : s.all isBlank = true
      · have hblank : ∀ c ∈ s, isBlank c = true := List.all_eq_true.1 hs
        rw [splitArgsFrom_eq_nil_iff.2 hblank, joined_singleton, hs, dense_eq_nil_iff.2 hblank]
        rfl
      · have hrest : splitArgsFrom st [] s ≠ [] := fun h => hs (List.all_eq_true.2 (splitArgsFrom_eq_nil_iff.1 h))
        have hdense := ih st []
        rw [List.reverse_nil, List.nil_append] at hdense
        rw [dense_joined_cons hrest, hdense, Bool.eq_false_iff.2 hs]
        simp
    · rw [if_neg hc, Bool.eq_false_iff.2 hc, Bool.false_and, Bool.false_or, ← ih, List.reverse_cons,
        List.append_assoc, List.singleton_append]

/-! ## Texts that are not cut -/

/-- From a state on, all commas are in quotes or brackets. -/
def commasInside (st : ArgState) : List Char → Bool
  | [] => true
  | c :: r => (c != ',' || st.quote.isSome || 0 < st.depth) && commasInside (st.step c) r

/-- A text without outer white space that closes its quotes and brackets and has its commas within them. It may close
a bracket before it opens one. -/
structure IsFragment (a : List Char) : Prop where
  ne_nil : a ≠ []
  trimmed : trim a = a
  closed : ({} : ArgState).run a = {}
  commas : commasInside {} a = true

theorem splitArgsFrom_append (h : commasInside st a = true) (acc r : List Char) :
    splitArgsFrom st acc (a ++ r) = splitArgsFrom (st.run a) (a.reverse ++ acc) r := by
  induction a generalizing st acc with
  | nil => rfl
  | cons c a ih =>
    rw [commasInside, Bool.and_eq_true] at h
    have hc : ¬(c == ',' && st.atTop) = true := by
      rintro hc
      simp only [ArgState.atTop, Bool.and_eq_true, beq_iff_eq, Option.isNone_iff_eq_none] at hc
      obtain ⟨rfl, hquote, hdepth⟩ := hc
      simp [hquote, hdepth] at h
    rw [List.cons_append, splitArgsFrom, if_neg hc, ih h.2, List.reverse_cons, List.append_assoc]
    rfl

theorem IsFragment.isArgument (h : IsFragment a) : IsArgument a := by
  intro acc r
  rw [splitArgsFrom_append h.commas, h.closed]

/-- **A cut loses nothing and undoes joining.** Put together with commas, the arguments of a text are the text but for
white space and a comma that ends it; and a list of texts that close their quotes and brackets and have no comma
outside them is read back, whatever the white space around the commas of the list. -/
theorem splitArgs_lossless :
    (∀ s, dense s = dense (joined [] (splitArgs s)) ++ if endsInComma {} s then [','] else []) ∧
      ∀ args s, (∀ a ∈ args, IsFragment a) → Joins args s → splitArgs s = args := by
  refine ⟨fun s => dense_splitArgsFrom {} [] s, fun args s hargs hjoins => ?_⟩
  exact splitArgs_of_joins hjoins fun a ha => ⟨(hargs a ha).isArgument, (hargs a ha).trimmed, (hargs a ha).ne_nil⟩

theorem splitArgs_lossless_nested :
    let args := ["'it\\'s, [so'".toList, "f(1, [\"), \" => {2, 3}])".toList, "c d".toList]
    let s := "'it\\'s, [so' , \tf(1, [\"), \" => {2, 3}]),c d".toList
    (∀ a ∈ args, IsFragment a) ∧ Joins args s ∧ splitArgs s = args ∧
      dense (s ++ ",\n".toList) = dense (joined [] args) ++ [','] := by
  intro args s
  have hargs : ∀ a ∈ args, IsFragment a := by
    intro a ha
    simp only [args, List.mem_cons, List.not_mem_nil, or_false] at ha
    rcases ha with rfl | rfl | rfl <;> exact ⟨by decide, by decide, by decide, by decide⟩
  have hjoins : Joins args s :=
    @Joins.cons _ " , \t".toList _ _ _ (by decide) (@Joins.cons _ ",".toList _ _ _ (by decide) (.single _))
  obtain ⟨hkept, hread⟩ := splitArgs_lossless
  have hended := hkept (s ++ ",\n".toList)
  have hsplit : splitArgs (s ++ ",\n".toList) = args := by decide
  rw [hsplit] at hended
  exact ⟨hargs, hjoins, hread args s hargs hjoins, hended⟩

end FluentTables.Text
