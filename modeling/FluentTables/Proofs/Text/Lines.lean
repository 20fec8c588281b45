import FluentTables.Text.Lines

/-!
# Lines of texts put together

A text is its pieces with separators between them, and no piece holds a separator (`exists_pieces`).

A text and a line feed in front of another text give the lines of the one before those of the other
(`lines_append_newline`), as many as there are line feeds and one (`length_lines_append_newline`). A line feed at the
end adds at most a blank line, up to white space (`map_trim_lines_append_newline`). Lines put together with line feeds
are the lines of the text that they make (`map_trim_lines_intercalate`). The first lines of a text are a text of their
own (`firstLines`, `lines_firstLines`).
-/

namespace FluentTables.Text

/-! ## Pieces -/

/-- The pieces of two texts with a separator between them. -/
theorem splitOn_append_sep (sep : Char) (a b : List Char) :
    splitOn sep (a ++ sep :: b) = splitOn sep a ++ splitOn sep b := by
  have hfrom : ∀ acc : List Char,
      splitOnFrom sep acc (a ++ sep :: b) = splitOnFrom sep acc a ++ splitOn sep b := by
    induction a with
    | nil =>
      intro acc
      simp [splitOnFrom, splitOn]
    | cons c a ih =>
      intro acc
      rw [List.cons_append, splitOnFrom, splitOnFrom, ih, ih]
      split <;> rfl
  exact hfrom []

/-- A text is its pieces, with separators between them. -/
theorem exists_pieces (sep : Char) (s : List Char) :
    ∃ p ps, splitOn sep s = p :: ps ∧ s = p ++ ps.flatMap (sep :: ·) ∧ ∀ x ∈ p :: ps, sep ∉ x := by
  have hfrom : ∀ acc : List Char, sep ∉ acc → ∃ p ps, splitOnFrom sep acc s = p :: ps ∧
      acc.reverse ++ s = p ++ ps.flatMap (sep :: ·) ∧ ∀ x ∈ p :: ps, sep ∉ x := by
    induction s with
    | nil =>
      intro acc hacc
      exact ⟨acc.reverse, [], rfl, rfl, by simpa using hacc⟩
    | cons c s ih =>
      intro acc hacc
      rw [splitOnFrom]
      split
      · next hc =>
        obtain ⟨p, ps, hsplit, hs, hnone⟩ := ih [] List.not_mem_nil
        refine ⟨acc.reverse, p :: ps, by rw [hsplit], ?_, ?_⟩
        · rw [List.flatMap_cons, beq_iff_eq.1 hc, List.cons_append, ← hs]
          rfl
        · intro x hx
          rcases List.mem_cons.1 hx with rfl | hx
          · simpa using hacc
          · exact hnone x hx
      · next hc =>
        have hcacc : sep ∉ c :: acc := by
          rw [List.mem_cons, not_or]
          exact ⟨fun heq => hc (by simp [heq]), hacc⟩
        obtain ⟨p, ps, hsplit, hs, hnone⟩ := ih (c :: acc) hcacc
        exact ⟨p, ps, hsplit, by simpa using hs, hnone⟩
  exact hfrom [] List.not_mem_nil

/-! ## White space at the end of a line -/

theorem trim_reverse_cons {c : Char} (hc : isBlank c = true) (a : List Char) :
    trim (c :: a).reverse = trim a.reverse := by
  unfold trim trimBy
  rw [List.reverse_cons, List.dropWhile_append]
  split
  · next h =>
    rw [List.isEmpty_iff.1 h]
    simp [hc]
  · rw [List.reverse_append]
    simp [hc]

/-- A line without the return that belongs to its end. -/
def endLine : List Char → List Char
  | '\r' :: a => a.reverse
  | a => a.reverse

theorem linesFrom_newline (acc r : List Char) : linesFrom acc ('\n' :: r) = endLine acc :: lines r := rfl

theorem linesFrom_cons_ne {c : Char} (hc : c ≠ '\n') (acc r : List Char) :
    linesFrom acc (c :: r) = linesFrom (c :: acc) r := by
  unfold linesFrom
  rw [if_neg (by simpa using hc)]
  cases r <;> rfl

theorem trim_endLine (acc : List Char) : trim (endLine acc) = trim acc.reverse := by
  unfold endLine
  split
  · exact (trim_reverse_cons (by decide) _).symm
  · rfl

/-! ## Two texts -/

theorem linesFrom_append_newline (acc a b : List Char) :
    linesFrom acc (a ++ '\n' :: b) = linesFrom acc (a ++ ['\n']) ++ lines b := by
  induction a generalizing acc with
  | nil => rfl
  | cons c a ih =>
    by_cases hc : c = '\n'
    · subst hc
      simp only [List.cons_append, linesFrom_newline, lines, ih]
    · simp only [List.cons_append, linesFrom_cons_ne hc, ih]

/-- The lines of two texts with a line feed between them. -/
theorem lines_append_newline (a b : List Char) : lines (a ++ '\n' :: b) = lines (a ++ ['\n']) ++ lines b :=
  linesFrom_append_newline [] a b

theorem length_linesFrom_append_newline (acc a : List Char) :
    (linesFrom acc (a ++ ['\n'])).length = a.count '\n' + 1 := by
  induction a generalizing acc with
  | nil => rfl
  | cons c a ih =>
    by_cases hc : c = '\n'
    · subst hc
      simp only [List.cons_append, linesFrom_newline, lines, List.length_cons, ih, List.count_cons_self]
    · rw [List.cons_append, linesFrom_cons_ne hc, ih, List.count_cons_of_ne hc]

/-- A text that ends with a line feed has a line for each of its line feeds. -/
theorem length_lines_append_newline (a : List Char) : (lines (a ++ ['\n'])).length = a.count '\n' + 1 :=
  length_linesFrom_append_newline [] a

theorem map_trim_linesFrom_append_newline (acc a : List Char) :
    (linesFrom acc (a ++ ['\n'])).map trim = (linesFrom acc a).map trim ∨
      (linesFrom acc (a ++ ['\n'])).map trim = (linesFrom acc a).map trim ++ [[]] := by
  induction a generalizing acc with
  | nil =>
    cases acc with
    | nil => exact Or.inr rfl
    | cons c acc =>
      refine Or.inl ?_
      rw [List.nil_append, linesFrom_newline, List.map_cons, trim_endLine]
      rfl
  | cons c a ih =>
    by_cases hc : c = '\n'
    · subst hc
      simp only [List.cons_append, linesFrom_newline, List.map_cons]
      rcases ih [] with h | h
      · exact Or.inl (by rw [lines, h, lines])
      · exact Or.inr (by rw [lines, h, lines])
    · simp only [List.cons_append, linesFrom_cons_ne hc]
      exact ih (c :: acc)

/-- A line feed at the end ends the last line or adds an empty one. -/
theorem map_trim_lines_append_newline (a : List Char) :
    (lines (a ++ ['\n'])).map trim = (lines a).map trim ∨
      (lines (a ++ ['\n'])).map trim = (lines a).map trim ++ [[]] :=
  map_trim_linesFrom_append_newline [] a

/-! ## Many lines -/

theorem linesFrom_append_newline_of_not_mem {x : List Char} (hx : '\n' ∉ x) (acc : List Char) :
    linesFrom acc (x ++ ['\n']) = [endLine (x.reverse ++ acc)] := by
  induction x generalizing acc with
  | nil => rfl
  | cons c x ih =>
    simp only [List.mem_cons, not_or] at hx
    rw [List.cons_append, linesFrom_cons_ne (Ne.symm hx.1), ih hx.2]
    simp

theorem map_trim_lines_newline {x : List Char} (hx : '\n' ∉ x) : (lines (x ++ ['\n'])).map trim = [trim x] := by
  rw [lines, linesFrom_append_newline_of_not_mem hx, List.append_nil, List.map_singleton, trim_endLine,
    List.reverse_reverse]

/-- Lines that are each ended are the lines of the text that they make, up to white space. -/
theorem map_trim_lines_flatMap {xs : List (List Char)} (h : ∀ x ∈ xs, '\n' ∉ x) :
    (lines (xs.flatMap fun x => x ++ ['\n'])).map trim = xs.map trim := by
  induction xs with
  | nil => rfl
  | cons x xs ih =>
    have hrest := ih fun y hy => h y (List.mem_cons_of_mem x hy)
    rw [List.flatMap_cons, List.append_assoc, List.singleton_append, lines_append_newline, List.map_append,
      map_trim_lines_newline (h x List.mem_cons_self), hrest]
    rfl

/-- The lines of a text made of lines are these, up to white space, if the last one is ended too. -/
theorem map_trim_lines_intercalate {xs : List (List Char)} (hne : xs ≠ []) (h : ∀ x ∈ xs, '\n' ∉ x) :
    (lines (List.intercalate ['\n'] xs ++ ['\n'])).map trim = xs.map trim := by
  induction xs with
  | nil => exact absurd rfl hne
  | cons x r ih =>
    have hfirst := map_trim_lines_newline (h x List.mem_cons_self)
    cases r with
    | nil => rw [List.intercalate_singleton, hfirst, List.map_singleton]
    | cons y r =>
      have hrest := ih (by simp) fun z hz => h z (List.mem_cons_of_mem _ hz)
      rw [List.intercalate_cons_cons, List.append_assoc, List.append_assoc, List.singleton_append,
        lines_append_newline, List.map_append, hfirst, hrest]
      rfl

/-! ## The first lines of a text -/

/-- The first lines of a text, with their ends. -/
def firstLines : Nat → List Char → List Char
  | 0, _ => []
  | _ + 1, [] => []
  | n + 1, c :: r => c :: firstLines (if c = '\n' then n else n + 1) r

theorem linesFrom_firstLines (n : Nat) (acc s : List Char) :
    linesFrom acc (firstLines (n + 1) s) = (linesFrom acc s).take (n + 1) := by
  induction s generalizing n acc with
  | nil =>
    rw [firstLines, linesFrom]
    split
    · rfl
    · rw [List.take_of_length_le (by simp)]
  | cons c r ih =>
    rw [firstLines]
    by_cases hc : c = '\n'
    · subst hc
      rw [if_pos rfl, linesFrom_newline, linesFrom_newline, List.take_succ_cons]
      cases n with
      | zero => simp [firstLines, lines, linesFrom]
      | succ n => rw [lines, ih, lines]
    · rw [if_neg hc, linesFrom_cons_ne hc, linesFrom_cons_ne hc, ih]

/-- The lines of the first lines of a text are its first lines. -/
theorem lines_firstLines (n : Nat) (s : List Char) : lines (firstLines n s) = (lines s).take n := by
  cases n with
  | zero => simp [firstLines, lines, linesFrom]
  | succ n => exact linesFrom_firstLines n [] s

end FluentTables.Text
