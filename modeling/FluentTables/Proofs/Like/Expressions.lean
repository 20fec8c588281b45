import FluentTables.Pattern.Expression
import FluentTables.Proofs.Like.Gaps
import FluentTables.Proofs.Pattern.Admission

/-!
# Patterns with wildcards as expressions

The expression of a pattern with wildcards can always be read, each percent sign as any run of characters and every
other character as itself (`read?_ofWildcards`): the reader keeps to a text that is written with backslashes
(`readFrom_escape`). A text matches such a pattern if its expression is in it (`isIn?_ofWildcards`). So a pattern
without wildcards is a text that is searched for (`isMatch_of_plain`).
-/

namespace FluentTables.Expression

open Pattern (Spells Admits)

/-! ## Reading what was escaped -/

/-- A character that is itself. -/
def Part.ofChar (c : Char) : Part := ⟨.literal c, false⟩

/-- The part that a character of a pattern with percent signs stands for. -/
def Part.ofWildcard (c : Char) : Part := if c = '%' then ⟨.any, true⟩ else .ofChar c

theorem isMeta_of_isOperator {c : Char} (h : isOperator c = true) : isMeta c = true := by
  have hall : ∀ d ∈ "\\.+*?()|[\x7b^$".toList, isMeta d = true := by decide
  exact hall c (by simpa [isOperator] using h)

/-- A character without a meaning of its own is read as itself. -/
theorem readFrom_cons {c : Char} (h : isMeta c = false) (parts : List Part) (s : List Char) :
    readFrom parts (c :: s) = readFrom (.ofChar c :: parts) s := by
  have hne : ∀ {d : Char}, isMeta d = true → c ≠ d := by
    rintro d hd rfl
    rw [h] at hd
    cases hd
  have hoperator : isOperator c = false := Bool.eq_false_iff.2 fun ho => hne (isMeta_of_isOperator ho) rfl
  rw [readFrom.eq_def parts (c :: s)]
  -- a backslash, a dot and a star have arms of their own
  split
  · next heq => cases heq
  · next heq => exact absurd (List.cons_eq_cons.1 heq).1 (hne (by decide))
  · next heq => exact absurd (List.cons_eq_cons.1 heq).1 (hne (by decide))
  · next heq => exact absurd (List.cons_eq_cons.1 heq).1 (hne (by decide))
  · next heq =>
    obtain ⟨rfl, rfl⟩ := List.cons_eq_cons.1 heq
    rw [if_neg (by simp [hoperator])]
    rfl

/-- What was escaped is read as itself, whatever stands around it. -/
theorem readFrom_escape (parts : List Part) (s rest : List Char) :
    readFrom parts (escape s ++ rest) = readFrom ((s.map Part.ofChar).reverse ++ parts) rest := by
  induction s generalizing parts with
  | nil => rfl
  | cons c s ih =>
    have hfirst : ∀ r,
        readFrom parts ((if isMeta c then ['\\', c] else [c]) ++ r) = readFrom (.ofChar c :: parts) r := by
      intro r
      split
      · next hc => exact if_pos hc
      · next hc => exact readFrom_cons (Bool.eq_false_iff.2 hc) parts r
    have hcons : escape (c :: s) = (if isMeta c then ['\\', c] else [c]) ++ escape s := List.flatMap_cons
    rw [hcons, List.append_assoc, hfirst, ih, List.map_cons, List.reverse_cons, List.append_assoc]
    rfl

theorem map_ofWildcard {s : List Char} (h : '%' ∉ s) : s.map Part.ofWildcard = s.map Part.ofChar :=
  List.map_congr_left fun _ hc => if_neg (ne_of_mem_of_not_mem hc h)

theorem map_ofWildcard_append {p : List Char} (h : '%' ∉ p) (s : List Char) :
    (p ++ '%' :: s).map Part.ofWildcard = p.map Part.ofChar ++ ⟨.any, true⟩ :: s.map Part.ofWildcard := by
  rw [List.map_append, map_ofWildcard h]
  rfl

/-- By induction on the pieces; each is read as itself, and what joins it to the next as a run. -/
theorem readFrom_pieces (parts : List Part) {p : List Char} {ps : List (List Char)} (h : ∀ x ∈ p :: ps, '%' ∉ x) :
    readFrom parts (List.intercalate ['.', '*'] ((p :: ps).map escape)) =
      some (parts.reverse ++ (p ++ ps.flatMap ('%' :: ·)).map Part.ofWildcard) := by
  induction ps generalizing p parts with
  | nil =>
    have hread := readFrom_escape parts p []
    rw [List.append_nil] at hread
    rw [List.map_singleton, List.intercalate_singleton, hread, readFrom, List.flatMap_nil, List.append_nil,
      map_ofWildcard (h p List.mem_cons_self)]
    simp
  | cons p' ps ih =>
    have hnone : ∀ x ∈ p' :: ps, '%' ∉ x := fun x hx => h x (List.mem_cons_of_mem p hx)
    have hrest := ih (⟨.any, true⟩ :: ((p.map Part.ofChar).reverse ++ parts)) hnone
    rw [List.flatMap_cons, List.cons_append, map_ofWildcard_append (h p List.mem_cons_self), List.map_cons,
      List.map_cons, List.intercalate_cons_cons, List.append_assoc, readFrom_escape]
    refine hrest.trans ?_
    simp

/-- **The expression of a pattern with wildcards can be read, and nothing but a percent sign has a meaning.** -/
theorem read?_ofWildcards (pattern : List Char) : read? (ofWildcards pattern) = some (pattern.map Part.ofWildcard) := by
  obtain ⟨p, ps, hsplit, hpattern, hnone⟩ := Text.exists_pieces '%' pattern
  rw [read?, ofWildcards, hsplit, readFrom_pieces [] hnone, ← hpattern]
  rfl

/-! ## Searching -/

/-- What a part spells it admits everywhere. -/
theorem Part.admits_of_spells {e : Part} {b : Option Char} {w rest : List Char} (h : Spells e.pattern w) :
    Admits e.pattern b w rest := by
  unfold Part.pattern at h ⊢
  split at h
  · next hrepeated => rw [if_pos hrepeated]; exact Pattern.admits_span true h
  · next hrepeated =>
    obtain ⟨c, hc, rfl⟩ := h
    rw [if_neg hrepeated]
    exact (Pattern.takes_one hc).admits

theorem admits_of_spells {parts : List Part} {b : Option Char} {w rest : List Char} (h : Spells (pattern parts) w) :
    Admits (pattern parts) b w rest := by
  induction parts generalizing b w with
  | nil =>
    obtain rfl : w = [] := h
    exact Pattern.admits_chain_nil
  | cons e parts ih =>
    obtain ⟨u, v, rfl, hu, hv⟩ := h
    exact (Part.admits_of_spells hu).chain_cons (ih hv)

/-- An expression is in a text if it spells a part of it. -/
theorem isIn_iff {parts : List Part} {s : List Char} :
    (pattern parts).isIn s = true ↔ ∃ u w v, s = u ++ (w ++ v) ∧ Spells (pattern parts) w := by
  constructor
  · intro hin
    refine Classical.byContradiction fun hno => ?_
    have hfalse : (pattern parts).isIn s = false := by
      refine Pattern.isIn_eq_false_of_spells fun w hw hspells => hno ?_
      obtain ⟨u, v, rfl⟩ := hw
      exact ⟨u, w, v, by rw [List.append_assoc], hspells⟩
    rw [hfalse] at hin
    cases hin
  · rintro ⟨u, w, v, rfl, hspells⟩
    exact Pattern.isIn_of_admits (admits_of_spells hspells)

theorem spells_ofChar {p : List Char} {parts : List Part} {w : List Char} :
    Spells (pattern (p.map Part.ofChar ++ parts)) w ↔
      ∃ q v, w = q ++ v ∧ Like.SameLetters p q ∧ Spells (pattern parts) v := by
  induction p generalizing w with
  | nil =>
    constructor
    · exact fun h => ⟨[], w, rfl, rfl, h⟩
    · rintro ⟨q, v, rfl, hsame, h⟩
      rwa [List.eq_nil_of_length_eq_zero hsame.length_eq]
  | cons c p ih =>
    constructor
    · rintro ⟨-, v, rfl, ⟨d, hd, rfl⟩, hv⟩
      obtain ⟨q, v, rfl, hsame, hspells⟩ := ih.1 hv
      exact ⟨d :: q, v, rfl, List.cons_eq_cons.2 ⟨(beq_iff_eq.1 hd).symm, hsame⟩, hspells⟩
    · rintro ⟨q, v, rfl, hsame, hspells⟩
      obtain ⟨d, q, rfl⟩ := List.exists_cons_of_length_eq_add_one hsame.length_eq
      obtain ⟨hd, hq⟩ := List.cons_eq_cons.1 hsame
      exact ⟨[d], q ++ v, rfl, ⟨d, beq_iff_eq.2 hd.symm, rfl⟩, ih.2 ⟨q, v, rfl, hq, hspells⟩⟩

/-- A pattern with percent signs spells its pieces with gaps before them, but for the first one. -/
theorem spells_pieces {p : List Char} {ps : List (List Char)} {w : List Char} (h : ∀ x ∈ p :: ps, '%' ∉ x) :
    Spells (pattern ((p ++ ps.flatMap ('%' :: ·)).map Part.ofWildcard)) w ↔
      ∃ q v, w = q ++ v ∧ Like.SameLetters p q ∧ Like.Follow (· ≠ '\n') ps v := by
  induction ps generalizing p w with
  | nil =>
    rw [List.flatMap_nil, List.append_nil, map_ofWildcard (h p List.mem_cons_self),
      ← List.append_nil (p.map Part.ofChar), spells_ofChar]
    rfl
  | cons p' ps ih =>
    have hrest := fun v => @ih p' v fun x hx => h x (List.mem_cons_of_mem p hx)
    rw [List.flatMap_cons, List.cons_append, map_ofWildcard_append (h p List.mem_cons_self), spells_ofChar]
    constructor
    · rintro ⟨q, -, rfl, hsame, g, v, rfl, hg, hv⟩
      obtain ⟨q', v, rfl, hsame', hfollow⟩ := (hrest _).1 hv
      refine ⟨q, g ++ (q' ++ v), rfl, hsame, g, q', v, rfl, fun c hc => ?_, hsame', hfollow⟩
      exact bne_iff_ne.1 (hg c hc)
    · rintro ⟨q, -, rfl, hsame, g, q', v, rfl, hg, hsame', hfollow⟩
      refine ⟨q, g ++ (q' ++ v), rfl, hsame, g, q' ++ v, rfl, fun c hc => ?_, (hrest _).2 ⟨q', v, rfl, hsame', hfollow⟩⟩
      exact bne_iff_ne.2 (hg c hc)

/-- **Matching with wildcards is a search with the expression of the pattern.** -/
theorem isIn?_ofWildcards (text pattern : List Char) :
    isIn? (ofWildcards pattern) text = some (Like.isMatch text pattern) := by
  obtain ⟨p, ps, hsplit, hpattern, hnone⟩ := Text.exists_pieces '%' pattern
  rw [isIn?, read?_ofWildcards, Option.map_some, Option.some.injEq, Bool.eq_iff_iff, isIn_iff,
    Like.isMatch_of_splitOn hsplit, hpattern]
  constructor
  · rintro ⟨u, w, v, rfl, hspells⟩
    obtain ⟨q, w, rfl, hsame, hfollow⟩ := (spells_pieces hnone).1 hspells
    exact ⟨u, q, w, v, by simp only [List.append_assoc], hsame, hfollow⟩
  · rintro ⟨u, q, w, v, rfl, hsame, hfollow⟩
    exact ⟨u, q ++ w, v, by simp only [List.append_assoc], (spells_pieces hnone).2 ⟨q, w, rfl, hsame, hfollow⟩⟩

end FluentTables.Expression

namespace FluentTables.Like

open Expression

/-- **A pattern without a percent sign is a text to be found.** Its expression is the text escaped. That is always read,
and as nothing but the characters of the text, whatever they are; what is searched for are these, letters in either
case. -/
theorem isMatch_of_plain {pattern : List Char} (h : '%' ∉ pattern) (text : List Char) :
    ofWildcards pattern = escape pattern ∧ read? (escape pattern) = some (pattern.map fun c => ⟨.literal c, false⟩) ∧
      isIn? (escape pattern) text = some (isMatch text pattern) ∧
      (isMatch text pattern = true ↔ ∃ part, part <:+: text ∧ SameLetters pattern part) := by
  have hsplit : Text.splitOn '%' pattern = [pattern] := Text.splitOn_eq_singleton h
  have hescape : ofWildcards pattern = escape pattern := by
    rw [ofWildcards, hsplit, List.map_singleton, List.intercalate_singleton]
  refine ⟨hescape, ?_, ?_, ?_⟩
  · rw [← hescape, read?_ofWildcards, map_ofWildcard h]
    rfl
  · rw [← hescape, isIn?_ofWildcards]
  · rw [isMatch_of_splitOn hsplit]
    constructor
    · rintro ⟨u, q, w, v, rfl, hsame, rfl⟩
      exact ⟨q, ⟨u, v, by simp⟩, hsame⟩
    · rintro ⟨q, ⟨u, v, rfl⟩, hsame⟩
      exact ⟨u, q, [], v, by simp, hsame, rfl⟩

/-- A dot and a bracket are themselves: the text with them is found, and one with other characters is not. -/
theorem isMatch_of_plain_dot :
    '%' ∉ ['a', '.', '('] ∧
      read? ['a', '\\', '.', '\\', '('] = some (['a', '.', '('].map fun c => ⟨.literal c, false⟩) ∧
      isMatch ['x', 'A', '.', '('] ['a', '.', '('] = true ∧ isMatch ['x', 'A', 'b', '('] ['a', '.', '('] = false :=
  have hplain : '%' ∉ ['a', '.', '('] := by decide
  have hdot := isMatch_of_plain hplain ['x', 'A', '.', '(']
  ⟨hplain, hdot.2.1, hdot.2.2.2.2 ⟨['A', '.', '('], ⟨['x'], [], rfl⟩, by decide⟩, by decide⟩

end FluentTables.Like
