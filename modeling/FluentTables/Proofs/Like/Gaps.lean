import FluentTables.Like
import FluentTables.Proofs.Text.Lines

/-!
# What a pattern with wildcards matches

Marks belong to the beginnings of a text: those with which the pieces so far may end (`Marked`). What a piece and a gap
do to the marks is said of these beginnings (`Marked.afterPiece`, `Marked.afterGap`), and so the marks behind all
pieces tell whether the text has the pieces one after another (`isMatch_iff`). A gap may hold anything but a line feed
(`not_isMatch_across_lines`).
-/

namespace FluentTables.Like

/-- The same letters, in either case. -/
def SameLetters (p q : List Char) : Prop := p.map Text.foldChar = q.map Text.foldChar

instance (p q : List Char) : Decidable (SameLetters p q) :=
  inferInstanceAs (Decidable (p.map Text.foldChar = q.map Text.foldChar))

theorem SameLetters.length_eq {p q : List Char} (h : SameLetters p q) : q.length = p.length := by
  have hlength := congrArg List.length h
  rw [List.length_map, List.length_map] at hlength
  exact hlength.symm

/-- A text begins with a piece if it begins with the same letters. -/
theorem beginsWith_append_iff {p q v : List Char} (h : q.length = p.length) :
    beginsWith p (q ++ v) = true ↔ SameLetters p q := by
  induction p generalizing q with
  | nil =>
    rw [List.eq_nil_of_length_eq_zero h]
    simp [beginsWith, SameLetters]
  | cons c p ih =>
    obtain ⟨d, q, rfl⟩ := List.exists_cons_of_length_eq_add_one h
    rw [List.cons_append, beginsWith, Bool.and_eq_true, beq_iff_eq, ih (by simpa using h)]
    simp [SameLetters]

/-- What follows a place. -/
theorem getElem?_suffixes (u v : List Char) : (suffixes (u ++ v))[u.length]? = some v := by
  induction u with
  | nil => cases v <;> rfl
  | cons c u ih => simpa [suffixes] using ih

theorem length_suffixes (s : List Char) : (suffixes s).length = s.length + 1 := by
  induction s with
  | nil => rfl
  | cons c s ih => simp [suffixes, ih]

/-! ## Marks -/

/-- There is a mark for each beginning of the text, and it is set for those with the property. -/
structure Marked (text : List Char) (marks : List Bool) (Ends : List Char → Prop) : Prop where
  length : marks.length = text.length + 1
  mark : ∀ u v, text = u ++ v → (marks[u.length]? = some true ↔ Ends u)

section Marks

variable {text piece u v q : List Char} {marks : List Bool} {Ends Ends' : List Char → Prop}

theorem Marked.congr (h : Marked text marks Ends) (heq : ∀ u, Ends u ↔ Ends' u) : Marked text marks Ends' where
  length := h.length
  mark u v htext := (h.mark u v htext).trans (heq u)

theorem marked_all (text : List Char) : Marked text (List.replicate (text.length + 1) true) fun _ => True where
  length := List.length_replicate
  mark u v htext := by
    have hlength : u.length < text.length + 1 := by
      rw [htext, List.length_append]
      omega
    simp [hlength]

/-- Some mark is set. -/
theorem Marked.any_iff (h : Marked text marks Ends) : marks.any id = true ↔ ∃ u v, text = u ++ v ∧ Ends u := by
  rw [List.any_eq_true]
  constructor
  · rintro ⟨m, hm, htrue⟩
    obtain ⟨i, hi, rfl⟩ := List.getElem_of_mem hm
    have hlength : (text.take i).length = i := by
      rw [List.length_take]
      have := h.length
      omega
    have hsplit : text = text.take i ++ text.drop i := (List.take_append_drop i text).symm
    refine ⟨_, _, hsplit, (h.mark _ _ hsplit).1 ?_⟩
    rw [hlength, List.getElem?_eq_getElem hi]
    exact congrArg some htrue
  · rintro ⟨u, v, htext, hends⟩
    exact ⟨true, List.mem_of_getElem? ((h.mark u v htext).2 hends), rfl⟩

/-- Before the end of a piece that begins with the text no mark is set. -/
theorem getElem?_afterPiece_of_lt {n : Nat} (hn : n < piece.length) :
    (afterPiece piece text marks)[n]? ≠ some true := by
  unfold afterPiece
  dsimp only
  rw [List.getElem?_take]
  split
  · rw [List.getElem?_append_left (by rwa [List.length_replicate]), List.getElem?_replicate, if_pos hn]
    simp
  · simp

/-- The mark behind a piece. -/
theorem getElem?_afterPiece_append (hlength : marks.length = (u ++ (q ++ v)).length + 1)
    (hq : q.length = piece.length) :
    (afterPiece piece (u ++ (q ++ v)) marks)[(u ++ q).length]? =
      marks[u.length]?.map fun m => m && beginsWith piece (q ++ v) := by
  simp only [List.length_append] at hlength
  unfold afterPiece
  dsimp only
  rw [List.getElem?_take_of_lt (by rw [List.length_append]; omega),
    List.getElem?_append_right (by rw [List.length_replicate, List.length_append]; omega), List.length_replicate,
    List.length_append, hq, Nat.add_sub_cancel, List.getElem?_zipWith, getElem?_suffixes]
  cases marks[u.length]? <;> rfl

theorem Marked.afterPiece (h : Marked text marks Ends) (piece : List Char) :
    Marked text (afterPiece piece text marks) fun w => ∃ u q, w = u ++ q ∧ Ends u ∧ SameLetters piece q where
  length := by
    have hmarks := h.length
    simp only [Like.afterPiece, List.length_take, List.length_append, List.length_replicate, List.length_zipWith,
      length_suffixes]
    omega
  mark w v htext := by
    constructor
    · intro hmark
      have hle : piece.length ≤ w.length := Nat.le_of_not_lt fun hlt => getElem?_afterPiece_of_lt hlt hmark
      obtain ⟨u, q, rfl, hq⟩ : ∃ u q, w = u ++ q ∧ q.length = piece.length :=
        ⟨_, _, (List.take_append_drop (w.length - piece.length) w).symm, by rw [List.length_drop]; omega⟩
      rw [List.append_assoc] at htext
      have hlength := h.length
      rw [htext] at hmark hlength
      rw [getElem?_afterPiece_append hlength hq, Option.map_eq_some_iff] at hmark
      obtain ⟨m, hm, htrue⟩ := hmark
      rw [Bool.and_eq_true, beginsWith_append_iff hq] at htrue
      rw [htrue.1] at hm
      exact ⟨u, q, rfl, (h.mark u _ htext).1 hm, htrue.2⟩
    · rintro ⟨u, q, rfl, hends, hsame⟩
      rw [List.append_assoc] at htext
      have hlength := h.length
      have hm := (h.mark u _ htext).2 hends
      have hbegins := (beginsWith_append_iff (v := v) hsame.length_eq).2 hsame
      rw [htext] at hlength
      rw [htext, getElem?_afterPiece_append hlength hsame.length_eq, hm, Option.map_some, hbegins]
      rfl

/-- The mark behind a gap, by induction on the beginning of the text: `carry` says that the gap may have begun
before it. -/
theorem getElem?_afterGap {carry : Bool} (hlength : marks.length = (u ++ v).length + 1) :
    (afterGap carry (u ++ v) marks)[u.length]? = some true ↔
      carry = true ∧ '\n' ∉ u ∨ ∃ w g, u = w ++ g ∧ marks[w.length]? = some true ∧ '\n' ∉ g := by
  induction u generalizing carry marks with
  | nil =>
    obtain ⟨m, ms, rfl⟩ := List.exists_cons_of_length_eq_add_one hlength
    have hfirst : (afterGap carry ([] ++ v) (m :: ms))[0]? = some (carry || m) := by cases v <;> rfl
    have hat : (∃ w g, ([] : List Char) = w ++ g ∧ (m :: ms)[w.length]? = some true ∧ '\n' ∉ g) ↔ m = true := by
      constructor
      · rintro ⟨w, g, hw, hmark, -⟩
        obtain ⟨rfl, rfl⟩ := List.nil_eq_append_iff.1 hw
        exact Option.some.inj hmark
      · rintro rfl
        exact ⟨[], [], rfl, rfl, List.not_mem_nil⟩
    rw [List.length_nil, hfirst, hat]
    simp
  | cons c u ih =>
    obtain ⟨m, ms, rfl⟩ := List.exists_cons_of_length_eq_add_one hlength
    have hrest : (afterGap carry (c :: u ++ v) (m :: ms))[(c :: u).length]? =
        (afterGap ((carry || m) && c != '\n') (u ++ v) ms)[u.length]? := rfl
    rw [hrest, ih (by simpa using hlength)]
    constructor
    · rintro (⟨hcarry, hu⟩ | ⟨w, g, rfl, hmark, hg⟩)
      · simp only [Bool.and_eq_true, Bool.or_eq_true, bne_iff_ne] at hcarry
        have hcu : '\n' ∉ c :: u := by simp [hu, Ne.symm hcarry.2]
        rcases hcarry.1 with hcarry | hm
        · exact Or.inl ⟨hcarry, hcu⟩
        · exact Or.inr ⟨[], c :: u, rfl, by rw [hm]; rfl, hcu⟩
      · exact Or.inr ⟨c :: w, g, rfl, hmark, hg⟩
    · rintro (⟨hcarry, hcu⟩ | ⟨w, g, hw, hmark, hg⟩)
      · rw [List.mem_cons, not_or] at hcu
        exact Or.inl ⟨by simp [hcarry, Ne.symm hcu.1], hcu.2⟩
      · cases w with
        | nil =>
          obtain rfl : c :: u = g := hw
          rw [List.mem_cons, not_or] at hg
          have hm : m = true := Option.some.inj hmark
          exact Or.inl ⟨by simp [hm, Ne.symm hg.1], hg.2⟩
        | cons d w =>
          obtain ⟨rfl, rfl⟩ := List.cons_eq_cons.1 hw
          exact Or.inr ⟨w, g, rfl, hmark, hg⟩

theorem length_afterGap {carry : Bool} (hlength : marks.length = text.length + 1) :
    (afterGap carry text marks).length = text.length + 1 := by
  induction text generalizing carry marks with
  | nil =>
    obtain ⟨m, ms, rfl⟩ := List.exists_cons_of_length_eq_add_one hlength
    rfl
  | cons c text ih =>
    obtain ⟨m, ms, rfl⟩ := List.exists_cons_of_length_eq_add_one hlength
    simpa [afterGap] using ih (by simpa using hlength)

theorem Marked.afterGap (h : Marked text marks Ends) :
    Marked text (afterGap false text marks) fun w => ∃ u g, w = u ++ g ∧ Ends u ∧ '\n' ∉ g where
  length := length_afterGap h.length
  mark w v htext := by
    have hlength := h.length
    rw [htext] at hlength
    rw [htext, getElem?_afterGap hlength]
    constructor
    · rintro (⟨hfalse, -⟩ | ⟨u, g, rfl, hmark, hg⟩)
      · cases hfalse
      · exact ⟨u, g, rfl, (h.mark u (g ++ v) (by rw [htext, List.append_assoc])).1 hmark, hg⟩
    · rintro ⟨u, g, rfl, hends, hg⟩
      exact Or.inr ⟨u, g, rfl, (h.mark u (g ++ v) (by rw [htext, List.append_assoc])).2 hends, hg⟩

end Marks

/-! ## Pieces of a text -/

/-- A text made of pieces in either case, with a gap before each that has characters of a class only. -/
def Follow (gap : Char → Prop) : List (List Char) → List Char → Prop
  | [], w => w = []
  | p :: ps, w => ∃ g q w', w = g ++ (q ++ w') ∧ (∀ c ∈ g, gap c) ∧ SameLetters p q ∧ Follow gap ps w'

/-- Somewhere in the text stands a piece in either case, and behind it the others with gaps before them. -/
def HasPieces (gap : Char → Prop) (text p : List Char) (ps : List (List Char)) : Prop :=
  ∃ u q w v, text = u ++ (q ++ (w ++ v)) ∧ SameLetters p q ∧ Follow gap ps w

theorem Follow.mono {gap gap' : Char → Prop} {ps : List (List Char)} {w : List Char} (h : Follow gap ps w)
    (himp : ∀ c ∈ w, gap c → gap' c) : Follow gap' ps w := by
  induction ps generalizing w with
  | nil => exact h
  | cons p ps ih =>
    obtain ⟨g, q, w', rfl, hg, hsame, hfollow⟩ := h
    refine ⟨g, q, w', rfl, fun c hc => himp c (List.mem_append_left _ hc) (hg c hc), hsame, ih hfollow fun c hc => ?_⟩
    exact himp c (List.mem_append_right _ (List.mem_append_right _ hc))

theorem HasPieces.mono {gap gap' : Char → Prop} {text p : List Char} {ps : List (List Char)}
    (h : HasPieces gap text p ps) (himp : ∀ c ∈ text, gap c → gap' c) : HasPieces gap' text p ps := by
  obtain ⟨u, q, w, v, rfl, hsame, hfollow⟩ := h
  refine ⟨u, q, w, v, rfl, hsame, hfollow.mono fun c hc => himp c ?_⟩
  exact List.mem_append_right _ (List.mem_append_right _ (List.mem_append_left _ hc))

/-- By induction on the pieces: each gap and its piece move the marks from the beginnings to longer ones. -/
theorem Marked.afterPieces {text : List Char} {marks : List Bool} {Ends : List Char → Prop}
    (h : Marked text marks Ends) (ps : List (List Char)) :
    Marked text (afterPieces text marks ps) fun x => ∃ u w, x = u ++ w ∧ Ends u ∧ Follow (· ≠ '\n') ps w := by
  induction ps generalizing marks Ends with
  | nil =>
    refine h.congr fun x => ⟨fun hx => ⟨x, [], (List.append_nil x).symm, hx, rfl⟩, ?_⟩
    rintro ⟨u, w, rfl, hends, rfl⟩
    rwa [List.append_nil]
  | cons p ps ih =>
    refine (ih (h.afterGap.afterPiece p)).congr fun x => ?_
    constructor
    · rintro ⟨-, w, rfl, ⟨-, q, rfl, ⟨u, g, rfl, hends, hg⟩, hsame⟩, hfollow⟩
      refine ⟨u, g ++ (q ++ w), by simp only [List.append_assoc], hends, g, q, w, rfl, ?_, hsame, hfollow⟩
      rintro c hc rfl
      exact hg hc
    · rintro ⟨u, -, rfl, hends, g, q, w, rfl, hg, hsame, hfollow⟩
      exact ⟨u ++ g ++ q, w, by simp only [List.append_assoc],
        ⟨u ++ g, q, rfl, ⟨u, g, rfl, hends, fun hmem => hg _ hmem rfl⟩, hsame⟩, hfollow⟩

/-- A search finds the pieces of its pattern. -/
theorem isMatch_of_splitOn {text pattern p : List Char} {ps : List (List Char)}
    (h : Text.splitOn '%' pattern = p :: ps) : isMatch text pattern = true ↔ HasPieces (· ≠ '\n') text p ps := by
  have hmarks := ((marked_all text).afterPiece p).afterPieces ps
  have hmatch : isMatch text pattern =
      (afterPieces text (afterPiece p text (List.replicate (text.length + 1) true)) ps).any id := by
    rw [isMatch, h]
  rw [hmatch, hmarks.any_iff]
  constructor
  · rintro ⟨-, v, rfl, -, w, rfl, ⟨u, q, rfl, -, hsame⟩, hfollow⟩
    exact ⟨u, q, w, v, by simp only [List.append_assoc], hsame, hfollow⟩
  · rintro ⟨u, q, w, v, rfl, hsame, hfollow⟩
    exact ⟨u ++ q ++ w, v, by simp only [List.append_assoc], u ++ q, w, rfl, ⟨u, q, rfl, trivial, hsame⟩, hfollow⟩

/-- **A pattern matches the texts that have its pieces one after another, letters in either case and no line feed in
the gaps.** In a text of one line the gaps may hold anything. -/
theorem isMatch_iff (text pattern : List Char) :
    ∃ p ps, pattern = p ++ ps.flatMap ('%' :: ·) ∧ (∀ x ∈ p :: ps, '%' ∉ x) ∧
      (isMatch text pattern = true ↔ HasPieces (· ≠ '\n') text p ps) ∧
      ('\n' ∉ text → (isMatch text pattern = true ↔ HasPieces (fun _ => True) text p ps)) := by
  obtain ⟨p, ps, hsplit, hpattern, hnone⟩ := Text.exists_pieces '%' pattern
  have hmatch : isMatch text pattern = true ↔ HasPieces (· ≠ '\n') text p ps := isMatch_of_splitOn hsplit
  refine ⟨p, ps, hpattern, hnone, hmatch, fun hline => hmatch.trans ?_⟩
  constructor
  · exact fun h => h.mono fun c _ _ => trivial
  · exact fun h => h.mono fun c hc _ heq => hline (heq ▸ hc)

/-- A line feed in a gap: the text has the pieces, and the pattern does not match it. -/
theorem not_isMatch_across_lines :
    isMatch "a\nb".toList "a%b".toList = false ∧ "a%b".toList = ['a'] ++ [['b']].flatMap ('%' :: ·) ∧
      HasPieces (fun _ => True) "a\nb".toList ['a'] [['b']] :=
  ⟨by decide, rfl, [], ['a'], ['\n', 'b'], [], rfl, rfl, ['\n'], ['b'], [], rfl, fun _ _ => trivial, rfl, rfl⟩

end FluentTables.Like
