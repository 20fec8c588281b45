import FluentTables.Proofs.Pattern.Matching

/-!
# Occurrences of a pattern

A search passes over a text in which no match begins (`Skips`) and takes the first text that the pattern takes
(`searchAt_of_takes`). So the matches of a text that is written as gaps and occurrences are the occurrences, and the
gaps are what is left when these are taken out (`Reads`).
-/

namespace FluentTables.Pattern

variable {r : Pattern} {b : Option Char} {u w s rest : List Char} {t : List (Nat × List Char)}

/-- The text of a group, if it is among those of a match. -/
def textOf? (i : Nat) (texts : List (Nat × List Char)) : Option (List Char) := (texts.find? (·.1 == i)).map (·.2)

/-- The text of a group. -/
def textOf (i : Nat) (texts : List (Nat × List Char)) : List Char := (textOf? i texts).getD []

namespace Match

/-- The texts of the groups, the latest first, after that of the whole match. -/
def texts (m : Match) : List (Nat × List Char) := m.groups.map fun e => (e.1, e.2.text)

theorem group?_eq (m : Match) (i : Nat) : m.group? i = textOf? i m.texts := by
  unfold group? textOf? texts
  rw [List.find?_map, Option.map_map]
  rfl

theorem group_eq (m : Match) (i : Nat) : m.group i = textOf i m.texts := by
  rw [group, group?_eq, textOf]

end Match

/-! ## The first match -/

theorem matchAt_of_fails {x : Place} (h : Fails r x) (passed : List Char) : r.matchAt passed x = none := by
  rw [matchAt, run_group]
  exact h _ _ _

theorem matchAt_of_takes (h : Takes r b w rest t) (passed : List Char) :
    ∃ m, r.matchAt passed ⟨b, w ++ rest⟩ = some m ∧ m.passed = passed ∧ m.texts = (0, w) :: t ∧
      m.stop = ⟨past b w, rest⟩ := by
  obtain ⟨spans, hspans, hrun⟩ := h.group 0
  exact ⟨⟨passed, spans, ⟨past b w, rest⟩⟩, hrun _ [] _ _ (by simp), rfl, hspans, rfl⟩

/-- No match of the pattern begins within `u` when `s` follows it. -/
def Skips (r : Pattern) : Option Char → List Char → List Char → Prop
  | _, [], _ => True
  | b, c :: u, s => Fails r ⟨b, c :: (u ++ s)⟩ ∧ Skips r (some c) u s

theorem skips_append {v : List Char} : Skips r b (u ++ v) s ↔ Skips r b u (v ++ s) ∧ Skips r (past b u) v s := by
  induction u generalizing b with
  | nil => simp [Skips]
  | cons c u ih => simp [Skips, ih, and_assoc]

theorem skips_of_forall (h : ∀ p c v, u = p ++ c :: v → Fails r ⟨past b p, c :: (v ++ s)⟩) : Skips r b u s := by
  induction u generalizing b with
  | nil => trivial
  | cons c u ih =>
    exact ⟨h [] c u rfl, ih fun p d v hu => by simpa using h (c :: p) d v (by rw [hu]; rfl)⟩

theorem firstMatch_cons {c : Char} (h : Fails r ⟨b, c :: s⟩) (passed : List Char) :
    r.firstMatch passed b (c :: s) = r.firstMatch (c :: passed) (some c) s := by
  rw [firstMatch, matchAt_of_fails h passed]

theorem firstMatch_skip (h : Skips r b u s) (passed : List Char) :
    r.firstMatch passed b (u ++ s) = r.firstMatch (u.reverse ++ passed) (past b u) s := by
  induction u generalizing b passed with
  | nil => rfl
  | cons c u ih =>
    obtain ⟨hfails, hskips⟩ := h
    rw [List.cons_append, firstMatch_cons hfails, ih hskips]
    simp

theorem firstMatch_of_matchAt {passed : List Char} {m : Match} (h : r.matchAt passed ⟨b, s⟩ = some m) :
    r.firstMatch passed b s = some m := by
  cases s with
  | nil => exact h
  | cons c s => rw [firstMatch, h]

theorem firstMatch_of_takes (h : Takes r b w rest t) (passed : List Char) :
    ∃ m, r.firstMatch passed b (w ++ rest) = some m ∧ m.passed = passed ∧ m.texts = (0, w) :: t ∧
      m.stop = ⟨past b w, rest⟩ := by
  obtain ⟨m, hm, htexts⟩ := matchAt_of_takes h passed
  exact ⟨m, firstMatch_of_matchAt hm, htexts⟩

/-- **A search finds the first occurrence.** -/
theorem searchAt_of_takes (hskip : Skips r b u (w ++ rest)) (h : Takes r (past b u) w rest t) :
    ∃ m, r.searchAt ⟨b, u ++ (w ++ rest)⟩ = some m ∧ m.passed = u.reverse ∧ m.texts = (0, w) :: t ∧
      m.stop = ⟨past b (u ++ w), rest⟩ := by
  rw [searchAt_eq_firstMatch, past_append]
  dsimp only
  rw [firstMatch_skip hskip, List.append_nil]
  exact firstMatch_of_takes h _

theorem search_of_takes (h : Takes r none w rest t) : ∃ m, r.search (w ++ rest) = some m ∧ m.texts = (0, w) :: t := by
  obtain ⟨m, hm, -, htexts, -⟩ := searchAt_of_takes (u := []) trivial h
  exact ⟨m, hm, htexts⟩

/-- Where no match begins, none is found. -/
theorem searchAt_eq_none (hskip : Skips r b s []) (hend : Fails r ⟨past b s, []⟩) : r.searchAt ⟨b, s⟩ = none := by
  rw [searchAt_eq_firstMatch]
  have h := firstMatch_skip hskip []
  rw [List.append_nil] at h
  exact h.trans (matchAt_of_fails hend _)

/-- A text without any part that the pattern spells has no match. -/
theorem searchAt_eq_none_of_spells (h : ∀ w, w <:+: s → ¬ Spells r w) : r.searchAt ⟨b, s⟩ = none := by
  have hfails : ∀ p v b', s = p ++ v → Fails r ⟨b', v⟩ := fun p v b' hs =>
    fails_of_spells fun w rest hv => h w ⟨p, rest, by rw [hs, hv, List.append_assoc]⟩
  refine searchAt_eq_none (skips_of_forall fun p c v hs => ?_) (hfails s [] _ (by simp))
  rw [List.append_nil]
  exact hfails p (c :: v) _ hs

theorem search_eq_none_of_spells (h : ∀ w, w <:+: s → ¬ Spells r w) : r.search s = none := searchAt_eq_none_of_spells h

theorem isIn_eq_false_of_spells (h : ∀ w, w <:+: s → ¬ Spells r w) : r.isIn s = false := by
  rw [isIn, search_eq_none_of_spells h]
  rfl

/-! ## All matches -/

/-- A limit above the length of the text makes no difference. -/
theorem matchesFrom_eq {n m : Nat} {x : Place} (hn : x.rest.length < n) (hm : x.rest.length < m) :
    r.matchesFrom n x = r.matchesFrom m x := by
  induction n generalizing m x with
  | zero => cases hn
  | succ n ih =>
    cases m with
    | zero => cases hm
    | succ m =>
      rw [matchesFrom, matchesFrom]
      cases r.searchAt x with
      | none => rfl
      | some y =>
        dsimp only
        split
        · exact congrArg (y :: ·) (ih (by omega) (by omega))
        · rfl

/-- A match that was found begins at some place of the text. -/
theorem exists_matchAt_of_firstMatch {passed : List Char} {m : Match} (h : r.firstMatch passed b s = some m) :
    ∃ p x, s = p ++ x.rest ∧ r.matchAt (p.reverse ++ passed) x = some m := by
  induction s generalizing passed b with
  | nil => exact ⟨[], ⟨b, []⟩, rfl, h⟩
  | cons c s ih =>
    rw [firstMatch] at h
    cases hm : r.matchAt passed ⟨b, c :: s⟩ with
    | some m' =>
      rw [hm] at h
      cases h
      exact ⟨[], ⟨b, c :: s⟩, rfl, hm⟩
    | none =>
      rw [hm] at h
      obtain ⟨p, x, rfl, hx⟩ := ih h
      exact ⟨c :: p, x, rfl, by simpa using hx⟩

/-- A match among those of a text begins at some place of it. -/
theorem exists_matchAt_of_mem {m : Match} (h : m ∈ r.matchesIn s) :
    ∃ p q x, s = q ++ x.rest ∧ r.matchAt p x = some m := by
  have hfrom : ∀ (n : Nat) (y : Place), m ∈ r.matchesFrom n y →
      ∃ p q x, y.rest = q ++ x.rest ∧ r.matchAt p x = some m := by
    intro n
    induction n with
    | zero => intro y hy; cases hy
    | succ n ih =>
      intro y hy
      rw [matchesFrom] at hy
      cases hs : r.searchAt y with
      | none =>
        rw [hs] at hy
        cases hy
      | some m' =>
        rw [hs] at hy
        rw [searchAt_eq_firstMatch] at hs
        obtain ⟨q, x, hrest, hm⟩ := exists_matchAt_of_firstMatch hs
        rcases List.mem_cons.1 hy with rfl | hy
        · exact ⟨_, q, x, hrest, hm⟩
        · split at hy
          · obtain ⟨w, z, spans, hw, -, -, -, hz⟩ := sound (.group 0 r) hm
            cases hz
            obtain ⟨p', q', x', hrest', hm'⟩ := ih z hy
            refine ⟨p', q ++ (w ++ q'), x', ?_, hm'⟩
            rw [hrest, hw, hrest']
            simp only [List.append_assoc]
          · cases hy
  exact hfrom _ _ h

theorem mem_matchesIn_of_search {m : Match} (h : r.search s = some m) : m ∈ r.matchesIn s := by
  rw [search] at h
  rw [matchesIn, matchesFrom, h]
  exact List.mem_cons_self

/-- **The text of a group that every match has is one of its part of the pattern.** -/
theorem spells_group_of_mem {m : Match} (h : m ∈ r.matchesIn s) {i : Nat} (hi : i ≠ 0) (halways : always i r = true) :
    ∃ a ∈ kept i r, Spells a (m.group i) := by
  obtain ⟨p, -, x, -, hm⟩ := exists_matchAt_of_mem h
  obtain ⟨w, y, spans, -, -, -, ⟨hkept, hall⟩, hk⟩ := sound (.group 0 r) hm
  cases hk
  obtain ⟨e, he, rfl⟩ := hall i (by simp [always, halways])
  have hsome : (spans.find? (·.1 == e.1)).isSome = true := List.find?_isSome.2 ⟨e, he, by simp⟩
  obtain ⟨e', hfind⟩ := Option.isSome_iff_exists.1 hsome
  obtain ⟨a, ha, hspells⟩ := hkept e' (List.mem_of_find?_eq_some hfind)
  have hi' : e'.1 = e.1 := by simpa using List.find?_some hfind
  have hgroup : Match.group ⟨p, spans ++ [], y⟩ e.1 = e'.2.text := by
    rw [Match.group, Match.group?, List.append_nil, hfind]
    rfl
  rw [hgroup, ← hi']
  refine ⟨a, ?_, hspells⟩
  rw [hi', kept, if_neg (Ne.symm hi), List.nil_append] at ha
  rwa [hi']

theorem matchesIn_eq_nil_iff : r.matchesIn s = [] ↔ r.isIn s = false := by
  rw [matchesIn, matchesFrom, isIn, search]
  cases r.searchAt ⟨none, s⟩ <;> simp

/-- The texts of all matches behind `b`. -/
def matchTexts (r : Pattern) (b : Option Char) (s : List Char) : List (List (Nat × List Char)) :=
  (r.matchesFrom (s.length + 1) ⟨b, s⟩).map Match.texts

/-- What is read from the groups of the matches. -/
theorem map_matchesIn {α : Type} (r : Pattern) (s : List Char) (f : List (Nat × List Char) → α) :
    ((r.matchesIn s).map fun m => f m.texts) = (r.matchTexts none s).map f := by
  rw [matchTexts, List.map_map]
  rfl

/-- An occurrence behind a gap, and then those of the rest. -/
theorem matchTexts_take (hskip : Skips r b u (w ++ rest)) (h : Takes r (past b u) w rest t) (hne : w ≠ []) :
    r.matchTexts b (u ++ (w ++ rest)) = ((0, w) :: t) :: r.matchTexts (past b (u ++ w)) rest := by
  obtain ⟨m, hm, -, htexts, hstop⟩ := searchAt_of_takes hskip h
  have hw := List.length_pos_iff.2 hne
  have hlength : rest.length < (u ++ (w ++ rest)).length := by
    simp only [List.length_append]
    omega
  rw [matchTexts, matchesFrom, hm]
  dsimp only
  rw [hstop, if_pos hlength, List.map_cons, htexts, matchTexts, matchesFrom_eq hlength (Nat.lt_succ_self _)]

theorem matchTexts_none (h : r.searchAt ⟨b, s⟩ = none) : r.matchTexts b s = [] := by
  rw [matchTexts, matchesFrom, h]
  rfl

/-! ## Replacing -/

theorem replaceFrom_eq {f : Match → List Char} {n m : Nat} {x : Place} (hn : x.rest.length < n)
    (hm : x.rest.length < m) : r.replaceFrom f n x = r.replaceFrom f m x := by
  induction n generalizing m x with
  | zero => cases hn
  | succ n ih =>
    cases m with
    | zero => cases hm
    | succ m =>
      rw [replaceFrom, replaceFrom]
      cases r.searchAt x with
      | none => rfl
      | some y =>
        dsimp only
        split
        · exact congrArg (_ ++ ·) (ih (by omega) (by omega))
        · rfl

/-- The text behind `b` with every match replaced. -/
def replaced (r : Pattern) (f : Match → List Char) (b : Option Char) (s : List Char) : List Char :=
  r.replaceFrom f (s.length + 1) ⟨b, s⟩

/-- An occurrence behind a gap is replaced, and then those of the rest. -/
theorem replaced_take {f : Match → List Char} {out : List Char} (hskip : Skips r b u (w ++ rest))
    (h : Takes r (past b u) w rest t) (hne : w ≠ []) (hf : ∀ m : Match, m.texts = (0, w) :: t → f m = out) :
    r.replaced f b (u ++ (w ++ rest)) = u ++ (out ++ r.replaced f (past b (u ++ w)) rest) := by
  obtain ⟨m, hm, hpassed, htexts, hstop⟩ := searchAt_of_takes hskip h
  have hw := List.length_pos_iff.2 hne
  have hlength : rest.length < (u ++ (w ++ rest)).length := by
    simp only [List.length_append]
    omega
  rw [replaced, replaceFrom, hm]
  dsimp only
  rw [hstop, if_pos hlength, hpassed, List.reverse_reverse, hf m htexts, List.append_assoc, replaced,
    replaceFrom_eq hlength (Nat.lt_succ_self _)]

theorem replaced_none {f : Match → List Char} (h : r.searchAt ⟨b, s⟩ = none) : r.replaced f b s = s := by
  rw [replaced, replaceFrom, h]

/-! ## Reading a text -/

/-- The matches of the pattern in a text have these texts, and this is left when they are taken out. -/
inductive Reads (r : Pattern) : Option Char → List Char → List (List (Nat × List Char)) → List Char → Prop
  | done {b : Option Char} {u : List Char} : Skips r b u [] → Fails r ⟨past b u, []⟩ → Reads r b u [] u
  | take {b : Option Char} {u w rest v : List Char} {t : List (Nat × List Char)} {ts : List (List (Nat × List Char))} :
      Skips r b u (w ++ rest) → Takes r (past b u) w rest t → w ≠ [] → Reads r (past b (u ++ w)) rest ts v →
      Reads r b (u ++ (w ++ rest)) (((0, w) :: t) :: ts) (u ++ v)

namespace Reads

variable {v : List Char} {ts : List (List (Nat × List Char))}

/-- A text in which no match begins is left. -/
theorem skip (hskip : Skips r b u s) (h : Reads r (past b u) s ts v) : Reads r b (u ++ s) ts (u ++ v) := by
  cases h with
  | done hs hend => exact done (skips_append.2 ⟨by simpa using hskip, hs⟩) (by rwa [past_append])
  | take hs htakes hne hrest =>
    rw [← List.append_assoc u, ← List.append_assoc u]
    refine take (skips_append.2 ⟨hskip, hs⟩) (by rwa [past_append]) hne ?_
    rwa [List.append_assoc, past_append]

/-- A match at the beginning is taken out. -/
theorem cons (h : Takes r b w rest t) (hne : w ≠ []) (hrest : Reads r (past b w) rest ts v) :
    Reads r b (w ++ rest) (((0, w) :: t) :: ts) v :=
  take (u := []) trivial h hne hrest

theorem matchTexts_eq (h : Reads r b s ts v) : r.matchTexts b s = ts := by
  induction h with
  | done hskip hend => exact matchTexts_none (searchAt_eq_none hskip hend)
  | take hskip htakes hne _ ih => rw [matchTexts_take hskip htakes hne, ih]

theorem replaced_eq (h : Reads r b s ts v) : r.replaced (fun _ => []) b s = v := by
  induction h with
  | done hskip hend => exact replaced_none (searchAt_eq_none hskip hend)
  | take hskip htakes hne _ ih => rw [replaced_take hskip htakes hne fun _ _ => rfl, ih, List.nil_append]

end Reads

end FluentTables.Pattern
