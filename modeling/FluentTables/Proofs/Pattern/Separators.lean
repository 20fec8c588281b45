import FluentTables.Proofs.Pattern.Admission
import FluentTables.Proofs.Pattern.LongerTexts

/-!
# Characters that no match holds

A character that no part of a pattern reads parts a text. A match that begins in front of it is the match of what is
in front of it (`matchAt_append_cons`), and a search that finds none there goes on behind it
(`firstMatch_append_cons`). So matches are replaced on either side as if the other side were not there
(`replaced_append_cons`).
-/

namespace FluentTables.Pattern

variable {r : Pattern} {d : Char} {f : Match → List Char} {m : Match}

/-! ## Where a search began -/

/-- What was passed over makes no difference to what is found. -/
theorem matchAt_append_passed (p q : List Char) (x : Place) :
    r.matchAt (p ++ q) x = (r.matchAt p x).map fun m => { m with passed := m.passed ++ q } := by
  rw [matchAt, matchAt, ← run_map]
  rfl

theorem firstMatch_append_passed (p q : List Char) (b : Option Char) (s : List Char) :
    r.firstMatch (p ++ q) b s = (r.firstMatch p b s).map fun m => { m with passed := m.passed ++ q } := by
  induction s generalizing p b with
  | nil => exact matchAt_append_passed p q ⟨b, []⟩
  | cons c s ih =>
    rw [firstMatch, firstMatch, matchAt_append_passed]
    cases r.matchAt p ⟨b, c :: s⟩ with
    | some m => rfl
    | none => exact ih (c :: p) (some c)

/-! ## On two sides -/

section Sides

variable (hr : r.looksAhead = false) (hd : r.rejects d = true)

include hr hd

/-- A match ends in front of a character that the pattern does not read. -/
theorem matchAt_append_cons (passed : List Char) (b : Option Char) (a s : List Char) :
    r.matchAt passed ⟨b, a ++ d :: s⟩ = (r.matchAt passed ⟨b, a⟩).map (·.append (d :: s)) := by
  have hkept : Kept (d :: s) (r.matchAt passed ⟨b, a⟩) (r.matchAt passed ⟨b, a ++ d :: s⟩) :=
    (local_of_looksAhead hr).matchAt passed ⟨b, a⟩
  generalize r.matchAt passed ⟨b, a⟩ = o at hkept
  cases hm : r.matchAt passed ⟨b, a ++ d :: s⟩ with
  | none =>
    rw [hm] at hkept
    cases hkept
    rfl
  | some m =>
    rw [hm] at hkept
    cases hkept with
    | found m => rfl
    | beyond o hbeyond =>
      -- A match that went on behind the character would hold it.
      obtain ⟨w, y, spans, hw, -, hspells, -, hy⟩ := sound (group 0 r) hm
      cases hy
      have hnot : d ∉ w := not_mem_of_rejects hd hspells
      rcases List.append_eq_append_iff.1 hw with ⟨t, rfl, ht⟩ | ⟨t, -, ht⟩
      · cases t with
        | nil =>
          rw [List.nil_append] at ht
          exact absurd hbeyond (by simp [← ht])
        | cons e t =>
          obtain ⟨rfl, -⟩ := List.cons_eq_cons.1 ht
          exact absurd (by simp) hnot
      · rw [ht, List.length_append] at hbeyond
        omega

/-- **A search that finds nothing in front of the character goes on behind it.** -/
theorem firstMatch_append_cons (passed : List Char) (b : Option Char) (a s : List Char) :
    r.firstMatch passed b (a ++ d :: s) =
      (((r.firstMatch passed b a).map (·.append (d :: s))).or
        (r.firstMatch (d :: (a.reverse ++ passed)) (some d) s)) := by
  induction a generalizing passed b with
  | nil =>
    have hhere := matchAt_append_cons hr hd passed b [] s
    rw [List.nil_append] at hhere
    rw [List.nil_append, firstMatch.eq_2, hhere, firstMatch.eq_1]
    cases r.matchAt passed ⟨b, []⟩ <;> rfl
  | cons c a ih =>
    have hhere := matchAt_append_cons hr hd passed b (c :: a) s
    rw [List.cons_append] at hhere
    rw [List.cons_append, firstMatch, hhere, firstMatch.eq_2]
    cases r.matchAt passed ⟨b, c :: a⟩ with
    | some m => rfl
    | none =>
      rw [List.reverse_cons, List.append_assoc, List.singleton_append]
      exact ih (c :: passed) (some c)

end Sides

/-! ## Replacing -/

section Replacing

variable (hne : ∀ w, Spells r w → w ≠ [])

include hne

theorem length_lt_of_firstMatch {passed s : List Char} {b : Option Char} (h : r.firstMatch passed b s = some m) :
    m.stop.rest.length < s.length := by
  obtain ⟨p, x, rfl, hm⟩ := exists_matchAt_of_firstMatch h
  obtain ⟨w, y, spans, hw, -, hspells, -, hy⟩ := sound (group 0 r) hm
  cases hy
  have hlength := List.length_pos_iff.2 (hne w hspells)
  rw [hw]
  simp only [List.length_append]
  omega

/-- The first match is replaced, and then those behind it. -/
theorem replaced_of_firstMatch {b : Option Char} {s : List Char} (h : r.firstMatch [] b s = some m) :
    r.replaced f b s = m.passed.reverse ++ (f m ++ r.replaced f m.stop.before m.stop.rest) := by
  have hshorter := length_lt_of_firstMatch hne h
  rw [replaced, replaceFrom, searchAt_eq_firstMatch, h]
  dsimp only
  rw [if_pos hshorter, List.append_assoc, replaceFrom_eq hshorter (Nat.lt_succ_self _)]
  rfl

omit hne in
theorem replaced_of_firstMatch_none {b : Option Char} {s : List Char} (h : r.firstMatch [] b s = none) :
    r.replaced f b s = s :=
  replaced_none ((searchAt_eq_firstMatch r ⟨b, s⟩).trans h)

variable (hr : r.looksAhead = false) (hd : r.rejects d = true) (hf : ∀ m m', m.texts = m'.texts → f m = f m')

include hr hd hf

/-- **Matches are replaced on the two sides of the character on their own.** By induction on the text in front of it,
of which each match takes a part. -/
theorem replaced_append_cons (b : Option Char) (a s : List Char) :
    r.replaced f b (a ++ d :: s) = r.replaced f b a ++ d :: r.replaced f (some d) s := by
  generalize hn : a.length = n
  induction n using Nat.strongRecOn generalizing a b with
  | ind n ih =>
    subst hn
    have hfirst := firstMatch_append_cons hr hd [] b a s
    cases ha : r.firstMatch [] b a with
    | some m =>
      rw [ha] at hfirst
      have hrest := ih _ (length_lt_of_firstMatch hne ha) m.stop.before m.stop.rest rfl
      rw [replaced_of_firstMatch hne hfirst, replaced_of_firstMatch hne ha, hf _ m (m.texts_append _)]
      show m.passed.reverse ++ (f m ++ r.replaced f m.stop.before (m.stop.rest ++ d :: s)) = _
      rw [hrest, List.append_assoc, List.append_assoc]
    | none =>
      have hpassed := firstMatch_append_passed (r := r) [] (d :: a.reverse) (some d) s
      rw [ha, Option.map_none, Option.none_or, List.append_nil, ← List.nil_append (d :: a.reverse), hpassed] at hfirst
      rw [replaced_of_firstMatch_none ha]
      cases hs : r.firstMatch [] (some d) s with
      | none =>
        rw [hs] at hfirst
        rw [replaced_of_firstMatch_none hfirst, replaced_of_firstMatch_none hs]
      | some m =>
        rw [hs] at hfirst
        rw [replaced_of_firstMatch hne hfirst, replaced_of_firstMatch hne hs]
        -- What the match spells is the same; only the text passed over is longer.
        rw [hf { m with passed := m.passed ++ d :: a.reverse } m rfl]
        simp only [List.reverse_append, List.reverse_cons, List.reverse_reverse, List.append_assoc,
          List.singleton_append]
        rfl

end Replacing

end FluentTables.Pattern
