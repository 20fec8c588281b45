import FluentTables.Proofs.Pattern.Occurrences

/-!
# Where a match lies

A match that a search finds takes a part of the text, and a group that no later part of the pattern writes again holds
its share of that part (`group_of_matchAt`, `group_of_search`). So a text can be compared with what replacing its
matches makes of it, one match after another (`rel_replaced`).
-/

namespace FluentTables.Pattern

variable {r a : Pattern} {ps qs : List Pattern} {i : Nat} {passed s : List Char} {x : Place} {m : Match}

/-! ## One match -/

theorem passed_of_matchAt (h : r.matchAt passed x = some m) : m.passed = passed := by
  obtain ⟨w, y, spans, -, -, -, -, hk⟩ := sound (group 0 r) h
  cases hk
  rfl

/-- **A group lies behind what is read before it and in front of what is read after it**, if the pattern does not
write it again. -/
theorem group_of_matchAt (ps : List Pattern) (hi : i ≠ 0) (hqs : kept i (chain qs) = [])
    (h : (chain (ps ++ group i a :: qs)).matchAt passed x = some m) :
    ∃ w u v, x.rest = w ++ (u ++ (v ++ m.stop.rest)) ∧ Spells (chain ps) w ∧ Spells a u ∧ Spells (chain qs) v ∧
      m.group i = u := by
  rw [matchAt, run_group, run_chain_append] at h
  obtain ⟨w, y, s, hw, -, hps, -, h⟩ := sound (chain ps) h
  rw [run_chain_cons, run_group] at h
  obtain ⟨u, z, t, hu, -, hau, -, h⟩ := sound a h
  obtain ⟨v, z', t', hv, -, hqsv, ⟨hkept, -⟩, h⟩ := sound (chain qs) h
  cases h
  refine ⟨w, u, v, by rw [hw, hu, hv], hps, hau, hqsv, ?_⟩
  -- Of the groups written later none has the number.
  have hlater : t'.find? (·.1 == i) = none := by
    rw [List.find?_eq_none]
    intro e he hei
    obtain ⟨d, hd, -⟩ := hkept e he
    rw [beq_iff_eq.1 hei, hqs] at hd
    cases hd
  have hzero : ((0 : Nat) == i) = false := by simpa using Ne.symm hi
  simp [Match.group, Match.group?, hlater, hzero, Span.text, hu]

/-- A group at the beginning of a pattern lies at the beginning of the match. -/
theorem group_of_search (hi : i ≠ 0) (hqs : kept i (chain qs) = [])
    (h : (chain (group i a :: qs)).search s = some m) :
    ∃ p u v, s = p ++ (u ++ (v ++ m.stop.rest)) ∧ Spells a u ∧ Spells (chain qs) v ∧ m.group i = u := by
  rw [search, searchAt_eq_firstMatch] at h
  obtain ⟨p, x, hs, hm⟩ := exists_matchAt_of_firstMatch h
  obtain ⟨w, u, v, hx, hw, hu, hv, hgroup⟩ := group_of_matchAt [] hi hqs hm
  obtain rfl : w = [] := hw
  exact ⟨p, u, v, by rw [← List.nil_append u, List.append_assoc, ← hx]; exact hs, hu, hv, hgroup⟩

/-- A match among those of a text takes a part of it. -/
theorem exists_spells_of_mem_matchesIn (h : m ∈ r.matchesIn s) : ∃ p w, s = p ++ (w ++ m.stop.rest) ∧ Spells r w := by
  obtain ⟨_, p, x, hs, hm⟩ := exists_matchAt_of_mem h
  obtain ⟨w, y, spans, hx, -, hw, -, hk⟩ := sound (group 0 r) hm
  cases hk
  exact ⟨p, w, hx ▸ hs, hw⟩

/-! ## Replacing -/

/-- **What relates a text to itself and passes over a match and what is put in its place** relates a text to what
replacing makes of it. -/
theorem rel_replaced {R : List Char → List Char → Prop} {f : Match → List Char} (hsame : ∀ s, R s s)
    (hmatch : ∀ {passed x m} (p t : List Char), r.matchAt passed x = some m → R m.stop.rest t →
      R (p ++ x.rest) (p ++ (f m ++ t))) (b : Option Char) (s : List Char) : R s (r.replaced f b s) := by
  have hfrom : ∀ (n : Nat) (x : Place), R x.rest (r.replaceFrom f n x) := by
    intro n
    induction n with
    | zero => exact fun x => hsame _
    | succ n ih =>
      intro x
      rw [replaceFrom]
      cases hs : r.searchAt x with
      | none => exact hsame _
      | some m =>
        rw [searchAt_eq_firstMatch] at hs
        obtain ⟨p, y, hx, hm⟩ := exists_matchAt_of_firstMatch hs
        dsimp only
        have hrest : R m.stop.rest
            (if m.stop.rest.length < x.rest.length then replaceFrom r f n m.stop else m.stop.rest) := by
          split
          · exact ih m.stop
          · exact hsame _
        rw [passed_of_matchAt hm, List.append_nil, List.reverse_reverse, List.append_assoc, hx]
        rw [hx] at hrest
        exact hmatch p _ hm hrest
  exact hfrom _ ⟨b, s⟩

end FluentTables.Pattern
