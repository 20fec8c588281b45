import FluentTables.Proofs.Pattern.Occurrences

/-!
# Texts that a pattern admits

A pattern that may read a text in one of several ways matches if any one of them leads on (`Admits`); which is
preferred makes no difference to whether it occurs in a text (`isIn_of_admits`). A pattern that is bound to the start
of a text is tried there only (`isIn_eq_false_of_fails`).
-/

namespace FluentTables.Pattern

variable {r a c : Pattern} {p : Char → Bool} {b : Option Char} {u w w' s rest : List Char}
  {t : List (Nat × List Char)}

/-- Behind `b` and in front of `rest` the pattern can read `w`: it matches if what comes after does so there, whatever
the groups. -/
def Admits (r : Pattern) (b : Option Char) (w rest : List Char) : Prop :=
  ∀ (β : Type) (g : Groups) (k : Place → Groups → Option β), (∀ h, (k ⟨past b w, rest⟩ h).isSome = true) →
    (run r ⟨b, w ++ rest⟩ g k).isSome = true

theorem Takes.admits (h : Takes r b w rest t) : Admits r b w rest := by
  obtain ⟨spans, -, hrun⟩ := h
  intro β g k hk
  obtain ⟨v, hv⟩ := Option.isSome_iff_exists.1 (hk (spans ++ g))
  rw [hrun β g k v hv]
  rfl

theorem admits_empty : Admits empty b [] rest := takes_empty.admits

theorem Admits.seq (h : Admits a b w (w' ++ rest)) (h' : Admits c (past b w) w' rest) :
    Admits (seq a c) b (w ++ w') rest := by
  intro β g k hk
  rw [List.append_assoc, run_seq]
  apply h
  intro g'
  apply h'
  intro g''
  have hplace := hk g''
  rwa [past_append] at hplace

theorem admits_chain_nil : Admits (chain []) b [] rest := admits_empty

theorem Admits.chain_cons {ps : List Pattern} (h : Admits a b w (w' ++ rest))
    (h' : Admits (chain ps) (past b w) w' rest) : Admits (chain (a :: ps)) b (w ++ w') rest := h.seq h'

theorem Admits.alt_left (h : Admits a b w rest) (c : Pattern) : Admits (alt a c) b w rest := by
  intro β g k hk
  rw [run_alt, isSome_orElse, h β g k hk, Bool.true_or]

theorem Admits.alt_right (h : Admits c b w rest) (a : Pattern) : Admits (alt a c) b w rest := by
  intro β g k hk
  rw [run_alt, isSome_orElse, h β g k hk, Bool.or_true]

theorem admits_firstOf {ps : List Pattern} (ha : a ∈ ps) (h : Admits a b w rest) : Admits (firstOf ps) b w rest := by
  induction ps with
  | nil => cases ha
  | cons p ps ih =>
    cases ps with
    | nil =>
      obtain rfl : a = p := List.mem_singleton.1 ha
      exact h
    | cons q ps =>
      rcases List.mem_cons.1 ha with rfl | ha
      · exact h.alt_left _
      · exact (ih ha).alt_right p

theorem Admits.group (h : Admits a b w rest) (i : Nat) : Admits (group i a) b w rest := by
  intro β g k hk
  rw [run_group]
  exact h β g _ fun groups => hk _

theorem Admits.opt (h : Admits a b w rest) : Admits (opt a) b w rest := h.alt_left empty

/-- What may be missing is missing. -/
theorem admits_opt_nil (a : Pattern) : Admits (Pattern.opt a) b [] rest := admits_empty.alt_right a

theorem mem_stops (hw : ∀ d ∈ w, p d = true) : (⟨past b w, rest⟩ : Place) ∈ Place.stops p ⟨b, w ++ rest⟩ := by
  induction w generalizing b with
  | nil =>
    cases rest with
    | nil => simp [Place.stops_nil]
    | cons d rest =>
      cases hd : p d with
      | true => simp [Place.stops_cons_pos hd]
      | false => simp [Place.stops_cons_neg hd]
  | cons d w ih =>
    have hd : p d = true := hw d List.mem_cons_self
    rw [List.cons_append, Place.stops_cons_pos hd, past_cons]
    exact List.mem_append_left _ (ih fun e he => hw e (List.mem_cons_of_mem d he))

/-- A walk over characters of a class may stop anywhere. -/
theorem admits_span (greedy : Bool) (hw : ∀ d ∈ w, p d = true) : Admits (span greedy p) b w rest := by
  intro β g k hk
  have hmem : (⟨past b w, rest⟩ : Place) ∈
      (if greedy then Place.stops p ⟨b, w ++ rest⟩ else (Place.stops p ⟨b, w ++ rest⟩).reverse) := by
    split
    · exact mem_stops hw
    · exact List.mem_reverse.2 (mem_stops hw)
  rw [run, List.isSome_findSome?]
  exact List.any_eq_true.2 ⟨_, hmem, hk g⟩

theorem admits_some1 (hne : w ≠ []) (hw : ∀ d ∈ w, p d = true) : Admits (some1 p) b w rest := by
  intro β g k hk
  obtain ⟨d, w, rfl⟩ := List.exists_cons_of_ne_nil hne
  have hmem : (⟨past b (d :: w), rest⟩ : Place) ∈ Place.stops p ⟨some d, w ++ rest⟩ := by
    rw [past_cons]
    exact mem_stops fun e he => hw e (List.mem_cons_of_mem d he)
  rw [List.cons_append, run_some1_cons, if_pos (hw d List.mem_cons_self), List.isSome_findSome?]
  exact List.any_eq_true.2 ⟨_, hmem, hk g⟩

/-! ## Occurrences -/

theorem isSome_matchAt_of_admits (h : Admits r b w rest) (passed : List Char) :
    (r.matchAt passed ⟨b, w ++ rest⟩).isSome = true := by
  rw [matchAt, run_group]
  exact h _ _ _ fun _ => rfl

/-- A search finds the match at the beginning if there is one. -/
theorem search_of_admits (h : Admits r none w rest) :
    ∃ m, r.search (w ++ rest) = some m ∧ r.matchAt [] ⟨none, w ++ rest⟩ = some m := by
  obtain ⟨m, hm⟩ := Option.isSome_iff_exists.1 (isSome_matchAt_of_admits h [])
  refine ⟨m, ?_, hm⟩
  rw [search, searchAt_eq_firstMatch]
  exact firstMatch_of_matchAt hm

/-- **A pattern occurs in a text if it admits a part of it.** -/
theorem isIn_of_admits (h : Admits r (past none u) w rest) : r.isIn (u ++ (w ++ rest)) = true := by
  have hfirst : ∀ (u passed : List Char) (b : Option Char), Admits r (past b u) w rest →
      (r.firstMatch passed b (u ++ (w ++ rest))).isSome = true := by
    intro u
    induction u with
    | nil =>
      intro passed b h
      obtain ⟨m, hm⟩ := Option.isSome_iff_exists.1 (isSome_matchAt_of_admits (b := b) h passed)
      rw [List.nil_append, firstMatch_of_matchAt hm]
      rfl
    | cons c u ih =>
      intro passed b h
      rw [List.cons_append, firstMatch]
      cases r.matchAt passed ⟨b, c :: (u ++ (w ++ rest))⟩ with
      | some m => rfl
      | none => exact ih _ _ (by simpa using h)
  rw [isIn, search, searchAt_eq_firstMatch]
  exact hfirst u [] none h

/-- Patterns that are bound to the start of a text are tried there. -/
theorem isIn_start_of_admits {ps : List Pattern} (ha : a ∈ ps) (h : Admits a none w rest) :
    (chain [textStart, firstOf ps]).isIn (w ++ rest) = true := by
  have hstart : Admits (chain [textStart, firstOf ps]) none ([] ++ (w ++ [])) rest :=
    takes_textStart.admits.chain_cons ((admits_firstOf ha (by simpa using h)).chain_cons admits_chain_nil)
  have hin := isIn_of_admits (u := []) hstart
  simpa using hin

/-- A pattern that is bound to the start of a text is in none at whose start it fails. -/
theorem isIn_eq_false_of_fails {ps : List Pattern} (h : Fails (chain ps) ⟨none, s⟩) :
    (chain (textStart :: ps)).isIn s = false := by
  have hinside : ∀ (c : Char) (s : List Char), Fails (chain (textStart :: ps)) ⟨some c, s⟩ := fun c s β g k => rfl
  have hstart : Fails (chain (textStart :: ps)) ⟨none, s⟩ := fun β g k => h β g k
  have hnone : (chain (textStart :: ps)).search s = none := by
    cases s with
    | nil => exact searchAt_eq_none trivial hstart
    | cons c s =>
      obtain ⟨d, hd⟩ : ∃ d, past none (c :: s) = some d := by
        rw [past]
        exact ⟨_, by rw [List.getLast?_eq_some_getLast (List.cons_ne_nil c s)]; rfl⟩
      refine searchAt_eq_none ⟨by simpa using hstart, skips_of_forall fun p e v hs => ?_⟩ (hd ▸ hinside d [])
      obtain ⟨d, hd⟩ : ∃ d, past (some c) p = some d := by
        cases hp : p.getLast? <;> simp [past, hp]
      rw [hd]
      exact hinside d _
  rw [isIn, hnone]
  rfl

/-! ## Characters that a pattern does not read -/

/-- No part of the pattern reads the character. -/
def rejects (d : Char) : Pattern → Bool
  | one p | span _ p | some1 p => !p d
  | seq a b | alt a b => rejects d a && rejects d b
  | many a | group _ a => rejects d a
  | empty | textStart | textEnd | wordEdge => true

theorem not_mem_of_rejects {d : Char} (hr : r.rejects d = true) (h : Spells r w) : d ∉ w := by
  have hclass : ∀ {p : Char → Bool} {w : List Char}, (!p d) = true → (∀ c ∈ w, p c = true) → d ∉ w := by
    intro p w hp hw hd
    rw [hw d hd] at hp
    cases hp
  induction r generalizing w with
  | empty | textStart | textEnd | wordEdge =>
    cases h
    exact List.not_mem_nil
  | one p =>
    obtain ⟨c, hc, rfl⟩ := h
    exact hclass hr (by simpa using hc)
  | span greedy p => exact hclass hr h
  | some1 p => exact hclass hr h.2
  | seq a b iha ihb =>
    obtain ⟨u, v, rfl, hu, hv⟩ := h
    simp only [rejects, Bool.and_eq_true] at hr
    rw [List.mem_append, not_or]
    exact ⟨iha hr.1 hu, ihb hr.2 hv⟩
  | alt a b iha ihb =>
    simp only [rejects, Bool.and_eq_true] at hr
    rcases h with h | h
    · exact iha hr.1 h
    · exact ihb hr.2 h
  | many a iha =>
    obtain ⟨parts, rfl, hparts⟩ := h
    intro hd
    obtain ⟨u, hu, hd⟩ := List.mem_flatten.1 hd
    exact iha hr (hparts u hu) hd
  | group i a iha => exact iha hr h

/-! ## Either case -/

theorem spells_anyCase {k : String} : Spells (anyCase k) w ↔ w.map Text.foldChar = k.toList := by
  rw [anyCase]
  generalize k.toList = l
  induction l generalizing w with
  | nil => simp [Spells]
  | cons d l ih =>
    show (∃ u v, w = u ++ v ∧ (∃ c, (Text.foldChar c == d) = true ∧ u = [c]) ∧ Spells _ v) ↔ _
    constructor
    · rintro ⟨u, v, rfl, ⟨c, hc, rfl⟩, hv⟩
      rw [ih] at hv
      simp [hv, beq_iff_eq.1 hc]
    · intro h
      cases w with
      | nil => cases h
      | cons c w =>
        obtain ⟨hc, hw⟩ := List.cons_eq_cons.1 h
        exact ⟨[c], w, rfl, ⟨c, by simp [hc], rfl⟩, ih.2 hw⟩

theorem takes_anyCase {k : String} (h : w.map Text.foldChar = k.toList) : Takes (anyCase k) b w rest [] := by
  rw [anyCase]
  generalize k.toList = l at h
  induction l generalizing w b with
  | nil =>
    obtain rfl : w = [] := by simpa using h
    exact takes_empty
  | cons d l ih =>
    cases w with
    | nil => cases h
    | cons c w =>
      obtain ⟨hc, hw⟩ := List.cons_eq_cons.1 h
      exact (takes_one (by simp [hc])).seq (ih hw)

end FluentTables.Pattern
