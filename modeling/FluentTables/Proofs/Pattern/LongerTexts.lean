import FluentTables.Proofs.Pattern.Occurrences
import Mathlib.Logic.Basic

/-!
# Longer texts

When a text goes on, a pattern may match more of it, or match it elsewhere. But a match that ends before what is added
is the match without it as well, and where nothing matches the longer text nothing matches the shorter one (`Kept`).
That holds of every pattern of which no part looks at what follows a place (`local_of_looksAhead`), and also behind
the edge of a word (`Local.edge`). So as long as no match goes on into what is added, the matches stay as they are
(`map_texts_matchesIn_append`).
-/

namespace FluentTables

/-- A place in a text that goes on with `t`. -/
def Place.append (x : Place) (t : List Char) : Place := ⟨x.before, x.rest ++ t⟩

namespace Pattern

variable {r a c : Pattern} {t s : List Char} {k k' : Place → Groups → Option Match}

/-- Groups in a text that goes on with `t`. -/
def extended (t : List Char) (g : Groups) : Groups := g.map fun e => (e.1, ⟨e.2.start ++ t, e.2.stop ++ t⟩)

/-- A match in a text that goes on with `t`. -/
def Match.append (m : Match) (t : List Char) : Match := ⟨m.passed, extended t m.groups, m.stop.append t⟩

/-- What is added changes no text of a group. -/
theorem Match.texts_append (m : Match) (t : List Char) : (m.append t).texts = m.texts := by
  have hspan : ∀ e : Span, (⟨e.start ++ t, e.stop ++ t⟩ : Span).text = e.text := by
    intro e
    rw [Span.text, List.length_append, List.length_append, Nat.add_sub_add_right,
      List.take_append_of_le_length (Nat.sub_le _ _)]
    rfl
  show (extended t m.groups).map (fun e => (e.1, e.2.text)) = _
  rw [extended, List.map_map]
  exact List.map_congr_left fun e _ => congrArg (Prod.mk e.1) (hspan e.2)

/-! ## Matches with and without what is added -/

/-- A search without `t` behind the text, and one with it: both find nothing, or the same, or the latter finds a match
that goes on into `t`. -/
inductive Kept (t : List Char) : Option Match → Option Match → Prop
  | none : Kept t none none
  | found (m : Match) : Kept t (some m) (some (m.append t))
  | beyond (o : Option Match) {m : Match} (h : m.stop.rest.length < t.length) : Kept t o (some m)

theorem Kept.of_beyond {o : Option Match} (h : ∀ m, o = some m → m.stop.rest.length < t.length) :
    Kept t Option.none o := by
  cases o with
  | none => exact .none
  | some m => exact .beyond _ (h m rfl)

theorem Kept.orElse {o o' p p' : Option Match} (h : Kept t o o') (h' : Kept t p p') : Kept t (o <|> p) (o' <|> p') := by
  cases h with
  | none => exact h'
  | found m => exact .found m
  | beyond o h => exact .beyond _ h

/-- What is made of a match without `t` and with it: the same before `t`, and within `t` only what goes on there. -/
structure Continues (t : List Char) (k k' : Place → Groups → Option Match) : Prop where
  within : ∀ y g, Kept t (k y g) (k' (y.append t) (extended t g))
  beyond : ∀ y g m, y.rest.length < t.length → k' y g = some m → m.stop.rest.length < t.length

/-- A pattern that starts within `t` ends there. -/
theorem Continues.run_beyond (h : Continues t k k') (r : Pattern) {y : Place} {g : Groups} {m : Match}
    (hy : y.rest.length < t.length) (hm : run r y g k' = some m) : m.stop.rest.length < t.length := by
  obtain ⟨w, z, g', hrest, -, hk⟩ := spells_of_run hm
  have hlength : y.rest.length = w.length + z.rest.length := by rw [hrest, List.length_append]
  exact h.beyond z g' m (by omega) hk

/-- A pattern keeps its matches when the text goes on. -/
def Local (r : Pattern) : Prop :=
  ∀ ⦃t : List Char⦄ ⦃k k' : Place → Groups → Option Match⦄, Continues t k k' →
    ∀ x g, Kept t (run r x g k) (run r (x.append t) (extended t g) k')

/-! ## Patterns, case by case -/

theorem local_one (p : Char → Bool) : Local (one p) := by
  rintro t k k' h ⟨b, _ | ⟨d, s⟩⟩ g
  · refine Kept.of_beyond fun m hm => ?_
    cases t with
    | nil => cases hm
    | cons d t =>
      have hone : (if p d then k' ⟨some d, t⟩ (extended (d :: t) g) else none) = some m := hm
      split at hone
      · exact h.beyond _ _ m (Nat.lt_succ_self _) hone
      · cases hone
  · show Kept t (if p d then k ⟨some d, s⟩ g else none) (if p d then k' ⟨some d, s ++ t⟩ (extended t g) else none)
    split
    · exact h.within ⟨some d, s⟩ g
    · exact .none

theorem Local.seq (ha : Local a) (hc : Local c) : Local (seq a c) := by
  intro t k k' h x g
  refine ha ⟨fun y g => hc h y g, fun y g m hy hm => ?_⟩ x g
  exact h.run_beyond c hy hm

theorem Local.alt (ha : Local a) (hc : Local c) : Local (alt a c) := fun _ _ _ h x g => (ha h x g).orElse (hc h x g)

/-- A walk that comes to the end of the text may go on, but then it ends within what is added. -/
theorem local_span (greedy : Bool) (p : Char → Bool) : Local (span greedy p) := by
  rintro t k k' h ⟨b, s⟩ g
  have hon : ∀ d u (g : Groups), t = d :: u →
      Kept t none (if p d then run (span greedy p) ⟨some d, u⟩ g k' else none) := by
    rintro d u g rfl
    refine Kept.of_beyond fun m hm => ?_
    split at hm
    · exact h.run_beyond _ (Nat.lt_succ_self _) hm
    · cases hm
  induction s generalizing b with
  | nil =>
    have hhere : Kept t (k ⟨b, []⟩ g) (k' ⟨b, t⟩ (extended t g)) := h.within ⟨b, []⟩ g
    rw [run_span_nil]
    show Kept t _ (run (span greedy p) ⟨b, t⟩ (extended t g) k')
    cases t with
    | nil =>
      rw [run_span_nil]
      exact hhere
    | cons d u =>
      cases greedy with
      | true =>
        rw [run_span_greedy_cons]
        exact (hon d u _ rfl).orElse hhere
      | false =>
        rw [run_span_lazy_cons]
        have hboth := hhere.orElse (hon d u (extended (d :: u) g) rfl)
        rwa [Option.orElse_eq_orElse, Option.orElse_eq_or, Option.or_none] at hboth
  | cons d s ih =>
    have hnext : Kept t (if p d then run (span greedy p) ⟨some d, s⟩ g k else none)
        (if p d then run (span greedy p) ⟨some d, s ++ t⟩ (extended t g) k' else none) := by
      split
      · exact ih (some d)
      · exact .none
    have hhere : Kept t (k ⟨b, d :: s⟩ g) (k' ⟨b, d :: (s ++ t)⟩ (extended t g)) := h.within ⟨b, d :: s⟩ g
    show Kept t _ (run (span greedy p) ⟨b, d :: (s ++ t)⟩ (extended t g) k')
    cases greedy with
    | true =>
      rw [run_span_greedy_cons, run_span_greedy_cons]
      exact hnext.orElse hhere
    | false =>
      rw [run_span_lazy_cons, run_span_lazy_cons]
      exact hhere.orElse hnext

theorem local_some1 (p : Char → Bool) : Local (some1 p) := by
  rintro t k k' h ⟨b, _ | ⟨d, s⟩⟩ g
  · refine Kept.of_beyond fun m hm => ?_
    cases t with
    | nil => cases hm
    | cons d t =>
      have hwalk : (if p d then run (span true p) ⟨some d, t⟩ (extended (d :: t) g) k' else none) = some m := hm
      split at hwalk
      · exact h.run_beyond _ (Nat.lt_succ_self _) hwalk
      · cases hwalk
  · show Kept t (if p d then run (span true p) ⟨some d, s⟩ g k else none)
      (if p d then run (span true p) ⟨some d, s ++ t⟩ (extended t g) k' else none)
    split
    · exact local_span true p h ⟨some d, s⟩ g
    · exact .none

/-- By induction on what is left of the text, which each repetition shortens. -/
theorem Local.many (ha : Local a) : Local (many a) := by
  intro t k k' h x g
  generalize hn : x.rest.length = n
  induction n using Nat.strongRecOn generalizing x g with
  | ind n ih =>
    subst hn
    rw [run_many_eq, run_many_eq]
    refine Kept.orElse (ha ⟨fun y g => ?_, fun y g m hy hm => ?_⟩ x g) (h.within x g)
    · have hshorter : (y.append t).rest.length < (x.append t).rest.length ↔ y.rest.length < x.rest.length := by
        simp [Place.append]
      rw [if_congr hshorter rfl rfl]
      split
      · next hy => exact ih _ hy y g rfl
      · exact .none
    · split at hm
      · exact h.run_beyond _ hy hm
      · cases hm

theorem Local.group (ha : Local a) (i : Nat) : Local (group i a) := by
  intro t k k' h x g
  refine ha ⟨fun y g => ?_, fun y g m hy hm => h.beyond y _ m hy hm⟩ x g
  exact h.within y ((i, ⟨x.rest, y.rest⟩) :: g)

/-- Some part of the pattern looks at what follows a place without reading it. -/
def looksAhead : Pattern → Bool
  | textEnd | wordEdge => true
  | seq a c | alt a c => looksAhead a || looksAhead c
  | many a | group _ a => looksAhead a
  | empty | one _ | span _ _ | some1 _ | textStart => false

/-- **A pattern that only reads keeps its matches when the text goes on.** -/
theorem local_of_looksAhead (hr : r.looksAhead = false) : Local r := by
  induction r with
  | empty => exact fun _ _ _ h => h.within
  | one p => exact local_one p
  | span greedy p => exact local_span greedy p
  | some1 p => exact local_some1 p
  | seq a c iha ihc =>
    obtain ⟨ha, hc⟩ := Bool.or_eq_false_iff.1 hr
    exact (iha ha).seq (ihc hc)
  | alt a c iha ihc =>
    obtain ⟨ha, hc⟩ := Bool.or_eq_false_iff.1 hr
    exact (iha ha).alt (ihc hc)
  | many a iha => exact (iha hr).many
  | group i a iha => exact (iha hr).group i
  | textStart =>
    intro t k k' h x g
    show Kept t (if x.before.isNone then k x g else none)
      (if x.before.isNone then k' (x.append t) (extended t g) else none)
    split
    · exact h.within x g
    · exact .none
  | textEnd | wordEdge => cases hr

/-- The edge of a word is the same in a text that goes on, except at the end of the text, where nothing is to match. -/
theorem Local.edge {ps : List Pattern} (h : Local (chain ps)) (hend : ∀ b, Fails (chain ps) ⟨b, []⟩) :
    Local (chain (wordEdge :: ps)) := by
  rintro t k k' hk ⟨b, s⟩ g
  rw [run_chain_cons, run_chain_cons, run_wordEdge, run_wordEdge]
  have hrun := h hk ⟨b, s⟩ g
  cases s with
  | nil =>
    rw [hend b Match g k] at hrun ⊢
    rw [ite_self]
    split
    · exact hrun
    · exact .none
  | cons d s =>
    have hsame : ((⟨b, d :: s⟩ : Place).append t).atWordEdge = (⟨b, d :: s⟩ : Place).atWordEdge := rfl
    rw [hsame]
    split
    · exact hrun
    · exact .none

/-! ## Searches -/

section Searches

variable (hr : Local r)

include hr

theorem Local.matchAt (passed : List Char) (x : Place) :
    Kept t (r.matchAt passed x) (r.matchAt passed (x.append t)) := by
  refine hr.group 0 ⟨fun y g => .found ⟨passed, g, y⟩, fun y g m hy hm => ?_⟩ x []
  cases hm
  exact hy

theorem Local.firstMatch (passed : List Char) (b : Option Char) (s : List Char) :
    Kept t (r.firstMatch passed b s) (r.firstMatch passed b (s ++ t)) := by
  induction s generalizing passed b with
  | nil =>
    have hhere : Kept t (r.matchAt passed ⟨b, []⟩) (r.matchAt passed ⟨b, t⟩) := hr.matchAt passed ⟨b, []⟩
    cases t with
    | nil => exact hhere
    | cons d u =>
      rw [List.nil_append, Pattern.firstMatch, Pattern.firstMatch]
      generalize r.matchAt passed ⟨b, d :: u⟩ = o' at hhere ⊢
      cases o' with
      | some m => exact hhere
      | none =>
        generalize r.matchAt passed ⟨b, []⟩ = o at hhere ⊢
        cases hhere with
        | none =>
          -- What is found further on begins within what is added.
          refine Kept.of_beyond fun m hfirst => ?_
          obtain ⟨p, y, hu, hmatch⟩ := exists_matchAt_of_firstMatch hfirst
          obtain ⟨w, z, spans, hy, -, -, -, hz⟩ := sound (.group 0 r) hmatch
          cases hz
          rw [hu, hy]
          simp only [List.length_cons, List.length_append]
          omega
  | cons d s ih =>
    have hhere : Kept t (r.matchAt passed ⟨b, d :: s⟩) (r.matchAt passed ⟨b, d :: (s ++ t)⟩) :=
      hr.matchAt passed ⟨b, d :: s⟩
    rw [List.cons_append, Pattern.firstMatch, Pattern.firstMatch]
    generalize r.matchAt passed ⟨b, d :: s⟩ = o at hhere ⊢
    generalize r.matchAt passed ⟨b, d :: (s ++ t)⟩ = o' at hhere ⊢
    cases hhere with
    | none => exact ih _ _
    | found m => exact .found m
    | beyond o h => exact .beyond _ h

/-- **A match that ends before what is added is found without it**, and so is that there is none. -/
theorem Local.searchAt (x : Place) : Kept t (r.searchAt x) (r.searchAt (x.append t)) := by
  rw [searchAt_eq_firstMatch, searchAt_eq_firstMatch]
  exact hr.firstMatch [] x.before x.rest

theorem map_texts_matchesFrom_append {n : Nat} {x : Place}
    (h : ∀ m ∈ r.matchesFrom n (x.append t), t.length ≤ m.stop.rest.length) :
    (r.matchesFrom n (x.append t)).map Match.texts = (r.matchesFrom n x).map Match.texts := by
  induction n generalizing x with
  | zero => rfl
  | succ n ih =>
    have hfirst := hr.searchAt (t := t) x
    rw [matchesFrom] at h ⊢
    rw [matchesFrom]
    generalize r.searchAt x = o at hfirst ⊢
    generalize r.searchAt (x.append t) = o' at h hfirst ⊢
    cases hfirst with
    | none => rfl
    | found m =>
      have hshorter : (m.append t).stop.rest.length < (x.append t).rest.length ↔
          m.stop.rest.length < x.rest.length := by
        simp [Place.append, Match.append]
      dsimp only at h ⊢
      rw [List.map_cons, List.map_cons, Match.texts_append, if_congr hshorter rfl rfl]
      rw [if_congr hshorter rfl rfl] at h
      split
      · next hlt =>
        rw [if_pos hlt] at h
        exact congrArg _ (ih fun m' hm' => h m' (List.mem_cons_of_mem _ hm'))
      · rfl
    | beyond o hbeyond => exact absurd (h _ List.mem_cons_self) (Nat.not_le_of_lt hbeyond)

/-- **As long as no match goes on into what is added, the matches of a text stay as they are.** -/
theorem map_texts_matchesIn_append (h : ∀ m ∈ r.matchesIn (s ++ t), t.length ≤ m.stop.rest.length) :
    (r.matchesIn (s ++ t)).map Match.texts = (r.matchesIn s).map Match.texts := by
  have hlength : (⟨none, s⟩ : Place).rest.length < (s ++ t).length + 1 := by
    simp only [List.length_append]
    omega
  rw [matchesIn, matchesIn, matchesFrom_eq (Nat.lt_succ_self _) hlength]
  exact map_texts_matchesFrom_append (x := ⟨none, s⟩) hr h

end Searches

end Pattern

end FluentTables
