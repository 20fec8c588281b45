import FluentTables.Proofs.Pattern.Occurrences
import FluentTables.Proofs.Text.Arguments

/-!
# What stands in front of opening brackets

Where round brackets are few, a text is known by what stands in front of those that open (`Opens`), and a pattern by
what it reads in front of the first one (`Opening`). A pattern does not match in front of a bracket that another text
leads to (`Opening.fails`, `Opening.skips`), nor in front of a closing one (`Opening.skips_close`).
-/

namespace FluentTables

namespace Text

variable {l u v x x' y y' : List Char}

/-- Round brackets. -/
def isParen (c : Char) : Bool := c == '(' || c == ')'

/-- A text without round brackets. -/
def ParenFree (s : List Char) : Prop := ∀ c ∈ s, isParen c = false

instance : DecidablePred ParenFree := fun _ => inferInstanceAs (Decidable (∀ _ ∈ _, _))

theorem ParenFree.append (hu : ParenFree u) (hv : ParenFree v) : ParenFree (u ++ v) := fun c hc =>
  (List.mem_append.1 hc).elim (hu c) (hv c)

theorem ParenFree.not_mem (h : ParenFree u) : '(' ∉ u ∧ ')' ∉ u :=
  ⟨fun hc => absurd (h _ hc) (by decide), fun hc => absurd (h _ hc) (by decide)⟩

/-- The first character of a class is at one place of a text. -/
theorem append_cons_inj_of_class {p : Char → Bool} {d d' : Char} (hx : ∀ c ∈ x, p c = false)
    (hx' : ∀ c ∈ x', p c = false) (hd : p d = true) (hd' : p d' = true) (h : x ++ d :: y = x' ++ d' :: y') :
    x = x' ∧ d = d' ∧ y = y' := by
  induction x generalizing x' with
  | nil =>
    cases x' with
    | nil => simpa using h
    | cons c x' =>
      have hc : d = c := (List.cons_eq_cons.1 h).1
      exact absurd (hx' c (by simp)) (by simp [← hc, hd])
  | cons c x ih =>
    cases x' with
    | nil =>
      have hc : c = d' := (List.cons_eq_cons.1 h).1
      exact absurd (hx c (by simp)) (by simp [hc, hd'])
    | cons e x' =>
      obtain ⟨hce, hrest⟩ := List.cons_eq_cons.1 h
      obtain ⟨hxx, hrest⟩ := ih (fun f hf => hx f (List.mem_cons_of_mem c hf))
        (fun f hf => hx' f (List.mem_cons_of_mem e hf)) hrest
      exact ⟨by rw [hce, hxx], hrest⟩

/-- What ends behind a character that it does not have begins behind it. -/
theorem suffix_of_append_cons {d : Char} (hd : d ∉ l) (h : l <:+ u ++ d :: v) : l <:+ v := by
  rcases List.suffix_or_suffix_of_suffix h (List.suffix_append u (d :: v)) with h | h
  · rcases List.suffix_cons_iff.1 h with rfl | h
    · exact absurd (by simp) hd
    · exact h
  · exact absurd (h.subset (by simp)) hd

/-- A part of a text lies on one side of a character that it does not have. -/
theorem infix_of_append_cons {d : Char} (hd : d ∉ l) (h : l <:+: u ++ d :: v) : l <:+: u ∨ l <:+: v := by
  obtain ⟨p, q, h⟩ := h
  rcases List.append_eq_append_iff.1 h with ⟨t, hu, -⟩ | ⟨t, hp, hv⟩
  · exact Or.inl ⟨p, t, hu.symm⟩
  · cases t with
    | nil => exact Or.inl ⟨p, [], by simpa using hp⟩
    | cons c t =>
      obtain ⟨rfl, rfl⟩ := List.cons_eq_cons.1 hv
      obtain ⟨r, rfl⟩ := suffix_of_append_cons hd ⟨p, hp⟩
      exact Or.inr ⟨r, q, by simp⟩

/-- What stands in front of a character stands in front of the first one, or of a later one. -/
theorem suffix_or_infix_of_append_cons {d : Char} (hl : d ∉ l) (hu : d ∉ u) (h : l ++ [d] <:+: u ++ d :: v) :
    l <:+ u ∨ l ++ [d] <:+: v := by
  obtain ⟨p, q, h⟩ := h
  have hsplit : (p ++ l) ++ d :: q = u ++ d :: v := by simpa using h
  rcases List.append_eq_append_iff.1 hsplit with ⟨t, hu', hq⟩ | ⟨t, hp, hv⟩
  · cases t with
    | nil => exact Or.inl ⟨p, by simpa using hu'.symm⟩
    | cons c t =>
      have hc : d = c := (List.cons_eq_cons.1 hq).1
      exact absurd (by simp [hu', ← hc]) hu
  · cases t with
    | nil => exact Or.inl ⟨p, by simpa using hp⟩
    | cons c t =>
      obtain ⟨rfl, rfl⟩ := List.cons_eq_cons.1 hv
      obtain ⟨r, rfl⟩ := suffix_of_append_cons hl ⟨p, hp⟩
      exact Or.inr ⟨r, q, by simp⟩

theorem isParen_of_isBlank {c : Char} (h : isBlank c = true) : isParen c = false := by
  refine Bool.eq_false_iff.2 fun hc => ?_
  simp only [isParen, Bool.or_eq_true, beq_iff_eq] at hc
  rcases hc with rfl | rfl <;> exact absurd h (by decide)

/-- Somewhere a round bracket opens right behind `l`. -/
def Opens (l s : List Char) : Prop := l ++ ['('] <:+: s

theorem Opens.mono (h : Opens l u) (hu : u <:+: v) : Opens l v := List.IsInfix.trans h hu

theorem not_opens (h : ParenFree u) : ¬ Opens l u := fun ho => h.not_mem.1 (ho.subset (by simp))

/-- Behind what stands in front of the first bracket, or later. -/
theorem Opens.of_open (hl : ParenFree l) (hu : ParenFree u) (h : Opens l (u ++ '(' :: v)) : l <:+ u ∨ Opens l v :=
  suffix_or_infix_of_append_cons hl.not_mem.1 hu.not_mem.1 h

/-- On one side of a character that is neither in `l` nor the bracket. -/
theorem Opens.of_cons {d : Char} (hl : d ∉ l) (hd : d ≠ '(') (h : Opens l (u ++ d :: v)) : Opens l u ∨ Opens l v :=
  infix_of_append_cons (by simp [hl, hd]) h

end Text

namespace Pattern

open Text

variable {r : Pattern} {P : List Char → Prop} {b : Option Char} {u v s x : List Char}

/-- The texts of a pattern have a round bracket that opens, and the first one opens behind a text with a property. -/
def Opening (r : Pattern) (P : List Char → Prop) : Prop :=
  ∀ w, Spells r w → ∃ x y, w = x ++ '(' :: y ∧ ParenFree x ∧ P x

/-- Behind another text there is no match. -/
theorem Opening.fails (hr : Opening r P) (hx : ParenFree x) (h : ¬ P x) (s : List Char) :
    Fails r ⟨b, x ++ '(' :: s⟩ := by
  refine fails_of_spells fun w rest hw hspells => ?_
  obtain ⟨x', y, rfl, hx', hP⟩ := hr w hspells
  have hsplit : x ++ '(' :: s = x' ++ '(' :: (y ++ rest) := by simpa using hw
  rw [(append_cons_inj_of_class hx hx' rfl rfl hsplit).1] at h
  exact h hP

/-- In front of a closing bracket there is no match. -/
theorem Opening.fails_close (hr : Opening r P) (hx : ParenFree x) (s : List Char) : Fails r ⟨b, x ++ ')' :: s⟩ := by
  refine fails_of_spells fun w rest hw hspells => ?_
  obtain ⟨x', y, rfl, hx', -⟩ := hr w hspells
  have hsplit : x ++ ')' :: s = x' ++ '(' :: (y ++ rest) := by simpa using hw
  exact absurd (append_cons_inj_of_class hx hx' rfl rfl hsplit).2.1 (by decide)

theorem Opening.skips (hr : Opening r P) (huv : ParenFree (u ++ v))
    (h : ∀ p c q, u = p ++ c :: q → ¬ P (c :: (q ++ v))) : Skips r b u (v ++ '(' :: s) := by
  refine skips_of_forall fun p c q hu => ?_
  have hfree : ParenFree (c :: (q ++ v)) := fun d hd => huv d (by
    rw [hu, List.append_assoc, List.mem_append]
    exact Or.inr hd)
  have hfails := hr.fails (b := past b p) hfree (h p c q hu) s
  simpa using hfails

theorem Opening.skips_close (hr : Opening r P) (hu : ParenFree u) : Skips r b (u ++ [')']) s := by
  refine skips_of_forall fun p c q hq => ?_
  rcases List.eq_nil_or_concat q with rfl | ⟨q, d, rfl⟩
  · have hc : c = ')' := by simpa using (List.append_inj' hq rfl).2.symm
    rw [hc]
    exact hr.fails_close (x := []) (by simp [ParenFree]) s
  · have hq : u ++ [')'] = (p ++ c :: q) ++ [d] := by simpa using hq
    obtain ⟨rfl, hd⟩ := List.append_inj' hq rfl
    obtain rfl : ')' = d := by simpa using hd
    have hfails := hr.fails_close (b := past b p) (x := c :: q) (fun e he => hu e (by
      rw [List.mem_append]
      exact Or.inr he)) s
    simpa using hfails

end Pattern

end FluentTables
