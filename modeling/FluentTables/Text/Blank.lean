/-!
# White space and trimming

`isBlank` is the White_Space property; `trimBy` drops a class of characters at both ends.
-/

namespace FluentTables.Text

/-- White space. -/
def isBlank (c : Char) : Bool :=
  let n := c.toNat
  (9 ≤ n && n ≤ 13) || n == 0x20 || n == 0x85 || n == 0xA0 || n == 0x1680 || (0x2000 ≤ n && n ≤ 0x200A) ||
    n == 0x2028 || n == 0x2029 || n == 0x202F || n == 0x205F || n == 0x3000

/-- A text without the characters of a class at its two ends. -/
def trimBy (p : Char → Bool) (s : List Char) : List Char :=
  ((s.dropWhile p).reverse.dropWhile p).reverse

/-- A text without white space at its two ends. -/
def trim (s : List Char) : List Char := trimBy isBlank s

/-- Nothing is dropped between two characters that stay. -/
theorem trimBy_eq_self {p : Char → Bool} {s : List Char} (hh : ∀ c, s.head? = some c → p c = false)
    (hl : ∀ c, s.getLast? = some c → p c = false) : trimBy p s = s := by
  have hd : ∀ t : List Char, (∀ c, t.head? = some c → p c = false) → t.dropWhile p = t := by
    intro t ht
    cases t with
    | nil => rfl
    | cons c r => simp [List.dropWhile, ht c rfl]
  rw [trimBy, hd s hh, hd s.reverse (by simpa using hl), List.reverse_reverse]

/-- Nothing is dropped if all characters stay. -/
theorem trimBy_eq_self_of_forall {p : Char → Bool} {s : List Char} (h : ∀ c ∈ s, p c = false) : trimBy p s = s :=
  trimBy_eq_self (fun c hc => h c (List.mem_of_head? hc)) fun c hc => h c (List.mem_of_getLast? hc)

/-- A prefix of dropped characters is dropped. -/
theorem trimBy_append_left {p : Char → Bool} {a s : List Char} (ha : ∀ c ∈ a, p c = true) :
    trimBy p (a ++ s) = trimBy p s := by
  rw [trimBy, List.dropWhile_append_of_pos ha, ← trimBy]

/-- A suffix of dropped characters is dropped. -/
theorem trimBy_append_right {p : Char → Bool} {a s : List Char} (ha : ∀ c ∈ a, p c = true) :
    trimBy p (s ++ a) = trimBy p s := by
  rw [trimBy, trimBy, List.dropWhile_append]
  split
  · next hs =>
    have hdrop : (a ++ []).dropWhile p = [].dropWhile p := List.dropWhile_append_of_pos ha
    rw [List.append_nil] at hdrop
    rw [List.isEmpty_iff.1 hs, hdrop]
    rfl
  · rw [List.reverse_append, List.dropWhile_append_of_pos (by simpa using ha)]

/-- A text is what is left of it, between what was dropped at its two ends. -/
theorem exists_trimBy (p : Char → Bool) (s : List Char) :
    ∃ a b, s = a ++ (trimBy p s ++ b) ∧ (∀ c ∈ a, p c = true) ∧ ∀ c ∈ b, p c = true := by
  have htake : ∀ t : List Char, ∀ c ∈ t.takeWhile p, p c = true := fun t c hc =>
    List.all_eq_true.1 List.all_takeWhile c hc
  have hend : s.dropWhile p = trimBy p s ++ ((s.dropWhile p).reverse.takeWhile p).reverse := by
    rw [trimBy, ← List.reverse_append, List.takeWhile_append_dropWhile, List.reverse_reverse]
  refine ⟨s.takeWhile p, ((s.dropWhile p).reverse.takeWhile p).reverse, ?_, htake s, fun c hc => ?_⟩
  · rw [← hend, List.takeWhile_append_dropWhile]
  · exact htake _ c (List.mem_reverse.1 hc)

theorem mem_trimBy_or (p : Char → Bool) {s : List Char} {c : Char} (hc : c ∈ s) : p c = true ∨ c ∈ trimBy p s := by
  obtain ⟨a, b, hs, ha, hb⟩ := exists_trimBy p s
  rw [hs, List.mem_append, List.mem_append] at hc
  rcases hc with hc | hc | hc
  · exact Or.inl (ha c hc)
  · exact Or.inr hc
  · exact Or.inl (hb c hc)

/-- What is left of a text keeps the characters at its beginning. -/
theorem trimBy_prefix_dropWhile (p : Char → Bool) (s : List Char) : trimBy p s <+: s.dropWhile p := by
  rw [← List.reverse_suffix, trimBy, List.reverse_reverse]
  exact List.dropWhile_suffix p

theorem not_of_head?_dropWhile {p : Char → Bool} {s : List Char} {c : Char} (h : (s.dropWhile p).head? = some c) :
    p c = false := by
  have hnot := List.head?_dropWhile_not p s
  rwa [h] at hnot

/-- What is left of a text begins with a character that stays. -/
theorem not_of_head?_trimBy {p : Char → Bool} {s : List Char} {c : Char} (h : (trimBy p s).head? = some c) :
    p c = false := by
  obtain ⟨r, hr⟩ := trimBy_prefix_dropWhile p s
  refine not_of_head?_dropWhile (s := s) ?_
  rw [← hr, List.head?_append, h]
  rfl

/-- What is left of a text ends with a character that stays. -/
theorem not_of_getLast?_trimBy {p : Char → Bool} {s : List Char} {c : Char} (h : (trimBy p s).getLast? = some c) :
    p c = false := by
  rw [trimBy, List.getLast?_reverse] at h
  exact not_of_head?_dropWhile h

/-- Nothing is dropped iff the characters at both ends stay. -/
theorem trimBy_eq_self_iff {p : Char → Bool} {s : List Char} :
    trimBy p s = s ↔ (∀ c, s.head? = some c → p c = false) ∧ ∀ c, s.getLast? = some c → p c = false :=
  ⟨fun h => ⟨fun _ hc => not_of_head?_trimBy (h.symm ▸ hc), fun _ hc => not_of_getLast?_trimBy (h.symm ▸ hc)⟩,
    fun h => trimBy_eq_self h.1 h.2⟩

/-- **What is left of a text** is what stands between characters of the class and neither begins nor ends with one. -/
theorem trimBy_eq_iff {p : Char → Bool} {s t : List Char} :
    trimBy p s = t ↔ (∃ a b, s = a ++ (t ++ b) ∧ (∀ c ∈ a, p c = true) ∧ ∀ c ∈ b, p c = true) ∧
      (∀ c, t.head? = some c → p c = false) ∧ ∀ c, t.getLast? = some c → p c = false := by
  constructor
  · rintro rfl
    exact ⟨exists_trimBy p s, fun _ => not_of_head?_trimBy, fun _ => not_of_getLast?_trimBy⟩
  · rintro ⟨⟨a, b, rfl, ha, hb⟩, hends⟩
    rw [trimBy_append_left ha, trimBy_append_right hb, trimBy_eq_self_iff.2 hends]

/-- Nothing is dropped the second time. -/
theorem trimBy_trimBy (p : Char → Bool) (s : List Char) : trimBy p (trimBy p s) = trimBy p s :=
  trimBy_eq_self (fun _ => not_of_head?_trimBy) fun _ => not_of_getLast?_trimBy

/-- A text without the white space around it. -/
theorem trim_eq_iff {s t : List Char} :
    trim s = t ↔ (∃ a b, s = a ++ (t ++ b) ∧ (∀ c ∈ a, isBlank c = true) ∧ ∀ c ∈ b, isBlank c = true) ∧
      (∀ c, t.head? = some c → isBlank c = false) ∧ ∀ c, t.getLast? = some c → isBlank c = false :=
  trimBy_eq_iff

theorem trim_trim (s : List Char) : trim (trim s) = trim s := trimBy_trimBy isBlank s

end FluentTables.Text
