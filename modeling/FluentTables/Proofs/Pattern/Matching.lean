import FluentTables.Pattern.Search

/-!
# What a pattern takes

`Takes` says what a pattern takes as its first choice, in front of a given rest, and what its groups hold then; there
is one lemma per constructor, so that the match of a text is read off the way it is written. `Fails` says that a
pattern matches nothing at a place. It follows from the texts a pattern may take at all (`Spells`): what was matched
is always such a text, and so are its groups (`sound`).
-/

namespace FluentTables.Pattern

variable {β : Type}

/-- The character before the place behind a text. -/
def past (b : Option Char) (w : List Char) : Option Char := w.getLast?.or b

@[simp] theorem past_nil (b : Option Char) : past b [] = b := rfl

@[simp] theorem past_cons (b : Option Char) (c : Char) (w : List Char) : past b (c :: w) = past (some c) w := by
  cases w with
  | nil => rfl
  | cons d w => simp [past, List.getLast?_cons]

@[simp] theorem past_append (b : Option Char) (v w : List Char) : past b (v ++ w) = past (past b v) w := by
  induction v generalizing b with
  | nil => rfl
  | cons c v ih => simp [ih]

/-! ## Walks, step by step -/

section Walks

variable (p : Char → Bool) (b : Option Char) (c : Char) (s : List Char) (g : Groups) (k : Place → Groups → Option β)

theorem run_span_nil (greedy : Bool) : run (span greedy p) ⟨b, []⟩ g k = k ⟨b, []⟩ g := by
  cases greedy <;> simp [run, Place.stops_nil]

/-- As far as possible: on, or else here. -/
theorem run_span_greedy_cons : run (span true p) ⟨b, c :: s⟩ g k =
    ((if p c then run (span true p) ⟨some c, s⟩ g k else none) <|> k ⟨b, c :: s⟩ g) := by
  rw [run_span_greedy]
  by_cases h : p c
  · simp [Place.stops_cons_pos h, h, run_span_greedy, List.findSome?_append]
  · simp [Place.stops_cons_neg (Bool.eq_false_iff.2 h), h]

/-- No farther than needed: here, or else on. -/
theorem run_span_lazy_cons : run (span false p) ⟨b, c :: s⟩ g k =
    (k ⟨b, c :: s⟩ g <|> if p c then run (span false p) ⟨some c, s⟩ g k else none) := by
  rw [run_span_lazy]
  by_cases h : p c
  · rw [Place.stops_cons_pos h, List.reverse_append, if_pos h, run_span_lazy]
    simp only [List.reverse_singleton, List.singleton_append, List.findSome?_cons]
    cases k ⟨b, c :: s⟩ g <;> rfl
  · simp [Place.stops_cons_neg (Bool.eq_false_iff.2 h), h]

theorem run_some1_cons_eq :
    run (some1 p) ⟨b, c :: s⟩ g k = if p c then run (span true p) ⟨some c, s⟩ g k else none := rfl

variable {d : Char} {b g k} {v : β}

/-- A lazy walk ends at the first `d`, if nothing but a `d` may follow it. -/
theorem run_span_lazy_upTo {w s : List Char} (hk : ∀ y h, y.rest.head? ≠ some d → k y h = none) (hw : d ∉ w)
    (hv : k ⟨past b w, d :: s⟩ g = some v) : run (span false fun _ => true) ⟨b, w ++ d :: s⟩ g k = some v := by
  induction w generalizing b with
  | nil =>
    rw [List.nil_append, run_span_lazy_cons, ← past_nil b, hv]
    rfl
  | cons e w ih =>
    have he : e ≠ d := fun he => hw (by simp [he])
    rw [List.cons_append, run_span_lazy_cons, hk _ _ (by simpa using he), if_pos rfl]
    exact ih (fun hm => hw (by simp [hm])) (by simpa using hv)

/-- A greedy walk ends at the last `d`, if nothing but a `d` may follow it. -/
theorem run_span_greedy_upTo {w s : List Char} (hk : ∀ y h, y.rest.head? ≠ some d → k y h = none) (hs : d ∉ s)
    (hv : k ⟨past b w, d :: s⟩ g = some v) : run (span true fun _ => true) ⟨b, w ++ d :: s⟩ g k = some v := by
  have hbehind : ∀ (s : List Char) (b : Option Char), d ∉ s → run (span true fun _ => true) ⟨b, s⟩ g k = none := by
    intro s
    induction s with
    | nil => intro b _; rw [run_span_nil, hk _ _ (by simp)]
    | cons e s ih =>
      intro b hs
      have he : e ≠ d := fun he => hs (by simp [he])
      rw [run_span_greedy_cons, if_pos rfl, ih _ fun hm => hs (by simp [hm]), hk _ _ (by simpa using he)]
      rfl
  induction w generalizing b with
  | nil =>
    rw [List.nil_append, run_span_greedy_cons, if_pos rfl, hbehind s _ hs, ← past_nil b, hv]
    rfl
  | cons e w ih =>
    rw [List.cons_append, run_span_greedy_cons, if_pos rfl, ih (by simpa using hv)]
    rfl

end Walks

/-! ## Repetition without a limit -/

/-- What is made of a match in a second step makes no difference to which match is found. -/
theorem run_map {γ : Type} (φ : β → γ) (r : Pattern) (x : Place) (g : Groups) (k : Place → Groups → Option β) :
    (run r x g fun y h => (k y h).map φ) = (run r x g k).map φ := by
  have hor : ∀ a b : Option β, (a <|> b).map φ = (a.map φ <|> b.map φ) := fun a b => by cases a <;> rfl
  have hwhen : ∀ (p : Prop) [Decidable p] (o : Option β),
      (if p then o else none).map φ = if p then o.map φ else none := fun p _ o => by split <;> rfl
  induction r generalizing x g k with
  | empty => rfl
  | one p =>
    obtain ⟨b, _ | ⟨c, s⟩⟩ := x
    · rfl
    · exact (hwhen _ _).symm
  | seq a c iha ihc =>
    rw [run_seq, run_seq, ← iha]
    exact congrArg _ (funext fun y => funext fun h => ihc y h k)
  | alt a c iha ihc => rw [run_alt, run_alt, hor, iha, ihc]
  | span greedy p =>
    rw [run, run, List.map_findSome?]
    rfl
  | some1 p =>
    obtain ⟨b, _ | ⟨c, s⟩⟩ := x
    · rfl
    · rw [run_some1_cons, run_some1_cons, hwhen, List.map_findSome?]
      rfl
  | many a iha =>
    rw [run_many, run_many]
    generalize x.rest.length = n
    induction n generalizing x g with
    | zero => rfl
    | succ n ih =>
      rw [repeatUpTo, repeatUpTo, hor, ← iha]
      congr 2
      funext y h
      rw [hwhen, ih]
  | group i a iha => exact iha x g _
  | textStart | textEnd | wordEdge => exact (hwhen _ _).symm

/-- Nothing comes of a match of which nothing is made. -/
theorem run_none (r : Pattern) (x : Place) (g : Groups) : run r x g (fun _ _ => (none : Option β)) = none := by
  have hmap : run r x g (fun _ _ => (none : Option β)) = (run r x g fun _ _ => none).map Empty.elim :=
    run_map Empty.elim r x g fun _ _ => none
  rw [hmap]
  cases run r x g (fun _ _ => (none : Option Empty)) with
  | none => rfl
  | some v => exact v.elim

/-- A limit that is no less than the text makes no difference. -/
theorem repeatUpTo_eq {a : Pattern} {k : Place → Groups → Option β} {n m : Nat} {x : Place} (g : Groups)
    (hn : x.rest.length ≤ n) (hm : x.rest.length ≤ m) :
    repeatUpTo (run a) k n x g = repeatUpTo (run a) k m x g := by
  induction n generalizing m x g with
  | zero =>
    cases m with
    | zero => rfl
    | succ m =>
      have hx : x.rest.length = 0 := by omega
      rw [repeatUpTo, repeatUpTo]
      simp only [hx, Nat.not_lt_zero, if_false]
      rw [run_none]
      rfl
  | succ n ih =>
    cases m with
    | zero =>
      have hx : x.rest.length = 0 := by omega
      rw [repeatUpTo, repeatUpTo]
      simp only [hx, Nat.not_lt_zero, if_false]
      rw [run_none]
      rfl
    | succ m =>
      rw [repeatUpTo, repeatUpTo]
      congr 2
      funext y h
      split
      · exact ih h (by omega) (by omega)
      · rfl

/-- Once more, if that gets on, or else on from here. -/
theorem run_many_eq (a : Pattern) (x : Place) (g : Groups) (k : Place → Groups → Option β) :
    run (many a) x g k =
      ((run a x g fun y h => if y.rest.length < x.rest.length then run (many a) y h k else none) <|> k x g) := by
  rw [run_many, repeatUpTo_eq g (Nat.le_refl _) (Nat.le_succ _), repeatUpTo]
  congr 2
  funext y h
  split
  · next hy => rw [run_many, repeatUpTo_eq h (by omega) (Nat.le_refl _)]
  · rfl

/-! ## What cannot be matched -/

/-- The texts that a pattern may take, places aside. -/
def Spells : Pattern → List Char → Prop
  | empty, w => w = []
  | one p, w => ∃ c, p c = true ∧ w = [c]
  | seq a c, w => ∃ u v, w = u ++ v ∧ Spells a u ∧ Spells c v
  | alt a c, w => Spells a w ∨ Spells c w
  | span _ p, w => ∀ c ∈ w, p c = true
  | some1 p, w => w ≠ [] ∧ ∀ c ∈ w, p c = true
  | many a, w => ∃ parts : List (List Char), w = parts.flatten ∧ ∀ u ∈ parts, Spells a u
  | group _ a, w => Spells a w
  | textStart, w | textEnd, w | wordEdge, w => w = []

theorem orElse_eq_some_iff {α : Type} {a b : Option α} {v : α} :
    (a <|> b) = some v ↔ a = some v ∨ a = none ∧ b = some v := by
  cases a <;> simp

theorem spells_of_mem_stops {p : Char → Bool} {x y : Place} (h : y ∈ x.stops p) :
    ∃ w, x.rest = w ++ y.rest ∧ y.before = past x.before w ∧ ∀ c ∈ w, p c = true := by
  obtain ⟨b, s⟩ := x
  induction s generalizing b with
  | nil =>
    rw [Place.stops_nil, List.mem_singleton] at h
    exact ⟨[], by simp [h], by simp [h], by simp⟩
  | cons c s ih =>
    by_cases hc : p c
    · rw [Place.stops_cons_pos hc, List.mem_append, List.mem_singleton] at h
      rcases h with h | rfl
      · obtain ⟨w, hw, hbefore, hp⟩ := ih (some c) h
        exact ⟨c :: w, congrArg (c :: ·) hw, by simpa using hbefore, by simpa [hc] using hp⟩
      · exact ⟨[], rfl, rfl, by simp⟩
    · rw [Place.stops_cons_neg (Bool.eq_false_iff.2 hc), List.mem_singleton] at h
      exact ⟨[], by simp [h], by simp [h], by simp⟩

/-- The parts whose texts are kept under a number. -/
def kept (i : Nat) : Pattern → List Pattern
  | seq a c | alt a c => kept i a ++ kept i c
  | many a => kept i a
  | group j a => (if j = i then [a] else []) ++ kept i a
  | _ => []

/-- Every match has a group of the number. -/
def always (i : Nat) : Pattern → Bool
  | seq a c => always i a || always i c
  | alt a c => always i a && always i c
  | group j a => j == i || always i a
  | _ => false

/-- The groups are texts of parts of the pattern, and none is missing that every match has. -/
def KeepsGroups (r : Pattern) (spans : Groups) : Prop :=
  (∀ e ∈ spans, ∃ a ∈ kept e.1 r, Spells a e.2.text) ∧ ∀ i, always i r = true → ∃ e ∈ spans, e.1 = i

theorem keepsGroups_nil {r : Pattern} (h : ∀ i, always i r = false) : KeepsGroups r [] :=
  ⟨fun e he => absurd he List.not_mem_nil, fun i hi => absurd hi (by simp [h i])⟩

theorem KeepsGroups.seq {a c : Pattern} {s t : Groups} (ha : KeepsGroups a s) (hc : KeepsGroups c t) :
    KeepsGroups (seq a c) (t ++ s) := by
  refine ⟨fun e he => ?_, fun i hi => ?_⟩
  · rcases List.mem_append.1 he with he | he
    · obtain ⟨d, hd, hspells⟩ := hc.1 e he
      exact ⟨d, List.mem_append_right _ hd, hspells⟩
    · obtain ⟨d, hd, hspells⟩ := ha.1 e he
      exact ⟨d, List.mem_append_left _ hd, hspells⟩
  · rw [always, Bool.or_eq_true] at hi
    rcases hi with hi | hi
    · obtain ⟨e, he, rfl⟩ := ha.2 i hi
      exact ⟨e, List.mem_append_right t he, rfl⟩
    · obtain ⟨e, he, rfl⟩ := hc.2 i hi
      exact ⟨e, List.mem_append_left s he, rfl⟩

theorem KeepsGroups.alt_left {a : Pattern} {s : Groups} (h : KeepsGroups a s) (c : Pattern) :
    KeepsGroups (alt a c) s := by
  refine ⟨fun e he => ?_, fun i hi => ?_⟩
  · obtain ⟨d, hd, hspells⟩ := h.1 e he
    exact ⟨d, List.mem_append_left _ hd, hspells⟩
  · rw [always, Bool.and_eq_true] at hi
    exact h.2 i hi.1

theorem KeepsGroups.alt_right {c : Pattern} {s : Groups} (h : KeepsGroups c s) (a : Pattern) :
    KeepsGroups (alt a c) s := by
  refine ⟨fun e he => ?_, fun i hi => ?_⟩
  · obtain ⟨d, hd, hspells⟩ := h.1 e he
    exact ⟨d, List.mem_append_right _ hd, hspells⟩
  · rw [always, Bool.and_eq_true] at hi
    exact h.2 i hi.2

theorem KeepsGroups.many_append {a : Pattern} {s t : Groups} (ha : KeepsGroups a s) (h : KeepsGroups (many a) t) :
    KeepsGroups (many a) (t ++ s) := by
  refine ⟨fun e he => ?_, fun i hi => absurd hi (by simp [always])⟩
  rcases List.mem_append.1 he with he | he
  · exact h.1 e he
  · exact ha.1 e he

theorem KeepsGroups.group {a : Pattern} {s : Groups} (h : KeepsGroups a s) (i : Nat) {p : Span} (hp : Spells a p.text) :
    KeepsGroups (group i a) ((i, p) :: s) := by
  refine ⟨fun e he => ?_, fun j hj => ?_⟩
  · rcases List.mem_cons.1 he with rfl | he
    · exact ⟨a, by simp [kept], hp⟩
    · obtain ⟨d, hd, hspells⟩ := h.1 e he
      exact ⟨d, List.mem_append_right _ hd, hspells⟩
  · rw [always, Bool.or_eq_true, beq_iff_eq] at hj
    rcases hj with rfl | hj
    · exact ⟨(i, p), List.mem_cons_self, rfl⟩
    · obtain ⟨e, he, rfl⟩ := h.2 j hj
      exact ⟨e, List.mem_cons_of_mem _ he, rfl⟩

/-- A run of the pattern goes on behind what it takes. This is a text that the pattern spells, and so are its groups. -/
def Sound (r : Pattern) : Prop :=
  ∀ ⦃β : Type⦄ ⦃x : Place⦄ ⦃g : Groups⦄ ⦃k : Place → Groups → Option β⦄ ⦃v : β⦄, run r x g k = some v →
    ∃ w y spans, x.rest = w ++ y.rest ∧ y.before = past x.before w ∧ Spells r w ∧ KeepsGroups r spans ∧
      k y (spans ++ g) = some v

theorem sound_one (p : Char → Bool) : Sound (one p) := by
  rintro β ⟨b, _ | ⟨c, s⟩⟩ g k v h
  · cases h
  · rw [run_one_cons] at h
    split at h
    · next hc => exact ⟨[c], _, [], rfl, rfl, ⟨c, hc, rfl⟩, keepsGroups_nil fun _ => rfl, h⟩
    · cases h

theorem Sound.seq {a c : Pattern} (ha : Sound a) (hc : Sound c) : Sound (seq a c) := by
  intro β x g k v h
  obtain ⟨u, y, s, hu, hub, hau, hs, hy⟩ := ha h
  obtain ⟨w, z, t, hw, hwb, hcw, ht, hz⟩ := hc hy
  rw [← List.append_assoc] at hz
  exact ⟨u ++ w, z, t ++ s, by rw [hu, hw, List.append_assoc], by rw [hwb, hub, past_append], ⟨u, w, rfl, hau, hcw⟩,
    hs.seq ht, hz⟩

theorem Sound.alt {a c : Pattern} (ha : Sound a) (hc : Sound c) : Sound (alt a c) := by
  intro β x g k v h
  rw [run_alt, orElse_eq_some_iff] at h
  rcases h with h | ⟨-, h⟩
  · obtain ⟨w, y, s, hw, hwb, haw, hs, hy⟩ := ha h
    exact ⟨w, y, s, hw, hwb, Or.inl haw, hs.alt_left c, hy⟩
  · obtain ⟨w, y, s, hw, hwb, hcw, hs, hy⟩ := hc h
    exact ⟨w, y, s, hw, hwb, Or.inr hcw, hs.alt_right a, hy⟩

theorem sound_span (greedy : Bool) (p : Char → Bool) : Sound (span greedy p) := by
  intro β x g k v h
  obtain ⟨y, hy, hk⟩ := List.exists_of_findSome?_eq_some h
  have hmem : y ∈ x.stops p := by
    cases greedy
    · exact List.mem_reverse.1 hy
    · exact hy
  obtain ⟨w, hw, hwb, hp⟩ := spells_of_mem_stops hmem
  exact ⟨w, y, [], hw, hwb, hp, keepsGroups_nil fun _ => rfl, hk⟩

theorem sound_some1 (p : Char → Bool) : Sound (some1 p) := by
  rintro β ⟨b, _ | ⟨c, s⟩⟩ g k v h
  · cases h
  · rw [run_some1_cons] at h
    split at h
    · next hc =>
      obtain ⟨y, hy, hk⟩ := List.exists_of_findSome?_eq_some h
      obtain ⟨w, hw, hwb, hp⟩ := spells_of_mem_stops hy
      exact ⟨c :: w, y, [], congrArg (c :: ·) hw, by simpa using hwb, ⟨by simp, by simpa [hc] using hp⟩,
        keepsGroups_nil fun _ => rfl, hk⟩
    · cases h

/-- By induction on how often the pattern may be repeated. -/
theorem Sound.many {a : Pattern} (ha : Sound a) : Sound (many a) := by
  intro β x g k v h
  have hnil : KeepsGroups (.many a) [] := keepsGroups_nil fun _ => rfl
  rw [run_many] at h
  generalize x.rest.length = n at h
  induction n generalizing x g with
  | zero => exact ⟨[], x, [], rfl, rfl, ⟨[], rfl, by simp⟩, hnil, h⟩
  | succ n ih =>
    rw [repeatUpTo, orElse_eq_some_iff] at h
    rcases h with h | ⟨-, h⟩
    · obtain ⟨u, y, s, hu, hub, hau, hs, hy⟩ := ha h
      split at hy
      · obtain ⟨w, z, t, hw, hwb, ⟨parts, hparts, hall⟩, ht, hz⟩ := ih hy
        rw [← List.append_assoc] at hz
        refine ⟨u ++ w, z, t ++ s, by rw [hu, hw, List.append_assoc], by rw [hwb, hub, past_append],
          ⟨u :: parts, by simp [hparts], ?_⟩, hs.many_append ht, hz⟩
        simpa [hau] using hall
      · cases hy
    · exact ⟨[], x, [], rfl, rfl, ⟨[], rfl, by simp⟩, hnil, h⟩

theorem Sound.group {a : Pattern} (ha : Sound a) (i : Nat) : Sound (group i a) := by
  intro β x g k v h
  obtain ⟨w, y, s, hw, hwb, haw, hs, hy⟩ := ha h
  have htext : (⟨x.rest, y.rest⟩ : Span).text = w := by simp [Span.text, hw]
  exact ⟨w, y, (i, ⟨x.rest, y.rest⟩) :: s, hw, hwb, haw, hs.group i (htext ▸ haw), hy⟩

/-- **What was matched is a text that the pattern spells**, and so are its groups. -/
theorem sound (r : Pattern) : Sound r := by
  induction r with
  | empty => exact fun β x g k v h => ⟨[], x, [], rfl, rfl, rfl, keepsGroups_nil fun _ => rfl, h⟩
  | one p => exact sound_one p
  | seq a c iha ihc => exact iha.seq ihc
  | alt a c iha ihc => exact iha.alt ihc
  | span greedy p => exact sound_span greedy p
  | some1 p => exact sound_some1 p
  | many a iha => exact iha.many
  | group i a iha => exact iha.group i
  | textStart | textEnd | wordEdge =>
    intro β x g k v h
    simp only [run] at h
    split at h
    · exact ⟨[], x, [], rfl, rfl, rfl, keepsGroups_nil fun _ => rfl, h⟩
    · cases h

theorem spells_of_run {r : Pattern} {x : Place} {g : Groups} {k : Place → Groups → Option β} {v : β}
    (h : run r x g k = some v) : ∃ w y g', x.rest = w ++ y.rest ∧ Spells r w ∧ k y g' = some v := by
  obtain ⟨w, y, spans, hw, -, hspells, -, hk⟩ := sound r h
  exact ⟨w, y, _, hw, hspells, hk⟩

theorem spells_char {d : Char} {w : List Char} : Spells (char d) w ↔ w = [d] := by
  simp [char, Spells]

theorem spells_text {s : String} {w : List Char} : Spells (text s) w ↔ w = s.toList := by
  rw [text]
  generalize s.toList = l
  induction l generalizing w with
  | nil => rfl
  | cons d l ih =>
    show (∃ u v, w = u ++ v ∧ Spells (char d) u ∧ Spells _ v) ↔ _
    simp [spells_char, ih]

theorem spells_chain_cons {a : Pattern} {ps : List Pattern} {w : List Char} :
    Spells (chain (a :: ps)) w ↔ ∃ u v, w = u ++ v ∧ Spells a u ∧ Spells (chain ps) v := Iff.rfl

/-- A chain goes on behind what its first part takes. -/
theorem exists_of_run_chain_cons {a : Pattern} {ps : List Pattern} {x : Place} {g : Groups}
    {k : Place → Groups → Option β} {v : β} (h : run (chain (a :: ps)) x g k = some v) :
    ∃ w rest g', x.rest = w ++ rest ∧ Spells a w ∧ run (chain ps) ⟨past x.before w, rest⟩ g' k = some v := by
  rw [run_chain_cons] at h
  obtain ⟨w, ⟨b, rest⟩, spans, hw, hb, hspells, -, hk⟩ := sound a h
  obtain rfl : b = past x.before w := hb
  exact ⟨w, rest, _, hw, hspells, hk⟩

theorem exists_of_run_firstOf {ps : List Pattern} {x : Place} {g : Groups} {k : Place → Groups → Option β} {v : β}
    (hne : ps ≠ []) (h : run (firstOf ps) x g k = some v) : ∃ a ∈ ps, run a x g k = some v := by
  induction ps with
  | nil => exact absurd rfl hne
  | cons p ps ih =>
    cases ps with
    | nil => exact ⟨p, List.mem_cons_self, h⟩
    | cons q ps =>
      rw [firstOf, run_alt, orElse_eq_some_iff] at h
      · rcases h with h | ⟨-, h⟩
        · exact ⟨p, List.mem_cons_self, h⟩
        · obtain ⟨a, ha, hrun⟩ := ih (List.cons_ne_nil q ps) h
          exact ⟨a, List.mem_cons_of_mem p ha, hrun⟩
      · exact List.cons_ne_nil q ps

/-- What a part of a chain took is within what the chain took. -/
theorem exists_infix_of_spells_chain {a : Pattern} {ps : List Pattern} {w : List Char} (ha : a ∈ ps)
    (h : Spells (chain ps) w) : ∃ u, u <:+: w ∧ Spells a u := by
  induction ps generalizing w with
  | nil => cases ha
  | cons c ps ih =>
    obtain ⟨u, v, rfl, hc, hps⟩ := h
    rcases List.mem_cons.1 ha with rfl | ha
    · exact ⟨u, (List.prefix_append u v).isInfix, hc⟩
    · obtain ⟨u', hu', hau'⟩ := ih ha hps
      exact ⟨u', hu'.trans (List.suffix_append u v).isInfix, hau'⟩

/-- What a chain took ends with what its last part took. -/
theorem exists_suffix_of_spells_chain (ps : List Pattern) {a : Pattern} {w : List Char}
    (h : Spells (chain (ps ++ [a])) w) : ∃ u v, w = u ++ v ∧ Spells a v := by
  induction ps generalizing w with
  | nil =>
    obtain ⟨v, u, rfl, hv, rfl⟩ := spells_chain_cons.1 h
    exact ⟨[], v, List.append_nil v, hv⟩
  | cons p ps ih =>
    obtain ⟨u, w, rfl, -, hw⟩ := spells_chain_cons.1 h
    obtain ⟨u', v, rfl, hv⟩ := ih hw
    exact ⟨u ++ u', v, (List.append_assoc u u' v).symm, hv⟩

/-- The pattern matches nothing at a place. -/
def Fails (r : Pattern) (x : Place) : Prop :=
  ∀ (β : Type) (g : Groups) (k : Place → Groups → Option β), run r x g k = none

/-- No text that the pattern spells begins at the place. -/
theorem fails_of_spells {r : Pattern} {b : Option Char} {s : List Char} (h : ∀ w rest, s = w ++ rest → ¬ Spells r w) :
    Fails r ⟨b, s⟩ := by
  intro β g k
  cases hr : run r ⟨b, s⟩ g k with
  | none => rfl
  | some v =>
    obtain ⟨w, y, -, hw, hs, -⟩ := spells_of_run hr
    exact absurd hs (h w y.rest hw)

theorem Fails.seq {a : Pattern} {x : Place} (h : Fails a x) (c : Pattern) : Fails (seq a c) x :=
  fun β g k => h β g fun y g' => run c y g' k

theorem fails_firstOf {ps : List Pattern} {x : Place} (hne : ps ≠ []) (h : ∀ a ∈ ps, Fails a x) :
    Fails (firstOf ps) x := by
  intro β g k
  cases hrun : run (firstOf ps) x g k with
  | none => rfl
  | some v =>
    obtain ⟨a, ha, hrun⟩ := exists_of_run_firstOf hne hrun
    rw [h a ha] at hrun
    cases hrun

theorem fails_one {p : Char → Bool} {b : Option Char} {s : List Char} (h : s.head?.any p = false) :
    Fails (one p) ⟨b, s⟩ := by
  intro β g k
  cases s with
  | nil => rfl
  | cons c s =>
    rw [run_one_cons, if_neg]
    simpa using h

/-! ## What is matched -/

/-- Behind `b` and in front of `rest` the pattern takes `w`, unless what comes after refuses that. The texts are those
of the groups, the latest first. -/
def Takes (r : Pattern) (b : Option Char) (w rest : List Char) (texts : List (Nat × List Char)) : Prop :=
  ∃ spans : Groups, spans.map (fun e => (e.1, e.2.text)) = texts ∧
    ∀ (β : Type) (g : Groups) (k : Place → Groups → Option β) (v : β),
      k ⟨past b w, rest⟩ (spans ++ g) = some v → run r ⟨b, w ++ rest⟩ g k = some v

section Takes

variable {a c : Pattern} {p : Char → Bool} {b : Option Char} {w w' rest : List Char} {t t' : List (Nat × List Char)}

theorem takes_empty : Takes empty b [] rest [] := ⟨[], rfl, fun _ _ _ _ h => h⟩

theorem takes_one {d : Char} (h : p d = true) : Takes (one p) b [d] rest [] := by
  refine ⟨[], rfl, fun β g k v hk => ?_⟩
  rw [List.singleton_append, run_one_cons, if_pos h]
  exact hk

theorem Takes.seq (h : Takes a b w (w' ++ rest) t) (h' : Takes c (past b w) w' rest t') :
    Takes (seq a c) b (w ++ w') rest (t' ++ t) := by
  obtain ⟨spans, hspans, hrun⟩ := h
  obtain ⟨spans', hspans', hrun'⟩ := h'
  refine ⟨spans' ++ spans, by rw [List.map_append, hspans, hspans'], fun β g k v hk => ?_⟩
  rw [List.append_assoc, run_seq]
  refine hrun β g _ v (hrun' β _ k v ?_)
  rwa [past_append, List.append_assoc] at hk

theorem Takes.alt_left (h : Takes a b w rest t) (c : Pattern) : Takes (alt a c) b w rest t := by
  obtain ⟨spans, hspans, hrun⟩ := h
  refine ⟨spans, hspans, fun β g k v hk => ?_⟩
  rw [run_alt, hrun β g k v hk]
  rfl

theorem Takes.alt_right (h : Takes c b w rest t) (ha : Fails a ⟨b, w ++ rest⟩) : Takes (alt a c) b w rest t := by
  obtain ⟨spans, hspans, hrun⟩ := h
  refine ⟨spans, hspans, fun β g k v hk => ?_⟩
  rw [run_alt, ha β g k]
  exact hrun β g k v hk

/-- A walk goes as far as the class. -/
theorem takes_span (hw : ∀ d ∈ w, p d = true) (hrest : rest.head?.any p = false) :
    Takes (span true p) b w rest [] := by
  refine ⟨[], rfl, fun β g k v hk => ?_⟩
  induction w generalizing b with
  | nil =>
    cases rest with
    | nil => rw [List.nil_append, run_span_nil]; exact hk
    | cons d rest =>
      have hd : p d = false := hrest
      rw [List.nil_append, run_span_greedy_cons, hd]
      exact hk
  | cons d w ih =>
    have hd : p d = true := hw d (by simp)
    rw [List.cons_append, run_span_greedy_cons, if_pos hd, ih (fun e he => hw e (by simp [he])) (by simpa using hk)]
    rfl

theorem takes_some1 (hne : w ≠ []) (hw : ∀ d ∈ w, p d = true) (hrest : rest.head?.any p = false) :
    Takes (some1 p) b w rest [] := by
  obtain ⟨d, u, rfl⟩ := List.exists_cons_of_ne_nil hne
  have hd : p d = true := hw d (by simp)
  obtain ⟨spans, hspans, hrun⟩ :=
    takes_span (b := some d) (fun e (he : e ∈ u) => hw e (by simp [he])) hrest
  refine ⟨spans, hspans, fun β g k v hk => ?_⟩
  rw [List.cons_append, run_some1_cons_eq, if_pos hd]
  exact hrun β g k v (by simpa using hk)

theorem takes_many_nil (h : Fails a ⟨b, rest⟩) : Takes (many a) b [] rest [] := by
  refine ⟨[], rfl, fun β g k v hk => ?_⟩
  rw [List.nil_append, run_many_eq, h]
  exact hk

theorem Takes.many_cons (h : Takes a b w (w' ++ rest) t) (hne : w ≠ []) (h' : Takes (many a) (past b w) w' rest t') :
    Takes (many a) b (w ++ w') rest (t' ++ t) := by
  obtain ⟨spans, hspans, hrun⟩ := h
  obtain ⟨spans', hspans', hrun'⟩ := h'
  refine ⟨spans' ++ spans, by rw [List.map_append, hspans, hspans'], fun β g k v hk => ?_⟩
  have hlength : (w' ++ rest).length < (w ++ (w' ++ rest)).length := by
    have := List.length_pos_iff.2 hne
    simp only [List.length_append]
    omega
  rw [List.append_assoc, run_many_eq, hrun β g _ v]
  · rfl
  · dsimp only
    rw [if_pos hlength]
    refine hrun' β _ k v ?_
    rwa [past_append, List.append_assoc] at hk

/-- The text of a span that lies in front of `rest`. -/
theorem Span.text_append (w rest : List Char) : (⟨w ++ rest, rest⟩ : Span).text = w := by
  simp [Span.text]

theorem Takes.group (h : Takes a b w rest t) (i : Nat) : Takes (group i a) b w rest ((i, w) :: t) := by
  obtain ⟨spans, hspans, hrun⟩ := h
  refine ⟨(i, ⟨w ++ rest, rest⟩) :: spans, by simp [hspans, Span.text_append], fun β g k v hk => ?_⟩
  rw [run_group]
  exact hrun β g _ v hk

theorem takes_textStart : Takes textStart none [] rest [] := ⟨[], rfl, fun _ _ _ _ h => h⟩

theorem takes_textEnd : Takes textEnd b [] [] [] := ⟨[], rfl, fun _ _ _ _ h => h⟩

theorem takes_wordEdge (h : (⟨b, rest⟩ : Place).atWordEdge = true) : Takes wordEdge b [] rest [] := by
  refine ⟨[], rfl, fun β g k v hk => ?_⟩
  rw [List.nil_append, run_wordEdge, if_pos h]
  exact hk

/-! ### Common forms -/

theorem takes_char (d : Char) : Takes (char d) b [d] rest [] := takes_one (by simp)

theorem takes_text (s : String) : Takes (text s) b s.toList rest [] := by
  refine ⟨[], rfl, fun β g k v hk => ?_⟩
  have h := run_text_append g k s.toList b rest
  rw [String.ofList_toList] at h
  exact h.trans hk

theorem Takes.opt (h : Takes a b w rest t) : Takes (opt a) b w rest t := h.alt_left empty

theorem takes_opt_nil (h : Fails a ⟨b, rest⟩) : Takes (opt a) b [] rest [] := takes_empty.alt_right h

theorem takes_chain_nil : Takes (chain []) b [] rest [] := takes_empty

theorem Takes.chain_cons {ps : List Pattern} (h : Takes a b w (w' ++ rest) t)
    (h' : Takes (chain ps) (past b w) w' rest t') : Takes (chain (a :: ps)) b (w ++ w') rest (t' ++ t) := h.seq h'

theorem run_chain_append (ps qs : List Pattern) (x : Place) (g : Groups) (k : Place → Groups → Option β) :
    run (chain (ps ++ qs)) x g k = run (chain ps) x g fun y h => run (chain qs) y h k := by
  induction ps generalizing x g with
  | nil => rfl
  | cons p ps ih =>
    rw [List.cons_append, run_chain_cons, run_chain_cons]
    exact congrArg _ (funext fun y => funext fun h => ih y h)

theorem Takes.chain_append {ps qs : List Pattern} (h : Takes (chain ps) b w (w' ++ rest) t)
    (h' : Takes (chain qs) (past b w) w' rest t') : Takes (chain (ps ++ qs)) b (w ++ w') rest (t' ++ t) := by
  obtain ⟨spans, hspans, hrun⟩ := h.seq h'
  exact ⟨spans, hspans, fun β g k v hk => (run_chain_append ps qs _ g k).trans (hrun β g k v hk)⟩

theorem run_chain_char_eq_none {ps : List Pattern} {d : Char} {y : Place} {g : Groups} {k : Place → Groups → Option β}
    (h : y.rest.head? ≠ some d) : run (chain (char d :: ps)) y g k = none := by
  obtain ⟨e, s⟩ := y
  refine (fails_one ?_).seq (chain ps) β g k
  cases s with
  | nil => rfl
  | cons f s => simpa using h

/-- Anything up to the next `d`, if what follows matches there. -/
theorem Takes.chain_lazy_upTo {ps : List Pattern} {d : Char} (h : Takes (chain ps) (some d) w' rest t) (hw : d ∉ w)
    (i : Nat) : Takes (chain (Pattern.group i (span false fun _ => true) :: char d :: ps)) b (w ++ d :: w') rest
      (t ++ [(i, w)]) := by
  obtain ⟨spans, hspans, hrun⟩ := h
  refine ⟨spans ++ [(i, ⟨w ++ d :: (w' ++ rest), d :: (w' ++ rest)⟩)],
    by simp [hspans, Span.text_append], fun β g k v hk => ?_⟩
  simp only [List.append_assoc, List.cons_append, run_chain_cons, run_group]
  refine run_span_lazy_upTo (fun y g' hy => run_chain_char_eq_none hy) hw ?_
  simp only [char, run_one_cons, beq_self_eq_true, if_true]
  exact hrun β _ k v (by simpa using hk)

/-- Anything up to the last `d`, if what follows matches there. -/
theorem Takes.chain_greedy_upTo {ps : List Pattern} {d : Char} (h : Takes (chain ps) (some d) w' rest t)
    (hrest : d ∉ w' ++ rest) (i : Nat) :
    Takes (chain (Pattern.group i (span true fun _ => true) :: char d :: ps)) b (w ++ d :: w') rest
      (t ++ [(i, w)]) := by
  obtain ⟨spans, hspans, hrun⟩ := h
  refine ⟨spans ++ [(i, ⟨w ++ d :: (w' ++ rest), d :: (w' ++ rest)⟩)],
    by simp [hspans, Span.text_append], fun β g k v hk => ?_⟩
  simp only [List.append_assoc, List.cons_append, run_chain_cons, run_group]
  refine run_span_greedy_upTo (fun y g' hy => run_chain_char_eq_none hy) hrest ?_
  simp only [char, run_one_cons, beq_self_eq_true, if_true]
  exact hrun β _ k v (by simpa using hk)

end Takes

end FluentTables.Pattern
