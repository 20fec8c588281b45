import FluentTables.Text.Case
import FluentTables.Text.Blank

/-!
# Text patterns

A pattern is matched by trying its possibilities in order of preference: `run r p g k` gives what `k` makes of the
first way to match `r` at the place `p` from which `k` succeeds. One equation per constructor says what is tried
first (`run_one`, `run_seq`, `run_alt`, `run_span`, `run_many`, `run_group`).
-/

namespace FluentTables

/-- A place in a text: the character before it, and what follows. -/
structure Place where
  before : Option Char := none
  rest : List Char
deriving DecidableEq

/-- Where a group began and ended: the text after each of the two places. -/
structure Span where
  start : List Char
  stop : List Char

/-- The text between the two places. -/
def Span.text (s : Span) : List Char := s.start.take (s.start.length - s.stop.length)

/-- The groups matched so far, the latest first. -/
abbrev Groups := List (Nat × Span)

/-- A pattern of text. -/
inductive Pattern where
  /-- Nothing. -/
  | empty
  /-- One character of a class. -/
  | one (p : Char → Bool)
  /-- One pattern after another. -/
  | seq (a b : Pattern)
  /-- The first pattern, or else the second. -/
  | alt (a b : Pattern)
  /-- Any number of characters of a class: as many as possible, or as few. -/
  | span (greedy : Bool) (p : Char → Bool)
  /-- One character of a class or more, as many as possible. -/
  | some1 (p : Char → Bool)
  /-- A pattern any number of times, as often as possible. -/
  | many (a : Pattern)
  /-- A pattern whose text is kept under a number. -/
  | group (i : Nat) (a : Pattern)
  /-- The start of the text. -/
  | textStart
  /-- The end of the text. -/
  | textEnd
  /-- A place between a word character and none. -/
  | wordEdge

namespace Place

/-- The places a walk over characters of a class can reach, the farthest first, before those of `acc`. -/
def stopsFrom (p : Char → Bool) (acc : List Place) (before : Option Char) : List Char → List Place
  | [] => ⟨before, []⟩ :: acc
  | c :: r =>
    if p c then stopsFrom p (⟨before, c :: r⟩ :: acc) (some c) r else ⟨before, c :: r⟩ :: acc

/-- The places a walk over characters of a class can reach, the farthest first. -/
def stops (p : Char → Bool) (x : Place) : List Place := stopsFrom p [] x.before x.rest

theorem stopsFrom_append (p : Char → Bool) (acc : List Place) (b : Option Char) (s : List Char) :
    stopsFrom p acc b s = stopsFrom p [] b s ++ acc := by
  induction s generalizing acc b with
  | nil => simp [stopsFrom]
  | cons c r ih =>
    by_cases h : p c
    · rw [stopsFrom, stopsFrom, if_pos h, if_pos h, ih, ih [_]]
      simp
    · simp [stopsFrom, h]

theorem stops_nil (p : Char → Bool) (b : Option Char) : stops p ⟨b, []⟩ = [⟨b, []⟩] := rfl

/-- A character of the class: the walk may go on, or stop before it. -/
theorem stops_cons_pos {p : Char → Bool} {c : Char} (h : p c = true) (b : Option Char) (r : List Char) :
    stops p ⟨b, c :: r⟩ = stops p ⟨some c, r⟩ ++ [⟨b, c :: r⟩] := by
  simp only [stops, stopsFrom, if_pos h]
  exact stopsFrom_append p _ _ _

/-- Another character: the walk stops. -/
theorem stops_cons_neg {p : Char → Bool} {c : Char} (h : p c = false) (b : Option Char) (r : List Char) :
    stops p ⟨b, c :: r⟩ = [⟨b, c :: r⟩] := by
  simp [stops, stopsFrom, h]

/-- Exactly one side of the place is a word character. -/
def atWordEdge (x : Place) : Bool := (x.before.any Text.isWord) != (x.rest.head?.any Text.isWord)

end Place

namespace Pattern

variable {β : Type}

/-- A step repeated at most `n` times, each time further on, as often as possible. -/
def repeatUpTo (step : Place → Groups → (Place → Groups → Option β) → Option β) (k : Place → Groups → Option β) :
    Nat → Place → Groups → Option β
  | 0, x, g => k x g
  | n + 1, x, g =>
    (step x g fun y h => if y.rest.length < x.rest.length then repeatUpTo step k n y h else none) <|> k x g

/-- What `k` makes of the first match of a pattern at a place from which it succeeds. -/
def run : Pattern → Place → Groups → (Place → Groups → Option β) → Option β
  | empty, x, g, k => k x g
  | one p, x, g, k =>
    match x.rest with
    | [] => none
    | c :: r => if p c then k ⟨some c, r⟩ g else none
  | seq a b, x, g, k => run a x g fun y h => run b y h k
  | alt a b, x, g, k => run a x g k <|> run b x g k
  | span greedy p, x, g, k =>
    (if greedy then x.stops p else (x.stops p).reverse).findSome? fun y => k y g
  | some1 p, x, g, k =>
    match x.rest with
    | [] => none
    | c :: r => if p c then (Place.stops p ⟨some c, r⟩).findSome? fun y => k y g else none
  | many a, x, g, k => repeatUpTo (run a) k x.rest.length x g
  | group i a, x, g, k => run a x g fun y h => k y ((i, ⟨x.rest, y.rest⟩) :: h)
  | textStart, x, g, k => if x.before.isNone then k x g else none
  | textEnd, x, g, k => if x.rest.isEmpty then k x g else none
  | wordEdge, x, g, k => if x.atWordEdge then k x g else none

variable (x : Place) (g : Groups) (k : Place → Groups → Option β)

@[simp] theorem run_empty : run empty x g k = k x g := rfl

@[simp] theorem run_one_nil (p : Char → Bool) (b : Option Char) : run (one p) ⟨b, []⟩ g k = none := rfl

@[simp] theorem run_one_cons (p : Char → Bool) (b : Option Char) (c : Char) (r : List Char) :
    run (one p) ⟨b, c :: r⟩ g k = if p c then k ⟨some c, r⟩ g else none := rfl

@[simp] theorem run_seq (a b : Pattern) : run (seq a b) x g k = run a x g fun y h => run b y h k := rfl

@[simp] theorem run_alt (a b : Pattern) : run (alt a b) x g k = (run a x g k <|> run b x g k) := rfl

theorem run_span_greedy (p : Char → Bool) :
    run (span true p) x g k = (x.stops p).findSome? fun y => k y g := rfl

theorem run_span_lazy (p : Char → Bool) :
    run (span false p) x g k = (x.stops p).reverse.findSome? fun y => k y g := rfl

@[simp] theorem run_some1_nil (p : Char → Bool) (b : Option Char) : run (some1 p) ⟨b, []⟩ g k = none := rfl

theorem run_some1_cons (p : Char → Bool) (b : Option Char) (c : Char) (r : List Char) :
    run (some1 p) ⟨b, c :: r⟩ g k =
      if p c then (Place.stops p ⟨some c, r⟩).findSome? fun y => k y g else none := rfl

theorem run_many (a : Pattern) : run (many a) x g k = repeatUpTo (run a) k x.rest.length x g := rfl

@[simp] theorem run_group (i : Nat) (a : Pattern) :
    run (group i a) x g k = run a x g fun y h => k y ((i, ⟨x.rest, y.rest⟩) :: h) := rfl

@[simp] theorem run_textStart : run textStart x g k = if x.before.isNone then k x g else none := rfl

@[simp] theorem run_textEnd : run textEnd x g k = if x.rest.isEmpty then k x g else none := rfl

@[simp] theorem run_wordEdge : run wordEdge x g k = if x.atWordEdge then k x g else none := rfl

/-! ## Common forms -/

/-- A character. -/
def char (c : Char) : Pattern := one (· == c)

/-- A text, character by character. -/
def text (s : String) : Pattern := s.toList.foldr (fun c r => seq (char c) r) empty

/-- An ASCII text in lower case, matched in either case. -/
def anyCase (s : String) : Pattern := s.toList.foldr (fun c r => seq (one (Text.foldChar · == c)) r) empty

/-- A pattern, or nothing. -/
def opt (a : Pattern) : Pattern := alt a empty

/-- A pattern once or more. -/
def many1 (a : Pattern) : Pattern := seq a (many a)

/-- Patterns one after another. -/
def chain (ps : List Pattern) : Pattern := ps.foldr seq empty

/-- The first pattern that matches. -/
def firstOf : List Pattern → Pattern
  | [] => empty
  | [p] => p
  | p :: ps => alt p (firstOf ps)

/-- White space, or nothing. -/
def blanks : Pattern := span true Text.isBlank

/-- White space. -/
def blanks1 : Pattern := some1 Text.isBlank

/-- A single or double quote. -/
def quote : Pattern := one fun c => c == '\'' || c == '"'

/-- Any number of characters other than one. -/
def upTo (c : Char) : Pattern := span true (· != c)

@[simp] theorem run_chain_nil : run (chain []) x g k = k x g := rfl

@[simp] theorem run_chain_cons (p : Pattern) (ps : List Pattern) :
    run (chain (p :: ps)) x g k = run p x g fun y h => run (chain ps) y h k := rfl

/-- A text matches itself. -/
theorem run_text_append (s : List Char) (b : Option Char) (r : List Char) :
    run (text (String.ofList s)) ⟨b, s ++ r⟩ g k = k ⟨s.getLast?.or b, r⟩ g := by
  rw [text, String.toList_ofList]
  induction s generalizing b with
  | nil => simp
  | cons c s ih =>
    have h : (((c :: s).foldr (fun c r => seq (char c) r) empty).run ⟨b, c :: s ++ r⟩ g k) =
        (s.foldr (fun c r => seq (char c) r) empty).run ⟨some c, s ++ r⟩ g k := by simp [char]
    rw [h, ih]
    cases s with
    | nil => simp
    | cons d s => simp [List.getLast?_cons]

/-! ## Whether a pattern matches

Whether a pattern matches does not hang on the groups matched so far, nor on what is made of the match.
-/

theorem isSome_findSome_congr {α γ δ : Type} {f : α → Option γ} {h : α → Option δ} (l : List α)
    (e : ∀ a ∈ l, (f a).isSome = (h a).isSome) : (l.findSome? f).isSome = (l.findSome? h).isSome := by
  induction l with
  | nil => rfl
  | cons a l ih =>
    have ha := e a (by simp)
    have hl := ih fun b hb => e b (by simp [hb])
    cases hf : f a <;> cases hh : h a <;> simp_all

theorem isSome_orElse {α : Type} (a b : Option α) : (a <|> b).isSome = (a.isSome || b.isSome) := by
  cases a <;> rfl

theorem isSome_repeatUpTo_congr {γ : Type}
    {step : Place → Groups → (Place → Groups → Option β) → Option β}
    {step' : Place → Groups → (Place → Groups → Option γ) → Option γ}
    (hs : ∀ x g g' k k', (∀ y h h', (k y h).isSome = (k' y h').isSome) →
      (step x g k).isSome = (step' x g' k').isSome)
    {k : Place → Groups → Option β} {k' : Place → Groups → Option γ}
    (e : ∀ y h h', (k y h).isSome = (k' y h').isSome) (n : Nat) (x : Place) (g g' : Groups) :
    (repeatUpTo step k n x g).isSome = (repeatUpTo step' k' n x g').isSome := by
  induction n generalizing x g g' with
  | zero => exact e x g g'
  | succ n ih =>
    simp only [repeatUpTo, isSome_orElse]
    rw [e x g g', hs x g g' _ (fun y h => if y.rest.length < x.rest.length then repeatUpTo step' k' n y h else none)]
    intro y h h'
    split
    · exact ih y h h'
    · rfl

theorem isSome_run_congr {γ : Type} (r : Pattern) (x : Place) (g g' : Groups)
    {k : Place → Groups → Option β} {k' : Place → Groups → Option γ}
    (e : ∀ y h h', (k y h).isSome = (k' y h').isSome) : (run r x g k).isSome = (run r x g' k').isSome := by
  induction r generalizing x g g' k k' with
  | empty => exact e x g g'
  | one p =>
    obtain ⟨b, s⟩ := x
    cases s with
    | nil => rfl
    | cons c s =>
      simp only [run_one_cons]
      split
      · exact e _ _ _
      · rfl
  | seq a b iha ihb => exact iha x g g' fun y h h' => ihb y h h' e
  | alt a b iha ihb => simp only [run_alt, isSome_orElse, iha x g g' e, ihb x g g' e]
  | span greedy p => exact isSome_findSome_congr _ fun y _ => e y g g'
  | some1 p =>
    obtain ⟨b, s⟩ := x
    cases s with
    | nil => rfl
    | cons c s =>
      simp only [run_some1_cons]
      split
      · exact isSome_findSome_congr _ fun y _ => e y g g'
      · rfl
  | many a iha => exact isSome_repeatUpTo_congr (fun x g g' k k' e => iha x g g' e) e _ x g g'
  | group i a iha => exact iha x g g' fun y h h' => e y _ _
  | textStart =>
    simp only [run_textStart]
    split
    · exact e x g g'
    · rfl
  | textEnd =>
    simp only [run_textEnd]
    split
    · exact e x g g'
    · rfl
  | wordEdge =>
    simp only [run_wordEdge]
    split
    · exact e x g g'
    · rfl

end Pattern

end FluentTables
