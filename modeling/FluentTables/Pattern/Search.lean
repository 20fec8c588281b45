import FluentTables.Pattern.Basic

/-!
# Searching with a pattern

`search` finds the leftmost match, `matchesIn` all matches from left to right, each from where the last one ended,
and `replaceAll` puts a text in the place of each.
-/

namespace FluentTables.Pattern

/-- A match found by a search. -/
structure Match where
  /-- The text that the search passed over, last character first. -/
  passed : List Char
  groups : Groups
  stop : Place

namespace Match

/-- The text of a group; group 0 is the whole match. -/
def group? (m : Match) (i : Nat) : Option (List Char) := (m.groups.find? (·.1 == i)).map (·.2.text)

/-- The text of a group, empty if the group took no part. -/
def group (m : Match) (i : Nat) : List Char := (m.group? i).getD []

end Match

/-- The match of a pattern at a place. -/
def matchAt (r : Pattern) (passed : List Char) (x : Place) : Option Match :=
  (Pattern.group 0 r).run x [] fun y g => some ⟨passed, g, y⟩

/-- The pattern begins with characters of a class, and the given one is of that class. -/
def leads : Pattern → Char → Bool
  | seq (group _ (some1 p)) _, c => p c
  | _, _ => false

/-- The leftmost match at a place or after it. After `tried`, a character of the leading class is passed over: a
match from there would have been one from the place that was tried. -/
def searchFrom (r : Pattern) (tried : Bool) (passed : List Char) (before : Option Char) :
    List Char → Option Match
  | [] => r.matchAt passed ⟨before, []⟩
  | c :: s =>
    if tried && r.leads c then searchFrom r true (c :: passed) (some c) s
    else match r.matchAt passed ⟨before, c :: s⟩ with
      | some m => some m
      | none => searchFrom r (r.leads c) (c :: passed) (some c) s

/-- The leftmost match at a place or after it. -/
def searchAt (r : Pattern) (x : Place) : Option Match := r.searchFrom false [] x.before x.rest

/-- The leftmost match in a text. -/
def search (r : Pattern) (s : List Char) : Option Match := r.searchAt ⟨none, s⟩

/-- A pattern matches somewhere in a text. -/
def isIn (r : Pattern) (s : List Char) : Bool := (r.search s).isSome

/-- At most `n` matches from a place on. A match of nothing ends the list. -/
def matchesFrom (r : Pattern) : Nat → Place → List Match
  | 0, _ => []
  | n + 1, x =>
    match r.searchAt x with
    | none => []
    | some m => m :: if m.stop.rest.length < x.rest.length then matchesFrom r n m.stop else []

/-- All matches in a text, from left to right, none overlapping. -/
def matchesIn (r : Pattern) (s : List Char) : List Match := r.matchesFrom (s.length + 1) ⟨none, s⟩

/-- The text from a place on with its matches replaced, at most `n` of them. -/
def replaceFrom (r : Pattern) (f : Match → List Char) : Nat → Place → List Char
  | 0, x => x.rest
  | n + 1, x =>
    match r.searchAt x with
    | none => x.rest
    | some m =>
      m.passed.reverse ++ f m ++
        if m.stop.rest.length < x.rest.length then replaceFrom r f n m.stop else m.stop.rest

/-- A text with every match replaced. -/
def replaceAll (r : Pattern) (f : Match → List Char) (s : List Char) : List Char :=
  r.replaceFrom f (s.length + 1) ⟨none, s⟩

/-- Where a run of the leading class was tried in vain, there is no match further on in the run. -/
theorem matchAt_eq_none_of_leads {r : Pattern} {b : Option Char} {c d : Char} {s p q : List Char}
    (hc : r.leads c = true) (hd : r.leads d = true) (h : r.matchAt p ⟨b, c :: d :: s⟩ = none) :
    r.matchAt q ⟨some c, d :: s⟩ = none := by
  match r with
  | seq (group i (some1 a)) t =>
    simp only [leads] at hc hd
    rw [← Option.not_isSome_iff_eq_none, matchAt, run_group, run_seq, run_group, run_some1_cons, if_pos hd,
      List.isSome_findSome?]
    rw [← Option.not_isSome_iff_eq_none, matchAt, run_group, run_seq, run_group, run_some1_cons, if_pos hc,
      List.isSome_findSome?, Place.stops_cons_pos hd, List.any_append, Bool.or_eq_true, not_or] at h
    intro hn
    refine h.1 ?_
    rw [List.any_eq_true] at hn ⊢
    obtain ⟨y, hy, hr⟩ := hn
    refine ⟨y, hy, ?_⟩
    rw [← hr]
    exact isSome_run_congr t y _ _ fun _ _ _ => rfl

/-- The leftmost match, every place being tried. -/
def firstMatch (r : Pattern) (passed : List Char) (before : Option Char) : List Char → Option Match
  | [] => r.matchAt passed ⟨before, []⟩
  | c :: s =>
    match r.matchAt passed ⟨before, c :: s⟩ with
    | some m => some m
    | none => firstMatch r (c :: passed) (some c) s

/-- Passing over the rest of a run that was tried in vain loses no match. -/
theorem searchFrom_eq_firstMatch (r : Pattern) (t : Bool) (p : List Char) (b : Option Char) (s : List Char)
    (h : t = true → ∀ c u, s = c :: u → r.leads c = true → r.matchAt p ⟨b, s⟩ = none) :
    r.searchFrom t p b s = r.firstMatch p b s := by
  induction s generalizing t p b with
  | nil => rfl
  | cons c s ih =>
    have hn : r.leads c = true → r.matchAt p ⟨b, c :: s⟩ = none →
        ∀ d u, s = d :: u → r.leads d = true → r.matchAt (c :: p) ⟨some c, s⟩ = none := by
      rintro hc hm d u rfl hd
      exact matchAt_eq_none_of_leads hc hd hm
    rw [searchFrom, firstMatch]
    split
    · next ht =>
      rw [Bool.and_eq_true] at ht
      have hm := h ht.1 c s rfl ht.2
      rw [hm, ih true _ _ fun _ => hn ht.2 hm]
    · cases hm : r.matchAt p ⟨b, c :: s⟩ with
      | some m => rfl
      | none => exact ih _ _ _ fun hc => hn hc hm

/-- A search tries every place from left to right. -/
theorem searchAt_eq_firstMatch (r : Pattern) (x : Place) : r.searchAt x = r.firstMatch [] x.before x.rest :=
  r.searchFrom_eq_firstMatch false [] x.before x.rest (by simp)

end FluentTables.Pattern
