import FluentTables.Text.Blank

/-!
# Lines, pieces and prefixes

`splitOn` cuts a text at a separator and keeps every piece; `lines` cuts at line ends and counts a last line only
when it holds something.
-/

namespace FluentTables.Text

/-- The pieces of `acc.reverse ++ s`, where `acc` holds no separator. -/
def splitOnFrom (sep : Char) (acc : List Char) : List Char → List (List Char)
  | [] => [acc.reverse]
  | c :: r => if c == sep then acc.reverse :: splitOnFrom sep [] r else splitOnFrom sep (c :: acc) r

/-- The pieces between separators; one more than there are separators. -/
def splitOn (sep : Char) (s : List Char) : List (List Char) := splitOnFrom sep [] s

theorem splitOnFrom_no_sep {sep : Char} {a : List Char} (h : sep ∉ a) (acc r : List Char) :
    splitOnFrom sep acc (a ++ sep :: r) = (acc.reverse ++ a) :: splitOnFrom sep [] r := by
  induction a generalizing acc with
  | nil => simp [splitOnFrom]
  | cons c a ih =>
    have hc : (c == sep) = false := by
      rw [beq_eq_false_iff_ne]
      rintro rfl
      exact h (by simp)
    rw [List.cons_append, splitOnFrom, hc]
    simpa using ih (fun hm => h (by simp [hm])) (c :: acc)

theorem splitOnFrom_end {sep : Char} {a : List Char} (h : sep ∉ a) (acc : List Char) :
    splitOnFrom sep acc a = [acc.reverse ++ a] := by
  induction a generalizing acc with
  | nil => simp [splitOnFrom]
  | cons c a ih =>
    have hc : (c == sep) = false := by
      rw [beq_eq_false_iff_ne]
      rintro rfl
      exact h (by simp)
    rw [splitOnFrom, hc]
    simpa using ih (fun hm => h (by simp [hm])) (c :: acc)

/-- A piece without the separator, then the rest. -/
theorem splitOn_append {sep : Char} {a : List Char} (h : sep ∉ a) (r : List Char) :
    splitOn sep (a ++ sep :: r) = a :: splitOn sep r := by
  simpa [splitOn] using splitOnFrom_no_sep h [] r

theorem splitOn_eq_singleton {sep : Char} {a : List Char} (h : sep ∉ a) : splitOn sep a = [a] := by
  simpa [splitOn] using splitOnFrom_end h []

/-- The pieces of a text that is put together from them are these. -/
theorem splitOn_intercalate {sep : Char} {ps : List (List Char)} (hne : ps ≠ []) (h : ∀ p ∈ ps, sep ∉ p) :
    splitOn sep ([sep].intercalate ps) = ps := by
  induction ps with
  | nil => exact absurd rfl hne
  | cons p ps ih =>
    cases ps with
    | nil => rw [List.intercalate_singleton, splitOn_eq_singleton (h p List.mem_cons_self)]
    | cons q ps =>
      have hrest := ih (by simp) fun r hr => h r (List.mem_cons_of_mem p hr)
      rw [List.intercalate_cons_cons, List.append_assoc, List.singleton_append,
        splitOn_append (h p List.mem_cons_self), hrest]

/-- The lines of `acc.reverse ++ s`, where `acc` holds no line feed. A return before a line feed belongs to the
line end. -/
def linesFrom (acc : List Char) : List Char → List (List Char)
  | [] => if acc.isEmpty then [] else [acc.reverse]
  | c :: r =>
    if c == '\n' then
      (match acc with
        | '\r' :: a => a.reverse
        | a => a.reverse) :: linesFrom [] r
    else linesFrom (c :: acc) r

/-- The lines of a text, without their ends. -/
def lines (s : List Char) : List (List Char) := linesFrom [] s

/-- A text begins with a prefix. -/
def startsWith (pre s : List Char) : Bool := pre.isPrefixOf s

/-- A text holds a part. -/
def contains (part : List Char) : List Char → Bool
  | [] => part.isEmpty
  | c :: r => startsWith part (c :: r) || contains part r

/-- A text without its first `n` bytes of UTF-8; none if a character lies across the cut or the text ends before
it. -/
def dropBytes? : Nat → List Char → Option (List Char)
  | 0, s => some s
  | _ + 1, [] => none
  | n + 1, c :: r => if c.utf8Size ≤ n + 1 then dropBytes? (n + 1 - c.utf8Size) r else none

/-- A text filled up with blanks on the right to a width. -/
def padRight (width : Nat) (s : List Char) : List Char := s ++ List.replicate (width - s.length) ' '

/-- Equal up to the case of ASCII letters. -/
def sameAscii (a b : List Char) : Bool := a.map Char.toLower == b.map Char.toLower

end FluentTables.Text
