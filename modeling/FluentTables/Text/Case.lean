import FluentTables.Text.CaseTable
import FluentTables.Text.Word

/-!
# Upper case, lower case and case folding

`lower` and `upper` use the full mappings, with the final form of sigma; `foldChar` is the simple folding, one
character to one, under which two characters are the same letter.
-/

namespace FluentTables.Text

/-- The partner of a code point in a table of runs. -/
def partner? (runs : Array CaseRun) (n : Nat) : Option Nat := runs.findSome? (·.partner? n)

/-- Simple case folding of one character. -/
def foldChar (c : Char) : Char :=
  if c.toNat < 0x80 then c.toLower else (partner? foldRuns c.toNat).elim c Char.ofNat

/-- Letters that have case. -/
def isCased (c : Char) : Bool :=
  if c.toNat < 0x80 then c.isAlpha else inRanges casedRanges c.toNat

/-- Characters that a case rule looks through. -/
def isCaseIgnorable (c : Char) : Bool :=
  if c.toNat < 0x80 then ['\'', '.', ':', '^', '\x60'].contains c else inRanges ignorableRanges c.toNat

/-- The next character that counts for case is a letter. -/
def meetsCased (s : List Char) : Bool := (s.dropWhile isCaseIgnorable).head?.any isCased

/-- Lower case of one character; a sigma needs its surroundings, see `lowerFrom`. -/
def lowerChar (c : Char) : List Char :=
  if c.toNat < 0x80 then [c.toLower]
  else if c.toNat == 0x130 then ['i', Char.ofNat 0x307]
  else [(partner? lowerRuns c.toNat).elim c Char.ofNat]

/-- Lower case of a text that follows `before`, which is given last character first. A sigma after a letter and
before none takes its final form. -/
def lowerFrom (before : List Char) : List Char → List Char
  | [] => []
  | c :: r =>
    if c == 'Σ' then
      (if meetsCased before && !meetsCased r then 'ς' else 'σ') :: lowerFrom (c :: before) r
    else lowerChar c ++ lowerFrom (c :: before) r

/-- Lower case. -/
def lower (s : List Char) : List Char := lowerFrom [] s

/-- Upper case of one character. -/
def upperChar (c : Char) : List Char :=
  if c.toNat < 0x80 then [c.toUpper]
  else match upperExpansions.find? (·.1 == c.toNat) with
    | some e => e.2.map Char.ofNat
    | none => [(partner? upperRuns c.toNat).elim c Char.ofNat]

/-- Upper case. -/
def upper (s : List Char) : List Char := s.flatMap upperChar

theorem foldChar_ascii {c : Char} (h : c.toNat < 0x80) : foldChar c = c.toLower := by
  simp [foldChar, h]

theorem lowerChar_ascii {c : Char} (h : c.toNat < 0x80) : lowerChar c = [c.toLower] := by
  simp [lowerChar, h]

theorem upperChar_ascii {c : Char} (h : c.toNat < 0x80) : upperChar c = [c.toUpper] := by
  simp [upperChar, h]

/-- ASCII text is lowered character by character. -/
theorem lowerFrom_ascii {s : List Char} (h : ∀ c ∈ s, c.toNat < 0x80) (before : List Char) :
    lowerFrom before s = s.map Char.toLower := by
  induction s generalizing before with
  | nil => rfl
  | cons c r ih =>
    have hc : c.toNat < 0x80 := h c (by simp)
    have hs : (c == 'Σ') = false := by
      rw [beq_eq_false_iff_ne]
      rintro rfl
      exact absurd hc (by decide)
    rw [lowerFrom, hs, lowerChar_ascii hc, ih (fun x hx => h x (by simp [hx]))]
    simp

theorem lower_ascii {s : List Char} (h : ∀ c ∈ s, c.toNat < 0x80) : lower s = s.map Char.toLower :=
  lowerFrom_ascii h []

theorem upper_cons (c : Char) (s : List Char) : upper (c :: s) = upperChar c ++ upper s := by
  simp [upper]

end FluentTables.Text
