import Mathlib.Data.List.Basic
import FluentTables.Migration.Sql
import FluentTables.Proofs.Pattern.Admission
import FluentTables.Proofs.Pattern.Openings
import FluentTables.Proofs.Query.Statements
import FluentTables.Proofs.Text.Lines

/-!
# Pieces of a column list

A list of columns is cut at every comma, also at those within brackets. So what is written between two commas is read
for itself (`columns_append_comma`), and a list in brackets is cut into a first piece, which has what stands in front
of it, and a last one, which has what stands behind it (`columns_bracket`). A first piece begins with the two words of
a column (`columns_pair`) or with a clause (`columns_of_clause`); a last one has the words that follow its bracket
(`columns_close`).
-/

namespace FluentTables.Sql

open Pattern Text

variable {gap s x rest : List Char}

/-! ## Pieces between commas -/

theorem columns_append_comma (a b : List Char) : columns (a ++ ',' :: b) = columns a ++ columns b := by
  rw [columns, splitOn_append_sep, List.filterMap_append, columns, columns]

/-- A piece declares at most one column. -/
theorem columns_of_not_mem (h : ',' ∉ s) : columns s = (column? (trim s)).toList := by
  rw [columns, splitOn_eq_singleton h, List.filterMap_cons]
  cases column? (trim s) <;> rfl

/-- White space in front makes no difference. -/
theorem columns_gap (hgap : ∀ c ∈ gap, isBlank c = true) (s : List Char) : columns (gap ++ s) = columns s := by
  have hcomma : ',' ∉ gap := fun hc => absurd (hgap _ hc) (by decide)
  have htrim : ∀ a, trim (gap ++ a) = trim a := fun a => trimBy_append_left hgap
  by_cases h : ',' ∈ s
  · obtain ⟨a, b, rfl, ha⟩ := List.eq_append_cons_of_mem h
    have hpiece : ',' ∉ gap ++ a := by simp [hcomma, ha]
    rw [← List.append_assoc, columns_append_comma, columns_append_comma, columns_of_not_mem hpiece,
      columns_of_not_mem ha, htrim]
  · have hpiece : ',' ∉ gap ++ s := by simp [hcomma, h]
    rw [columns_of_not_mem hpiece, columns_of_not_mem h, htrim]

/-- A piece without white space declares nothing. -/
theorem columns_of_no_blank (hcomma : ',' ∉ s) (hs : ∀ c ∈ s, isBlank c = false) : columns s = [] := by
  have htrim : trim s = s := trimBy_eq_self_of_forall hs
  have hsearch : column.search s = none := by
    refine search_eq_none_of_spells fun w hw hspells => ?_
    obtain ⟨a, v, rfl, -, u, v, rfl, ⟨hu, hblank⟩, -⟩ := hspells
    obtain ⟨c, u, rfl⟩ := List.exists_cons_of_ne_nil hu
    have hc : isBlank c = true := hblank c List.mem_cons_self
    rw [hs c (hw.subset (by simp))] at hc
    cases hc
  rw [columns_of_not_mem hcomma, htrim, column?, hsearch, Option.map_none, ite_self]
  rfl

theorem exists_cons_concat {α : Type} (l : List α) (a : α) : ∃ b m, l ++ [a] = b :: m :=
  List.exists_cons_of_ne_nil (List.append_ne_nil_of_right_ne_nil l (List.cons_ne_nil a []))

section Bracket

variable (hgap : ∀ c ∈ gap, isBlank c = true)

include hgap in
/-- Of the pieces of a list the last one counts, if the others declare nothing. -/
theorem columns_joined_concat {parts : List (List Char)} (h : ∀ p ∈ parts, columns p = []) (last post : List Char) :
    columns (joined gap (parts ++ [last]) ++ post) = columns (last ++ post) := by
  induction parts with
  | nil => rw [List.nil_append, joined_singleton]
  | cons p parts ih =>
    obtain ⟨q, qs, hq⟩ := exists_cons_concat parts last
    rw [List.cons_append, hq, joined_cons_cons, ← hq, List.append_assoc, List.cons_append, columns_append_comma,
      h p List.mem_cons_self, List.nil_append, List.append_assoc, columns_gap hgap,
      ih fun q hq => h q (List.mem_cons_of_mem p hq)]

include hgap in
/-- **A list in brackets is cut** if it has more than one part. -/
theorem columns_bracket (pre first : List Char) {parts : List (List Char)} (h : ∀ p ∈ parts, columns p = [])
    (last post : List Char) :
    columns (pre ++ (joined gap (first :: (parts ++ [last])) ++ post)) =
      columns (pre ++ first) ++ columns (last ++ post) := by
  obtain ⟨q, qs, hq⟩ := exists_cons_concat parts last
  rw [hq, joined_cons_cons, ← hq]
  simp only [List.append_assoc, List.cons_append]
  rw [← List.append_assoc, columns_append_comma, columns_gap hgap, columns_joined_concat hgap h]

end Bracket

/-! ## Edges -/

/-- White space and round brackets, which end every word. -/
def isEdge (c : Char) : Bool := isBlank c || c == '(' || c == ')'

theorem isEdge_of_isWord {c : Char} (h : isWord c = true) : isEdge c = false := by
  refine Bool.eq_false_iff.2 fun hedge => ?_
  simp only [isEdge, Bool.or_eq_true, beq_iff_eq] at hedge
  rcases hedge with (hedge | rfl) | rfl
  · rw [isWord_of_isBlank hedge] at h
    cases h
  · exact absurd h (by decide)
  · exact absurd h (by decide)

theorem isBlank_of_isEdge {c : Char} (h : isEdge c = false) : isBlank c = false := by
  simp only [isEdge, Bool.or_eq_false_iff] at h
  exact h.1.1

/-- The first letter of a name, in either case. -/
def isNameStart (c : Char) : Bool := let f := foldChar c; ('a' ≤ f && f ≤ 'z') || f == '_'

/-- White space has no cases. -/
theorem foldChar_of_isBlank {c : Char} (h : isBlank c = true) : foldChar c = c :=
  blank_cases (P := fun c => foldChar c = c) (by decide +kernel) h

theorem isNameStart_of_isBlank {c : Char} (h : isBlank c = true) : isNameStart c = false := by
  rw [isNameStart, foldChar_of_isBlank h]
  exact blank_cases (P := fun c => (('a' ≤ c && c ≤ 'z') || c == '_') = false) (by decide) h

theorem isNameStart_of_isDigit {c : Char} (h : c.isDigit = true) : isNameStart c = false := by
  obtain ⟨hascii, -⟩ := ascii_word_of_isDigit h
  revert h
  exact ascii_cases (P := fun c => c.isDigit = true → isNameStart c = false) (by decide) hascii

/-- No edge is a letter of a keyword. -/
theorem foldChar_of_isEdge {c : Char} (h : isEdge c = true) : (foldChar c).isLower = false := by
  simp only [isEdge, Bool.or_eq_true, beq_iff_eq] at h
  rcases h with (h | rfl) | rfl
  · rw [foldChar_of_isBlank h]
    exact blank_cases (P := fun c => c.isLower = false) (by decide) h
  · decide
  · decide

/-- A keyword has no edge. -/
theorem isEdge_of_spells_anyCase {k : String} (hk : ∀ c ∈ k.toList, c.isLower = true) {w : List Char}
    (h : Spells (anyCase k) w) : ∀ c ∈ w, isEdge c = false := by
  intro c hc
  refine Bool.eq_false_iff.2 fun hedge => ?_
  rw [spells_anyCase] at h
  have hlower : (foldChar c).isLower = true := hk _ (h ▸ List.mem_map_of_mem hc)
  rw [foldChar_of_isEdge hedge] at hlower
  cases hlower

/-! ## Words -/

/-- A word: letters, marks, digits and connectors. -/
structure Word where
  text : String
  isWord : text.toList ≠ [] ∧ ∀ c ∈ text.toList, Text.isWord c = true := by decide

/-- A word that begins with a Latin letter or an underscore. -/
structure Identifier extends Word where
  isName : text.toList.head?.any isNameStart = true := by decide

/-- A given word in either case. -/
structure Keyword (k : String) extends Word where
  folds : text.toList.map foldChar = k.toList := by decide

/-- White space, or nothing. -/
structure Blanks where
  text : List Char
  isBlank : ∀ c ∈ text, Text.isBlank c = true := by decide

/-- White space. -/
structure Gap extends Blanks where
  ne_nil : text ≠ [] := by decide

theorem isBlank_space : ∀ c ∈ [' '], Text.isBlank c = true := by decide

/-- A space. -/
def Gap.space : Gap where
  text := [' ']
  isBlank := isBlank_space

/-- The column of a name and a type. -/
def columnOf (name type : Word) : Column :=
  { name := name.text, type := .ofWord (String.ofList (lower type.text.toList)) }

/-- A column of two words has the first for its name and the second, in lower case, for its type, and nothing else is
declared of it. -/
theorem columnOf_eq (name type : Word) : ∃ t : ColumnType, t.word = String.ofList (lower type.text.toList) ∧
    columnOf name type = { name := name.text, type := t } :=
  ⟨_, ColumnType.word_ofWord _, rfl⟩

/-- Words, each behind a space. -/
def spaced (words : List Word) : List Char := words.flatMap fun w => ' ' :: w.text.toList

theorem Word.char (w : Word) : ∀ c ∈ w.text.toList, isEdge c = false ∧ c ≠ ',' := by
  intro c hc
  have hword := w.isWord.2 c hc
  refine ⟨isEdge_of_isWord hword, ?_⟩
  rintro rfl
  exact absurd hword (by decide)

theorem Word.comma (w : Word) : ',' ∉ w.text.toList := fun h => (w.char _ h).2 rfl

theorem Word.exists_cons (w : Word) : ∃ c v, w.text.toList = c :: v ∧ isEdge c = false := by
  obtain ⟨c, v, hw⟩ := List.exists_cons_of_ne_nil w.isWord.1
  exact ⟨c, v, hw, (w.char c (by simp [hw])).1⟩

theorem Blanks.comma (blanks : Blanks) : ',' ∉ blanks.text := fun h => absurd (blanks.isBlank _ h) (by decide)

theorem Blanks.not_mem_open (blanks : Blanks) : '(' ∉ blanks.text := fun h => absurd (blanks.isBlank _ h) (by decide)

theorem Word.not_mem_open (w : Word) : '(' ∉ w.text.toList := fun h => absurd (w.char _ h).1 (by decide)

/-- White space in front of an edge. -/
theorem Blanks.head_edge (blanks : Blanks) (hs : s.head?.all isEdge = true) :
    (blanks.text ++ s).head?.all isEdge = true := by
  obtain ⟨text, hblank⟩ := blanks
  cases text with
  | nil => exact hs
  | cons c text => simp [isEdge, hblank c List.mem_cons_self]

theorem Gap.head_edge (gap : Gap) (s : List Char) : (gap.text ++ s).head?.all isEdge = true := by
  obtain ⟨c, text, hgap⟩ := List.exists_cons_of_ne_nil gap.ne_nil
  simp [hgap, isEdge, gap.isBlank c (by simp [hgap])]

/-- No word goes on at an edge. -/
theorem not_isWord_of_edge (hs : s.head?.all isEdge = true) : s.head?.any Text.isWord = false := by
  cases s with
  | nil => rfl
  | cons c s =>
    refine Bool.eq_false_iff.2 fun hword => ?_
    have hedge : isEdge c = true := hs
    rw [isEdge_of_isWord hword] at hedge
    cases hedge

/-- A word is what stands in front of the first edge. -/
theorem Word.eq_of_edge (w : Word) {u t : List Char} {d : Char} (hs : s.head?.all isEdge = true)
    (hu : ∀ c ∈ u, isEdge c = false) (hd : isEdge d = true) (h : w.text.toList ++ s = u ++ d :: t) :
    w.text.toList = u ∧ s = d :: t := by
  cases s with
  | nil =>
    have hmem : d ∈ w.text.toList := by
      rw [List.append_nil] at h
      simp [h]
    rw [(w.char d hmem).1] at hd
    cases hd
  | cons c s =>
    obtain ⟨hw, rfl, rfl⟩ := append_cons_inj_of_class (fun c hc => (w.char c hc).1) hu hs hd h
    exact ⟨hw, rfl⟩

/-- Behind white space there is one first character. -/
theorem eq_of_blank {u v t : List Char} {c d : Char} (hu : ∀ e ∈ u, isBlank e = true) (hv : ∀ e ∈ v, isBlank e = true)
    (hc : isBlank c = false) (hd : isBlank d = false) (h : u ++ c :: s = v ++ d :: t) : c = d :=
  (append_cons_inj_of_class (p := fun e => !isBlank e) (fun e he => by simp [hu e he]) (fun e he => by simp [hv e he])
    (by simp [hc]) (by simp [hd]) h).2.1

/-- A word ends in front of another character, or of nothing. -/
theorem Word.atWordEdge (w : Word) {b : Option Char} (hrest : rest.head?.any Text.isWord = false) :
    (⟨past b w.text.toList, rest⟩ : Place).atWordEdge = true := by
  obtain ⟨d, hd⟩ : ∃ d, w.text.toList.getLast? = some d := ⟨_, List.getLast?_eq_some_getLast w.isWord.1⟩
  have hword : Text.isWord d = true := w.isWord.2 d (List.mem_of_getLast? hd)
  simp [Place.atWordEdge, past, hd, hword, hrest]

theorem mem_spaced {words : List Word} {c : Char} (h : c ∈ spaced words) : c = ' ' ∨ isEdge c = false ∧ c ≠ ',' := by
  obtain ⟨w, -, hc⟩ := List.mem_flatMap.1 h
  rcases List.mem_cons.1 hc with rfl | hc
  · exact Or.inl rfl
  · exact Or.inr (w.char c hc)

/-- A text that ends with something other than white space. -/
def EndsPlain (s : List Char) : Prop := ∃ c, s.getLast? = some c ∧ isBlank c = false

theorem EndsPlain.append {v : List Char} (h : EndsPlain v) (u : List Char) : EndsPlain (u ++ v) := by
  obtain ⟨c, hc, hblank⟩ := h
  exact ⟨c, by rw [List.getLast?_append, hc]; rfl, hblank⟩

theorem endsPlain_close (u : List Char) : EndsPlain (u ++ [')']) := EndsPlain.append ⟨')', rfl, by decide⟩ u

/-- What ends with something other than an edge. -/
theorem endsPlain_of_isEdge (hne : s ≠ []) (hs : ∀ c ∈ s, isEdge c = false) : EndsPlain s :=
  ⟨_, List.getLast?_eq_some_getLast hne, isBlank_of_isEdge (hs _ (List.getLast_mem hne))⟩

theorem Word.endsPlain (w : Word) : EndsPlain w.text.toList :=
  endsPlain_of_isEdge w.isWord.1 fun c hc => (w.char c hc).1

theorem EndsPlain.spaced {u : List Char} (h : EndsPlain u) (words : List Word) : EndsPlain (u ++ spaced words) := by
  induction words generalizing u with
  | nil => simpa [Sql.spaced] using h
  | cons w words ih =>
    have hw : EndsPlain (u ++ ' ' :: w.text.toList) := (w.endsPlain.append [' ']).append u
    simpa [Sql.spaced] using ih hw

/-- White space is cut off from neither end. -/
theorem trim_of_endsPlain {c : Char} (hc : isEdge c = false ∨ c = ')') (h : EndsPlain (c :: s)) :
    trim (c :: s) = c :: s := by
  obtain ⟨d, hd, hblank⟩ := h
  apply trimBy_eq_self
  · intro e he
    cases he
    rcases hc with hc | rfl
    · exact isBlank_of_isEdge hc
    · decide
  · intro e he
    rw [hd] at he
    cases he
    exact hblank

/-! ## Two words -/

/-- Two words in front of something else are taken as a column. -/
theorem takes_column {b : Option Char} (name type : Word) (gap : Gap) (hrest : rest.head?.any Text.isWord = false) :
    Takes column b (name.text.toList ++ (gap.text ++ type.text.toList)) rest
      [(2, type.text.toList), (1, name.text.toList)] := by
  have hhead : (type.text.toList ++ rest).head?.any isBlank = false := by
    obtain ⟨c, w, hw, hc⟩ := type.exists_cons
    rw [hw]
    exact isBlank_of_isEdge hc
  have hgap : (gap.text ++ (type.text.toList ++ []) ++ rest).head?.any Text.isWord = false := by
    rw [List.append_assoc]
    exact not_isWord_of_edge (gap.head_edge _)
  have h : Takes column b _ rest _ :=
    ((takes_some1 name.isWord.1 name.isWord.2 hgap).group 1).chain_cons <|
      (takes_some1 gap.ne_nil gap.isBlank (by simpa using hhead)).chain_cons <|
      ((takes_some1 type.isWord.1 type.isWord.2 hrest).group 2).chain_cons takes_chain_nil
  simpa using h

theorem column?_of_texts {m : Match} {w : List Char} {name type : Word} (hs : s ≠ []) (hclause : clause.isIn s = false)
    (hm : column.search s = some m)
    (htexts : m.texts = [(0, w), (2, type.text.toList), (1, name.text.toList)]) :
    column? s = some (columnOf name type) := by
  have hname : m.group 1 = name.text.toList := by
    rw [m.group_eq, htexts]
    rfl
  have htype : m.group 2 = type.text.toList := by
    rw [m.group_eq, htexts]
    rfl
  rw [column?, hclause, Bool.or_false, if_neg (by simpa using hs), hm, Option.map_some, hname, htype,
    String.ofList_toList, columnOf]

/-- **A piece that begins with two words declares a column**, unless it is a clause. -/
theorem columns_pair (name type : Word) (gap : Gap) (hrest : rest.head?.any Text.isWord = false) (hcomma : ',' ∉ rest)
    (hends : EndsPlain (type.text.toList ++ rest))
    (hclause : clause.isIn (name.text.toList ++ (gap.text ++ (type.text.toList ++ rest))) = false) :
    columns (name.text.toList ++ (gap.text ++ (type.text.toList ++ rest))) = [columnOf name type] := by
  obtain ⟨c, w, hw, hc⟩ := name.exists_cons
  have htrim : trim (name.text.toList ++ (gap.text ++ (type.text.toList ++ rest))) =
      name.text.toList ++ (gap.text ++ (type.text.toList ++ rest)) := by
    have hends := (hends.append gap.text).append name.text.toList
    rw [hw] at hends ⊢
    exact trim_of_endsPlain (Or.inl hc) hends
  have hpiece : ',' ∉ name.text.toList ++ (gap.text ++ (type.text.toList ++ rest)) := by
    simp [name.comma, type.comma, gap.comma, hcomma]
  obtain ⟨m, hm, htexts⟩ := search_of_takes (takes_column name type gap hrest)
  rw [List.append_assoc, List.append_assoc] at hm
  rw [columns_of_not_mem hpiece, htrim,
    column?_of_texts (List.append_ne_nil_of_left_ne_nil name.isWord.1 _) hclause hm htexts]
  rfl

/-! ## Clauses -/

/-- What a clause reads has an edge, and no closing bracket. -/
theorem edge_of_spells_clause {w : List Char} (h : Spells clause w) : (∃ c ∈ w, isEdge c = true) ∧ ')' ∉ w := by
  have hrejects : clause.rejects ')' = true := by decide
  have hblank : ∀ (u : List Char), Spells blanks1 u → ∃ c ∈ u, isEdge c = true := by
    rintro u ⟨hu, hall⟩
    obtain ⟨c, u, rfl⟩ := List.exists_cons_of_ne_nil hu
    exact ⟨c, List.mem_cons_self, by simp [isEdge, hall c List.mem_cons_self]⟩
  have hopen : ∀ (u : List Char), Spells (char '(') u → ∃ c ∈ u, isEdge c = true := by
    intro u hu
    rw [spells_char] at hu
    exact ⟨'(', by simp [hu], by decide⟩
  have hname : ∀ (u : List Char), Spells openName u → ∃ c ∈ u, isEdge c = true := by
    intro u hu
    obtain ⟨v, hv, hspells⟩ := exists_infix_of_spells_chain List.mem_cons_self hu
    obtain ⟨c, hc, hedge⟩ := hopen v hspells
    exact ⟨c, hv.subset hc, hedge⟩
  have hpart : ∀ {a : Pattern} {ps : List Pattern} {u : List Char}, a ∈ ps → Spells (chain ps) u → u <:+: w →
      (∀ v, Spells a v → ∃ c ∈ v, isEdge c = true) → ∃ c ∈ w, isEdge c = true := by
    intro a ps u ha hu huw hedge
    obtain ⟨v, hv, hspells⟩ := exists_infix_of_spells_chain ha hu
    obtain ⟨c, hc, hcedge⟩ := hedge v hspells
    exact ⟨c, huw.subset (hv.subset hc), hcedge⟩
  refine ⟨?_, not_mem_of_rejects hrejects h⟩
  obtain ⟨u, v, rfl, -, y, z, rfl, hy, -⟩ := h
  have hinfix : y <:+: u ++ (y ++ z) := ⟨u, z, by simp⟩
  rcases hy with hy | hy | hy | hy | hy | hy
  · exact hpart (a := blanks1) (by simp) hy hinfix hblank
  · exact hpart (a := blanks1) (by simp) hy hinfix hblank
  · exact hpart (a := blanks1) (by simp) hy hinfix hblank
  · exact hpart (a := openName) (by simp) hy hinfix hname
  · exact hpart (a := openName) (by simp) hy hinfix hname
  · exact hpart (a := char '(') (by simp) hy hinfix hopen

/-- **No clause begins in front of a closing bracket.** -/
theorem clause_isIn_close (hx : ∀ c ∈ x, isEdge c = false) (rest : List Char) :
    clause.isIn (x ++ ')' :: rest) = false := by
  refine isIn_eq_false_of_fails ?_
  refine fails_of_spells fun w r hw hspells => ?_
  have hclause : Spells clause w := ⟨[], w, rfl, rfl, hspells⟩
  obtain ⟨⟨c, hc, hedge⟩, hclose⟩ := edge_of_spells_clause hclause
  have hprefix : c ∈ x := by
    rcases List.append_eq_append_iff.1 hw with ⟨t, rfl, ht⟩ | ⟨t, rfl, -⟩
    · cases t with
      | nil => simpa using hc
      | cons d t =>
        obtain rfl : ')' = d := (List.cons_eq_cons.1 ht).1
        exact absurd (by simp) hclose
    · exact List.mem_append_left _ hc
  rw [hx c hprefix] at hedge
  cases hedge

/-- The words that begin a clause whatever follows them. -/
def clauseWords : List String := ["foreign", "constraint", "primary"]

theorem exists_cons_of_spells_anyCase {k : String} (hk : k ≠ "" ∧ ∀ c ∈ k.toList, c.isLower = true) {w : List Char}
    (h : Spells (anyCase k) w) : ∃ c t, w = c :: t ∧ isEdge c = false := by
  have hne : w ≠ [] := by
    rintro rfl
    have hnil : k.toList = [] := (spells_anyCase.1 h).symm
    exact hk.1 (String.toList_eq_nil_iff.1 hnil)
  obtain ⟨c, t, rfl⟩ := List.exists_cons_of_ne_nil hne
  exact ⟨c, t, rfl, isEdge_of_spells_anyCase hk.2 h c List.mem_cons_self⟩

/-- **A keyword and white space are read of two words only if the first one is the keyword.** What is read next is read
of the second one if it cannot begin with white space. -/
theorem run_keyword {k : String} (hk : k ≠ "" ∧ ∀ c ∈ k.toList, c.isLower = true) {ps : List Pattern}
    (hps : ∀ w, Spells (chain ps) w → ∃ c t, w = c :: t ∧ isEdge c = false) {name type : Word} {gap : Gap}
    {b : Option Char} {s : List Char} {β : Type} {g : Groups} {κ : Place → Groups → Option β} {v : β}
    (h : run (chain (anyCase k :: blanks1 :: ps)) ⟨b, name.text.toList ++ (gap.text ++ (type.text.toList ++ s))⟩ g κ =
      some v) :
    name.text.toList.map foldChar = k.toList ∧
      ∃ b' g', run (chain ps) ⟨b', type.text.toList ++ s⟩ g' κ = some v := by
  obtain ⟨w, rest, g₁, hw, hkeyword, h⟩ := exists_of_run_chain_cons h
  obtain ⟨y, rest', g₂, hy, ⟨hne, hblank⟩, h⟩ := exists_of_run_chain_cons h
  dsimp only at hw hy h
  obtain ⟨e, y, rfl⟩ := List.exists_cons_of_ne_nil hne
  have he : isEdge e = true := by simp [isEdge, hblank e List.mem_cons_self]
  rw [hy] at hw
  obtain ⟨rfl, hrest⟩ := name.eq_of_edge (gap.head_edge _) (isEdge_of_spells_anyCase hk.2 hkeyword) he hw
  refine ⟨spells_anyCase.1 hkeyword, ?_⟩
  -- The white space of the pattern is that between the words: no more, as a word follows, and no less.
  obtain ⟨c, t, ht, hc⟩ := type.exists_cons
  replace hrest : gap.text ++ (type.text.toList ++ s) = (e :: y) ++ rest' := hrest
  rcases List.append_eq_append_iff.1 hrest with ⟨z, hz', hz⟩ | ⟨z, hz', rfl⟩
  · cases z with
    | nil =>
      rw [List.nil_append] at hz
      exact ⟨_, g₂, hz ▸ h⟩
    | cons f z =>
      rw [ht] at hz
      obtain rfl : c = f := (List.cons_eq_cons.1 hz).1
      have hf := hblank c (by simp [hz'])
      rw [isBlank_of_isEdge hc] at hf
      cases hf
  · cases z with
    | nil => exact ⟨_, g₂, h⟩
    | cons f z =>
      obtain ⟨u, x, -, hu, hspells, -⟩ := spells_of_run h
      obtain ⟨f', u, rfl, hf'⟩ := hps u hspells
      obtain rfl : f = f' := (List.cons_eq_cons.1 hu).1
      have hf := gap.isBlank f (by simp [hz'])
      rw [isBlank_of_isEdge hf'] at hf
      cases hf

/-- The words of which `CONSTRAINT` needs one, behind a name perhaps. -/
def constraintWords : List String := ["primary", "foreign", "unique", "check"]

/-- What the clauses that begin with a keyword and white space need behind these. -/
def clauseTails : List (String × List Pattern) :=
  [("foreign", [anyCase "key", wordEdge]),
    ("constraint", [opt (chain [some1 Text.isWord, blanks1]), firstOf (constraintWords.map anyCase), wordEdge]),
    ("primary", [anyCase "key", blanks, char '('])]

theorem foreign_mem : ("foreign", [anyCase "key", wordEdge]) ∈ clauseTails := by simp [clauseTails]

theorem constraint_mem : ("constraint", [opt (chain [some1 Text.isWord, blanks1]),
    firstOf (constraintWords.map anyCase), wordEdge]) ∈ clauseTails := by simp [clauseTails]

theorem primary_mem : ("primary", [anyCase "key", blanks, char '(']) ∈ clauseTails := by simp [clauseTails]

theorem clause_eq : clause = chain [textStart, firstOf
    (clauseTails.map (fun t => chain (anyCase t.1 :: blanks1 :: t.2)) ++
      [chain [anyCase "unique", wordEdge, blanks, opt (chain [keyOrIndex, blanks]), opt looseWord, openName],
        chain [keyOrIndex, blanks, opt looseWord, openName],
        chain [anyCase "check", blanks, char '(']])] := rfl

theorem exists_cons_of_spells_clauseTail {t : String × List Pattern} (ht : t ∈ clauseTails) {w : List Char}
    (h : Spells (chain t.2) w) : ∃ c u, w = c :: u ∧ isEdge c = false := by
  have happend : ∀ {u v : List Char}, (∃ c u', u = c :: u' ∧ isEdge c = false) →
      ∃ c u', u ++ v = c :: u' ∧ isEdge c = false := by
    rintro u v ⟨c, u', rfl, hc⟩
    exact ⟨c, u' ++ v, rfl, hc⟩
  simp only [clauseTails, List.mem_cons, List.not_mem_nil, or_false] at ht
  rcases ht with rfl | rfl | rfl
  · obtain ⟨u, v, rfl, hu, -⟩ := h
    exact happend (exists_cons_of_spells_anyCase (by decide) hu)
  · obtain ⟨u, v, rfl, hu, x, y, rfl, hx, -⟩ := h
    rcases hu with ⟨u, u', rfl, ⟨hne, hword⟩, -⟩ | rfl
    · obtain ⟨c, u, rfl⟩ := List.exists_cons_of_ne_nil hne
      exact ⟨c, _, rfl, isEdge_of_isWord (hword c List.mem_cons_self)⟩
    · rw [List.nil_append]
      rcases hx with hx | hx | hx | hx <;> exact happend (exists_cons_of_spells_anyCase (by decide) hx)
  · obtain ⟨u, v, rfl, hu, -⟩ := h
    exact happend (exists_cons_of_spells_anyCase (by decide) hu)

/-- A keyword and white space begin a clause in front of what it needs. -/
theorem isIn_of_clauseTail {t : String × List Pattern} (ht : t ∈ clauseTails) {k : Word}
    (hk : k.text.toList.map foldChar = t.1.toList) (gap : Gap) {w : List Char} (h : ∀ b, Admits (chain t.2) b w rest) :
    clause.isIn (k.text.toList ++ (gap.text ++ (w ++ rest))) = true := by
  have hkeyword : Admits (chain (anyCase t.1 :: blanks1 :: t.2)) none (k.text.toList ++ (gap.text ++ w)) rest :=
    (takes_anyCase hk).admits.chain_cons ((admits_some1 gap.ne_nil gap.isBlank).chain_cons (h _))
  have hmem : chain (anyCase t.1 :: blanks1 :: t.2) ∈
      clauseTails.map fun t => chain (anyCase t.1 :: blanks1 :: t.2) := List.mem_map_of_mem ht
  rw [clause_eq, ← List.append_assoc gap.text, ← List.append_assoc]
  exact isIn_start_of_admits (List.mem_append_left _ hmem) hkeyword

/-- `CHECK` and a bracket are not read of what begins with two words. -/
theorem not_spells_check {name type : Word} {gap : Gap} {v w r : List Char}
    (hw : name.text.toList ++ (gap.text ++ (type.text.toList ++ v)) = w ++ r) :
    ¬ Spells (chain [anyCase "check", blanks, char '(']) w := by
  rintro ⟨a, b, rfl, ha, y, z, rfl, hblank, _, _, rfl, hopen, rfl⟩
  rw [spells_char] at hopen
  subst hopen
  obtain ⟨c, t, ht, hc⟩ := type.exists_cons
  obtain ⟨d, x, hx, hd⟩ : ∃ d x, y ++ '(' :: r = d :: x ∧ isEdge d = true := by
    cases y with
    | nil => exact ⟨'(', r, rfl, by decide⟩
    | cons d y => exact ⟨d, _, rfl, by simp [isEdge, hblank d List.mem_cons_self]⟩
  have hsplit : name.text.toList ++ (gap.text ++ (type.text.toList ++ v)) = a ++ d :: x := by
    rw [hw, ← hx]
    simp
  obtain ⟨-, hrest⟩ := name.eq_of_edge (gap.head_edge _) (isEdge_of_spells_anyCase (by decide) ha) hd hsplit
  -- Behind the white space stand a word and a bracket.
  rw [← hx, ht] at hrest
  obtain rfl := eq_of_blank gap.isBlank hblank (isBlank_of_isEdge hc) (by decide) hrest
  exact absurd hc (by decide)

/-- **No clause is read of two words** unless they begin one, or a bracket opens in front of a name. -/
theorem clause_isIn_pair {name type : Word} {gap : Gap} {v : List Char}
    (htails : ∀ t ∈ clauseTails, name.text.toList.map foldChar = t.1.toList →
      ∀ b, Fails (chain t.2) ⟨b, type.text.toList ++ v⟩)
    (hopen : ∀ w, Spells openName w → ¬ w <:+: name.text.toList ++ (gap.text ++ (type.text.toList ++ v))) :
    clause.isIn (name.text.toList ++ (gap.text ++ (type.text.toList ++ v))) = false := by
  have hbracket : ∀ {ps : List Pattern}, openName ∈ ps →
      Fails (chain ps) ⟨none, name.text.toList ++ (gap.text ++ (type.text.toList ++ v))⟩ := by
    intro ps hps
    refine fails_of_spells fun w r hw hspells => ?_
    obtain ⟨u, hu, hname⟩ := exists_infix_of_spells_chain hps hspells
    exact hopen u hname (hw ▸ hu.trans (List.infix_append [] w r))
  rw [clause_eq]
  refine isIn_eq_false_of_fails (Fails.seq (fails_firstOf (by simp [clauseTails]) fun a ha => ?_) _)
  rcases List.mem_append.1 ha with ha | ha
  · obtain ⟨t, ht, rfl⟩ := List.mem_map.1 ha
    have hkeywords : ∀ t ∈ clauseTails, t.1 ≠ "" ∧ ∀ c ∈ t.1.toList, c.isLower = true := by decide
    intro β g k
    cases hrun : run (chain (anyCase t.1 :: blanks1 :: t.2)) _ g k with
    | none => rfl
    | some y =>
      obtain ⟨hname, b, g', htail⟩ := run_keyword (hkeywords t ht) (fun w => exists_cons_of_spells_clauseTail ht) hrun
      rw [htails t ht hname b] at htail
      cases htail
  · simp only [List.mem_cons, List.not_mem_nil, or_false] at ha
    rcases ha with rfl | rfl | rfl
    · exact hbracket (by simp)
    · exact hbracket (by simp)
    · exact fails_of_spells fun w r hw => not_spells_check hw

/-- Without brackets. -/
theorem not_spells_openName (hs : '(' ∉ s) : ∀ w, Spells openName w → ¬ w <:+: s := by
  rintro w ⟨u, v, rfl, hu, -⟩ hw
  rw [spells_char] at hu
  exact hs (hw.subset (by simp [hu]))

/-- With one bracket, and no name behind it. -/
theorem not_spells_openName_of_open {u v : List Char} {d : Char} (hu : '(' ∉ u) (blanks : Blanks) (hv : '(' ∉ d :: v)
    (hd : isBlank d = false ∧ isNameStart d = false) :
    ∀ w, Spells openName w → ¬ w <:+: u ++ '(' :: (blanks.text ++ d :: v) := by
  rintro w ⟨a, b, rfl, ha, y, z, rfl, hblank, _, _, rfl, ⟨c, hc, rfl⟩, rfl⟩ ⟨p, q, hpq⟩
  rw [spells_char] at ha
  have hsplit : u ++ '(' :: (blanks.text ++ d :: v) = p ++ '(' :: (y ++ c :: q) := by simpa [ha] using hpq.symm
  have hopen : '(' ∉ blanks.text ++ d :: v := by
    rw [List.mem_append, not_or]
    exact ⟨fun h => absurd (blanks.isBlank _ h) (by decide), hv⟩
  have hname : isNameStart c = true := hc
  have hcblank : isBlank c = false := Bool.eq_false_iff.2 fun h => by
    rw [isNameStart_of_isBlank h] at hname
    cases hname
  obtain ⟨-, -, htail⟩ := (List.append_cons_inj_of_notMem hu hopen).1 hsplit
  obtain rfl := eq_of_blank blanks.isBlank hblank hd.1 hcblank htail
  rw [hd.2] at hname
  cases hname

/-- **A clause declares nothing.** -/
theorem columns_of_clause (w : Word) (hcomma : ',' ∉ s) (hends : EndsPlain (w.text.toList ++ s))
    (hclause : clause.isIn (w.text.toList ++ s) = true) : columns (w.text.toList ++ s) = [] := by
  have htrim : trim (w.text.toList ++ s) = w.text.toList ++ s := by
    obtain ⟨c, v, hw, hc⟩ := w.exists_cons
    rw [hw] at hends ⊢
    exact trim_of_endsPlain (Or.inl hc) hends
  rw [columns_of_not_mem (by simp [w.comma, hcomma]), htrim, column?, hclause, Bool.or_true, if_pos rfl]
  rfl

/-! ## Behind a closing bracket -/

/-- A part of a list in brackets: neither an edge nor a comma. -/
def IsPart (x : List Char) : Prop := ∀ c ∈ x, isEdge c = false ∧ c ≠ ','

theorem Word.isPart (w : Word) : IsPart w.text.toList := w.char

theorem IsPart.edge (hx : IsPart x) : ∀ c ∈ x, isEdge c = false := fun c hc => (hx c hc).1

theorem IsPart.comma (hx : IsPart x) : ',' ∉ x := fun h => (hx _ h).2 rfl

/-- A part of a list declares nothing. -/
theorem IsPart.columns (hx : IsPart x) : columns x = [] :=
  columns_of_no_blank hx.comma fun c hc => isBlank_of_isEdge (hx.edge c hc)

theorem trim_close (hx : IsPart x) (h : EndsPlain (')' :: s)) : trim (x ++ ')' :: s) = x ++ ')' :: s := by
  cases x with
  | nil => exact trim_of_endsPlain (Or.inr rfl) h
  | cons c x => exact trim_of_endsPlain (Or.inl (hx.edge c List.mem_cons_self)) (h.append (c :: x))

/-- No two words in a row begin in front of a closing bracket, or right behind it. -/
theorem skips_close (hx : IsPart x) (s : List Char) : Skips column none (x ++ [')', ' ']) s := by
  have hfails : ∀ (c : Char) (b : Option Char) (s : List Char), isWord c = false → Fails column ⟨b, c :: s⟩ := by
    intro c b s hc
    refine fails_of_spells fun w r hw hspells => ?_
    obtain ⟨u, v, rfl, ⟨hu, hword⟩, -⟩ := hspells
    obtain ⟨d, u, rfl⟩ := List.exists_cons_of_ne_nil hu
    obtain rfl : c = d := (List.cons_eq_cons.1 hw).1
    rw [hword c List.mem_cons_self] at hc
    cases hc
  have hinside : Skips column none x ([')', ' '] ++ s) := by
    refine skips_of_forall fun p c v hv => fails_of_spells fun w r hw hspells => ?_
    obtain ⟨u, -, rfl, ⟨-, hword⟩, y, z, rfl, ⟨hy, hblank⟩, -⟩ := hspells
    obtain ⟨d, y, rfl⟩ := List.exists_cons_of_ne_nil hy
    have hd : isBlank d = true := hblank d List.mem_cons_self
    have hfirst : ∀ e ∈ c :: v, isEdge e = false := fun e he => hx.edge e (hv ▸ List.mem_append_right p he)
    have hsecond : ∀ e ∈ u, isEdge e = false := fun e he => isEdge_of_isWord (hword e he)
    have hsplit : (c :: v) ++ ')' :: (' ' :: s) = u ++ d :: (y ++ (z ++ r)) := by simpa using hw
    obtain ⟨-, rfl, -⟩ := append_cons_inj_of_class hfirst hsecond (by decide) (by simp [isEdge, hd]) hsplit
    exact absurd hd (by decide)
  rw [skips_append]
  exact ⟨hinside, hfails ')' _ _ (by decide), hfails ' ' _ _ (by decide), trivial⟩

/-- Two words behind the bracket are taken as a column. -/
theorem columns_close_pair (hx : IsPart x) (name type : Word) (hrest : rest.head?.any Text.isWord = false)
    (hcomma : ',' ∉ rest) (hends : EndsPlain (type.text.toList ++ rest)) :
    columns (x ++ ')' :: ' ' :: (name.text.toList ++ ' ' :: (type.text.toList ++ rest))) = [columnOf name type] := by
  have hpiece : ',' ∉ x ++ ')' :: ' ' :: (name.text.toList ++ ' ' :: (type.text.toList ++ rest)) := by
    simp [name.comma, type.comma, hx.comma, hcomma]
  have htrim : trim (x ++ ')' :: ' ' :: (name.text.toList ++ ' ' :: (type.text.toList ++ rest))) = _ :=
    trim_close hx (((hends.append [' ']).append name.text.toList).append [')', ' '])
  obtain ⟨m, hm, -, htexts, -⟩ := searchAt_of_takes (skips_close hx _) (takes_column name type .space hrest)
  have htext : (x ++ [')', ' ']) ++ ((name.text.toList ++ (Gap.space.text ++ type.text.toList)) ++ rest) =
      x ++ ')' :: ' ' :: (name.text.toList ++ ' ' :: (type.text.toList ++ rest)) := by
    simp [Gap.space]
  rw [htext] at hm
  rw [columns_of_not_mem hpiece, htrim, column?_of_texts (by simp) (clause_isIn_close hx.edge _) hm htexts]
  rfl

/-- One word behind the bracket is not. -/
theorem columns_close_one (hx : IsPart x) (name : Word) : columns (x ++ ')' :: ' ' :: name.text.toList) = [] := by
  have hsearch : column.search (x ++ ')' :: ' ' :: name.text.toList) = none := by
    refine search_eq_none_of_spells fun w hw hspells => ?_
    obtain ⟨u, -, rfl, ⟨hu, hword⟩, y, z, rfl, ⟨hy, hblank⟩, -⟩ := hspells
    obtain ⟨u, c, rfl⟩ := (List.eq_nil_or_concat u).resolve_left hu
    rw [List.concat_eq_append] at hword
    obtain ⟨d, y, rfl⟩ := List.exists_cons_of_ne_nil hy
    obtain ⟨p, q, hpq⟩ := hw
    have hd : isBlank d = true := hblank d List.mem_cons_self
    have hfront : d ∉ x ++ [')'] := by
      intro hmem
      rcases List.mem_append.1 hmem with hmem | hmem
      · rw [isBlank_of_isEdge (hx.edge d hmem)] at hd
        cases hd
      · rw [List.mem_singleton.1 hmem] at hd
        exact absurd hd (by decide)
    have hback : d ∉ name.text.toList := by
      intro hmem
      rw [isBlank_of_isEdge (name.char d hmem).1] at hd
      cases hd
    have hsplit : (x ++ [')']) ++ ' ' :: name.text.toList = (p ++ u ++ [c]) ++ d :: (y ++ (z ++ q)) := by
      simpa using hpq.symm
    have hc := (List.append_inj' ((List.append_cons_inj_of_notMem hfront hback).1 hsplit).1 rfl).2
    obtain rfl : ')' = c := by simpa using hc
    exact absurd (hword ')' (by simp)) (by decide)
  have hpiece : ',' ∉ x ++ ')' :: ' ' :: name.text.toList := by
    simp [hx.comma, name.comma]
  have htrim : trim (x ++ ')' :: ' ' :: name.text.toList) = _ := trim_close hx (name.endsPlain.append [')', ' '])
  rw [columns_of_not_mem hpiece, htrim, column?, hsearch, Option.map_none, ite_self]
  rfl

/-- What is read as a column behind a list that was cut: the first two words. -/
def cutColumns : List Word → List Column
  | name :: type :: _ => [columnOf name type]
  | _ => []

/-- **Behind a list that was cut, the first two words are read as a column.** -/
theorem columns_close (hx : IsPart x) (words : List Word) :
    columns (x ++ ')' :: spaced words) = cutColumns words := by
  match words with
  | [] =>
    refine columns_of_no_blank (by simp [spaced, hx.comma]) fun c hc => ?_
    rcases List.mem_append.1 hc with hc | hc
    · exact isBlank_of_isEdge (hx.edge c hc)
    · rw [List.mem_singleton.1 hc]
      decide
  | [a] => simpa [spaced, cutColumns] using columns_close_one hx a
  | a :: b :: words =>
    have hhead : (spaced words).head?.any Text.isWord = false := by
      cases words <;> rfl
    have hcomma : ',' ∉ spaced words := fun h => (mem_spaced h).elim (by decide) fun h => h.2 rfl
    have h := columns_close_pair hx a b hhead hcomma (b.endsPlain.spaced words)
    simpa [spaced, cutColumns] using h

end FluentTables.Sql
