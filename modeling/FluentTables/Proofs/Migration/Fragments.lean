import FluentTables.Proofs.Migration.ColumnPieces

/-!
# Columns and clauses told apart

A column may have the name of a keyword, and its type may be one. Two words, with a size in brackets perhaps, begin a
clause in three cases only (`Fragment.isIn_clause`), and otherwise they are a column (`Fragment.columns_eq`). A
clause over a column is found by its words and the first letter of the column (`TableClause.isIn_clause`), so it
declares nothing (`TableClause.columns_eq_nil`).
-/

namespace FluentTables.Sql

open Pattern Text

variable {b : Option Char} {s : List Char}

/-! ## Two words and a size -/

/-- The word is a keyword, in either case. -/
def Word.spells (w : Word) (k : String) : Bool := w.text.toList.map foldChar == k.toList

/-- A text in brackets, with white space around it. -/
def bracketed (before inside : Blanks) (s : List Char) (after : Blanks) : List Char :=
  before.text ++ '(' :: (inside.text ++ (s ++ (after.text ++ [')'])))

/-- A size in brackets. -/
structure Size where
  before : Blanks := { text := [] }
  inside : Blanks := { text := [] }
  digits : List Char
  after : Blanks := { text := [] }
  isDigit : ∀ c ∈ digits, c.isDigit = true := by decide

/-- A size in brackets as it is written, if there is one. -/
def sizeText : Option Size → List Char
  | none => []
  | some z => bracketed z.before z.inside z.digits z.after

/-- Two words, and a size perhaps. -/
structure Fragment where
  name : Word
  gap : Gap := .space
  type : Word
  size : Option Size := none

namespace Fragment

variable (f : Fragment)

def text : List Char := f.name.text.toList ++ (f.gap.text ++ (f.type.text.toList ++ sizeText f.size))

/-- The words begin a clause. -/
def isClause : Bool :=
  f.name.spells "foreign" && f.type.spells "key" ||
    f.name.spells "constraint" && constraintWords.any f.type.spells ||
    f.name.spells "primary" && f.type.spells "key" && f.size.isSome

end Fragment

/-! ## What a clause reads -/

/-- Behind the second word there is an edge, or nothing. -/
theorem head?_sizeText (z : Option Size) : (sizeText z).head?.all isEdge = true := by
  cases z with
  | none => rfl
  | some z => exact z.before.head_edge rfl

/-- **A keyword that ends at the edge of a word is read of a word only if this is the keyword.** -/
theorem run_edgeKeyword {k : String} (hk : k ≠ "" ∧ ∀ c ∈ k.toList, c.isLower = true) {ps : List Pattern} {type : Word}
    (hs : s.head?.all isEdge = true) {β : Type} {g : Groups} {κ : Place → Groups → Option β} {v : β}
    (h : run (chain (anyCase k :: wordEdge :: ps)) ⟨b, type.text.toList ++ s⟩ g κ = some v) :
    type.spells k = true := by
  obtain ⟨w, rest, g', hw, hkeyword, h⟩ := exists_of_run_chain_cons h
  dsimp only at hw h
  have hedge := isEdge_of_spells_anyCase hk.2 hkeyword
  suffices hsame : type.text.toList = w by
    rw [Word.spells, hsame, beq_iff_eq]
    exact spells_anyCase.1 hkeyword
  rcases List.append_eq_append_iff.1 hw with ⟨t, ht, hst⟩ | ⟨t, ht, hrest⟩
  · cases t with
    | nil => simpa using ht.symm
    | cons c t =>
      have hc : isEdge c = true := by
        rw [hst] at hs
        exact hs
      rw [hedge c (by simp [ht])] at hc
      cases hc
  · cases t with
    | nil => simpa using ht
    | cons c t =>
      -- The keyword would end between two characters of the word.
      have hword : ∀ e ∈ type.text.toList, isWord e = true := type.isWord.2
      obtain ⟨d, u, rfl, -⟩ := exists_cons_of_spells_anyCase hk hkeyword
      obtain ⟨u', e, hu⟩ := (List.eq_nil_or_concat (d :: u)).resolve_left (List.cons_ne_nil d u)
      have he : isWord e = true := hword e (by simp [ht, hu])
      have hc : isWord c = true := hword c (by simp [ht])
      rw [run_chain_cons, run_wordEdge, if_neg] at h
      · cases h
      · simp [Place.atWordEdge, past, hu, hrest, he, hc]

/-- `KEY` and a bracket are read of a word only if it is `KEY` and something follows it. -/
theorem spells_key_open {type : Word} (hs : s.head?.all isEdge = true) {w r : List Char}
    (hw : type.text.toList ++ s = w ++ r) (h : Spells (chain [anyCase "key", blanks, char '(']) w) :
    type.spells "key" = true ∧ s ≠ [] := by
  obtain ⟨u, _, rfl, hu, y, _, rfl, hy, _, _, rfl, hopen, rfl⟩ := h
  rw [spells_char] at hopen
  subst hopen
  obtain ⟨d, x, hd, hx⟩ : ∃ d x, y ++ '(' :: r = d :: x ∧ isEdge d = true := by
    cases y with
    | nil => exact ⟨'(', r, rfl, by decide⟩
    | cons d y => exact ⟨d, _, rfl, by simp [isEdge, hy d List.mem_cons_self]⟩
  have hsplit : type.text.toList ++ s = u ++ d :: x := by
    rw [hw, ← hd]
    simp
  obtain ⟨hsame, rfl⟩ := type.eq_of_edge hs (isEdge_of_spells_anyCase (by decide) hu) hx hsplit
  exact ⟨beq_iff_eq.2 (hsame ▸ spells_anyCase.1 hu), List.cons_ne_nil d x⟩

/-- Behind `CONSTRAINT` stands one of its words; no other word can be passed over, as none of them follows it. -/
theorem run_constraintTail {type : Word} {z : Option Size} {β : Type} {g : Groups} {κ : Place → Groups → Option β}
    {v : β} (h : run (chain [opt (chain [some1 Text.isWord, blanks1]), firstOf (constraintWords.map anyCase), wordEdge])
      ⟨b, type.text.toList ++ sizeText z⟩ g κ = some v) : constraintWords.any type.spells = true := by
  have hkeywords : ∀ k ∈ constraintWords, k ≠ "" ∧ ∀ c ∈ k.toList, c.isLower = true := by decide
  rw [run_chain_cons, opt, run_alt, orElse_eq_some_iff] at h
  rcases h with h | ⟨-, h⟩
  · obtain ⟨u, _, _, hu, ⟨-, hword⟩, h⟩ := exists_of_run_chain_cons h
    obtain ⟨y, _, _, hy, ⟨hne, hblank⟩, h⟩ := exists_of_run_chain_cons h
    obtain ⟨w, r, _, hw, hkeyword, -⟩ := exists_of_run_chain_cons h
    dsimp only at hu hy hw
    obtain ⟨c, t, rfl, hc⟩ : ∃ c t, w = c :: t ∧ isEdge c = false := by
      rcases hkeyword with hkeyword | hkeyword | hkeyword | hkeyword <;>
        exact exists_cons_of_spells_anyCase (by decide) hkeyword
    obtain ⟨e, y, rfl⟩ := List.exists_cons_of_ne_nil hne
    have he : isEdge e = true := by simp [isEdge, hblank e List.mem_cons_self]
    have hedge : ∀ c ∈ u, isEdge c = false := fun c hc => isEdge_of_isWord (hword c hc)
    rw [hy, hw] at hu
    obtain ⟨-, hz⟩ := type.eq_of_edge (head?_sizeText z) hedge he hu
    cases z with
    | none => cases hz
    | some z =>
      -- Behind the word stands a bracket, and no keyword.
      replace hz : z.before.text ++ '(' :: (z.inside.text ++ (z.digits ++ (z.after.text ++ [')']))) =
        (e :: y) ++ c :: (t ++ r) := hz
      obtain rfl := eq_of_blank z.before.isBlank hblank (by decide) (isBlank_of_isEdge hc) hz
      exact absurd hc (by decide)
  · rw [run_empty, run_chain_cons] at h
    obtain ⟨a, ha, h⟩ := exists_of_run_firstOf (by simp [constraintWords]) h
    obtain ⟨k, hk, rfl⟩ := List.mem_map.1 ha
    exact List.any_eq_true.2 ⟨k, hk, run_edgeKeyword (hkeywords k hk) (head?_sizeText z) h⟩

/-! ## Two words -/

namespace Size

variable (z : Size)

theorem char {c : Char} (hc : c ∈ z.digits) : isWord c = true ∧ isNameStart c = false :=
  ⟨(ascii_word_of_isDigit (z.isDigit c hc)).2, isNameStart_of_isDigit (z.isDigit c hc)⟩

theorem not_mem {d : Char} (hd : isWord d = false) : d ∉ z.digits := fun h => by
  rw [(z.char h).1] at hd
  cases hd

/-- No name begins behind the bracket. -/
theorem not_spells_openName {u : List Char} (hu : '(' ∉ u) : ∀ w, Spells openName w →
    ¬ w <:+: u ++ bracketed z.before z.inside z.digits z.after := by
  have hfront : '(' ∉ u ++ z.before.text := by simp [hu, z.before.not_mem_open]
  have htext : u ++ bracketed z.before z.inside z.digits z.after =
      (u ++ z.before.text) ++ '(' :: (z.inside.text ++ (z.digits ++ (z.after.text ++ [')']))) := by
    simp [bracketed]
  rw [htext]
  cases hz : z.digits with
  | nil =>
    have hinside : ∀ c ∈ z.inside.text ++ z.after.text, isBlank c = true := fun c hc =>
      (List.mem_append.1 hc).elim (z.inside.isBlank c) (z.after.isBlank c)
    have hopens := not_spells_openName_of_open hfront ⟨_, hinside⟩ (v := []) (d := ')') (by simp) (by decide)
    simpa using hopens
  | cons d ds =>
    obtain ⟨hword, hname⟩ := z.char (hz ▸ List.mem_cons_self : d ∈ z.digits)
    have hrest : '(' ∉ d :: (ds ++ (z.after.text ++ [')'])) := by
      rw [← List.cons_append, ← hz]
      simp [z.not_mem (d := '(') (by decide), z.after.not_mem_open]
    exact not_spells_openName_of_open hfront z.inside hrest ⟨isBlank_of_isEdge (isEdge_of_isWord hword), hname⟩

end Size

theorem endsPlain_bracketed (before inside : Blanks) (s : List Char) (after : Blanks) :
    EndsPlain (bracketed before inside s after) :=
  ((((endsPlain_close after.text).append s).append inside.text).append ['(']).append before.text

theorem comma_bracketed (before inside after : Blanks) (hs : ',' ∉ s) : ',' ∉ bracketed before inside s after := by
  simp [bracketed, before.comma, inside.comma, after.comma, hs]

theorem comma_sizeText (z : Option Size) : ',' ∉ sizeText z := by
  cases z with
  | none => exact List.not_mem_nil
  | some z => exact comma_bracketed z.before z.inside z.after (z.not_mem (by decide))

theorem endsPlain_sizeText (type : Word) (z : Option Size) : EndsPlain (type.text.toList ++ sizeText z) := by
  cases z with
  | none => simpa [sizeText] using type.endsPlain
  | some z => exact (endsPlain_bracketed z.before z.inside z.digits z.after).append type.text.toList

theorem Word.admits_keyword {w : Word} {k : String} (h : w.spells k = true) (s : List Char) :
    Admits (anyCase k) b w.text.toList s := (takes_anyCase (beq_iff_eq.1 h)).admits

/-- What is read of a word may be bound to its edge. -/
theorem Word.admits_edge (w : Word) {a : Pattern} (ha : Admits a b w.text.toList s)
    (hs : s.head?.any Text.isWord = false) : Admits (chain [a, wordEdge]) b w.text.toList s := by
  have hedge : Admits wordEdge (past b w.text.toList) [] ([] ++ s) := (takes_wordEdge (w.atWordEdge hs)).admits
  have hchain : Admits (chain [a, wordEdge]) b (w.text.toList ++ ([] ++ [])) s :=
    Admits.chain_cons (by simpa using ha) (hedge.chain_cons admits_chain_nil)
  simpa using hchain

theorem Word.admits_constraintWord {w : Word} (h : constraintWords.any w.spells = true) (s : List Char) :
    Admits (firstOf (constraintWords.map anyCase)) b w.text.toList s := by
  obtain ⟨k, hk, hw⟩ := List.any_eq_true.1 h
  exact admits_firstOf (List.mem_map_of_mem hk) (w.admits_keyword hw s)

theorem Word.admits_keyOpen {w : Word} (h : w.spells "key" = true) (before : Blanks) (s : List Char) :
    Admits (chain [anyCase "key", blanks, Pattern.char '(']) b (w.text.toList ++ (before.text ++ ['('])) s :=
  (w.admits_keyword h _).chain_cons <| (admits_span true before.isBlank).chain_cons <|
    (takes_char '(').admits.chain_cons admits_chain_nil

namespace Fragment

variable (f : Fragment)

/-- **Two words begin a clause in three cases**: `FOREIGN KEY`, `CONSTRAINT` with one of its words, and `PRIMARY KEY`
in front of a bracket. -/
theorem isIn_clause : clause.isIn f.text = f.isClause := by
  have hedge := not_isWord_of_edge (head?_sizeText f.size)
  have hopen : ∀ w, Spells openName w → ¬ w <:+: f.text := by
    have hfront : '(' ∉ f.name.text.toList ++ (f.gap.text ++ f.type.text.toList) := by
      simp [Word.not_mem_open, f.gap.not_mem_open]
    rw [text]
    cases f.size with
    | none => simpa [sizeText] using Sql.not_spells_openName hfront
    | some z => simpa [sizeText] using z.not_spells_openName hfront
  cases hclause : f.isClause with
  | true =>
    simp only [isClause, Bool.or_eq_true, Bool.and_eq_true, or_assoc] at hclause
    rcases hclause with ⟨hname, htype⟩ | ⟨hname, htype⟩ | ⟨⟨hname, htype⟩, hsize⟩
    · exact isIn_of_clauseTail foreign_mem (beq_iff_eq.1 hname) f.gap fun b =>
        f.type.admits_edge (f.type.admits_keyword htype _) hedge
    · exact isIn_of_clauseTail constraint_mem (beq_iff_eq.1 hname) f.gap fun b =>
        (admits_opt_nil _).chain_cons (f.type.admits_edge (f.type.admits_constraintWord htype _) hedge)
    · obtain ⟨z, hz⟩ := Option.isSome_iff_exists.1 hsize
      have hin := isIn_of_clauseTail primary_mem (beq_iff_eq.1 hname) f.gap fun b =>
        f.type.admits_keyOpen htype z.before (z.inside.text ++ (z.digits ++ (z.after.text ++ [')'])))
      simpa [text, sizeText, hz, bracketed] using hin
  | false =>
    refine clause_isIn_pair (fun t ht hname b β g κ => ?_) hopen
    cases hrun : run (chain t.2) ⟨b, f.type.text.toList ++ sizeText f.size⟩ g κ with
    | none => rfl
    | some v =>
      have hname : f.name.spells t.1 = true := beq_iff_eq.2 hname
      have hwould : f.isClause = true := by
        simp only [clauseTails, List.mem_cons, List.not_mem_nil, or_false] at ht
        rcases ht with rfl | rfl | rfl
        · have htype := run_edgeKeyword (by decide) (head?_sizeText f.size) hrun
          simp [isClause, hname, htype]
        · have htype := run_constraintTail hrun
          simp [isClause, hname, htype]
        · obtain ⟨w, y, g', hw, hspells, -⟩ := spells_of_run hrun
          obtain ⟨htype, hsize⟩ := spells_key_open (head?_sizeText f.size) hw hspells
          have hsize : f.size.isSome = true := by
            cases hz : f.size with
            | none => exact absurd (by rw [hz]; rfl) hsize
            | some z => rfl
          simp [isClause, hname, htype, hsize]
      rw [hclause] at hwould
      cases hwould

/-- **A fragment of two words is one column**, unless they begin a clause. -/
theorem columns_eq : columns f.text = if f.isClause then [] else [columnOf f.name f.type] := by
  have hends := endsPlain_sizeText f.type f.size
  have hcomma := comma_sizeText f.size
  split
  · next hclause =>
    exact columns_of_clause f.name (by simp [f.gap.comma, f.type.comma, hcomma])
      ((hends.append f.gap.text).append f.name.text.toList) (f.isIn_clause.trans hclause)
  · next hclause =>
    exact columns_pair f.name f.type f.gap (not_isWord_of_edge (head?_sizeText f.size)) hcomma hends
      (f.isIn_clause.trans (Bool.eq_false_iff.2 hclause))

/-- A fragment is a piece by itself. -/
theorem toList_column?_text : (column? f.text).toList = columns f.text := by
  have hcomma : ',' ∉ f.text := by
    simp [text, f.name.comma, f.gap.comma, f.type.comma, comma_sizeText f.size]
  have htrim : trim f.text = f.text := by
    obtain ⟨c, v, hw, hc⟩ := f.name.exists_cons
    have hends : EndsPlain f.text := ((endsPlain_sizeText f.type f.size).append f.gap.text).append f.name.text.toList
    rw [text, hw] at hends ⊢
    exact trim_of_endsPlain (Or.inl hc) hends
  rw [columns_of_not_mem hcomma, htrim]

end Fragment

/-! ## Clauses over a column -/

/-- `KEY` or `INDEX`. -/
inductive IndexWord where
  | key (w : Keyword "key")
  | index (w : Keyword "index")

def IndexWord.word : IndexWord → Word
  | key w => w.toWord
  | index w => w.toWord

/-- A clause that may have a name, up to its bracket. -/
inductive KeyClause where
  | primaryKey (p : Keyword "primary") (gap : Gap) (k : Keyword "key")
  | unique (u : Keyword "unique") (index : Option (Gap × IndexWord)) (name : Option (Gap × Word))
  | foreignKey (f : Keyword "foreign") (gap : Gap) (k : Keyword "key")

/-- A clause on the table as a whole, up to its bracket. -/
inductive TableClause where
  | key (k : KeyClause)
  | index (word : IndexWord) (name : Option (Gap × Word))
  | constraint (c : Keyword "constraint") (gap : Gap) (name : Word) (gap' : Gap) (k : KeyClause)

/-- A word with white space in front of it, if there is one. -/
def lead : Option (Gap × Word) → List Char
  | none => []
  | some (gap, w) => gap.text ++ w.text.toList

/-- A bracket that opens in front of a name. -/
def opened (before inside : Blanks) (n : Identifier) (t : List Char) : List Char :=
  before.text ++ '(' :: (inside.text ++ (n.text.toList ++ t))

theorem opened_edge (before inside : Blanks) (n : Identifier) (t : List Char) :
    (opened before inside n t).head?.all isEdge = true := before.head_edge rfl

namespace KeyClause

/-- The word that the clause begins with. -/
def first : KeyClause → Word
  | primaryKey p _ _ => p.toWord
  | unique u _ _ => u.toWord
  | foreignKey f _ _ => f.toWord

/-- What follows, up to the bracket. -/
def more : KeyClause → List Char
  | primaryKey _ gap k => gap.text ++ k.text.toList
  | unique _ index name => lead (index.map fun i => (i.1, i.2.word)) ++ lead name
  | foreignKey _ gap k => gap.text ++ k.text.toList

end KeyClause

namespace TableClause

/-- The word that the clause begins with. -/
def first : TableClause → Word
  | key k => k.first
  | index word _ => word.word
  | constraint c _ _ _ _ => c.toWord

/-- What follows, up to the bracket. -/
def more : TableClause → List Char
  | key k => k.more
  | index _ name => lead name
  | constraint _ gap name gap' k => gap.text ++ (name.text.toList ++ (gap'.text ++ (k.first.text.toList ++ k.more)))

end TableClause

theorem Keyword.spells {k : String} (w : Keyword k) : w.toWord.spells k = true := beq_iff_eq.2 w.folds

/-- Behind a word there is an edge: white space, or the bracket. -/
theorem head?_lead (name : Option (Gap × Word)) (hs : s.head?.all isEdge = true) :
    (lead name ++ s).head?.all isEdge = true := by
  match name with
  | none => exact hs
  | some (gap, w) =>
    rw [lead, List.append_assoc]
    exact gap.head_edge _

/-- A bracket and the first letter of a name. -/
theorem Identifier.admits_openName (n : Identifier) : ∃ d u, n.text.toList = d :: u ∧
    ∀ (inside : Blanks) b t, Admits openName b ('(' :: (inside.text ++ [d])) t := by
  obtain ⟨d, u, hu, -⟩ := n.exists_cons
  have hd : isNameStart d = true := by simpa [hu] using n.isName
  refine ⟨d, u, hu, fun inside b t => ?_⟩
  have hname : ∀ b t, Admits (one fun c => let f := foldChar c; ('a' ≤ f && f ≤ 'z') || f == '_') b [d] t :=
    fun b t => (takes_one hd).admits
  have h : Admits openName b (['('] ++ (inside.text ++ ([d] ++ []))) t :=
    (takes_char '(').admits.chain_cons <| (admits_span true inside.isBlank).chain_cons <|
      (hname _ _).chain_cons admits_chain_nil
  exact h

theorem IndexWord.admits (w : IndexWord) (hs : s.head?.any isWord = false) :
    Admits keyOrIndex b w.word.text.toList s := by
  refine w.word.admits_edge ?_ hs
  cases w with
  | key w => exact admits_firstOf (by simp) (w.admits_keyword w.spells s)
  | index w => exact admits_firstOf (by simp) (w.admits_keyword w.spells s)

/-- A name, if there is one, and a bracket in front of a column are read in one way or another. -/
theorem exists_names (name : Option (Gap × Word)) (before inside : Blanks) (n : Identifier) (t : List Char) :
    ∃ v w u, lead name ++ opened before inside n t = v ++ (w ++ u) ∧
      (∀ c ∈ v, isBlank c = true) ∧ ∀ b, Admits (chain [opt looseWord, openName]) b w u := by
  obtain ⟨d, u, hu, hopen⟩ := n.admits_openName
  have hspace : ∃ v w : List Char, lead name ++ before.text = v ++ w ∧ (∀ c ∈ v, isBlank c = true) ∧
      ∀ b s, Admits (opt looseWord) b w s := by
    match name with
    | none => exact ⟨before.text, [], by simp [lead], before.isBlank, fun b s => admits_opt_nil looseWord⟩
    | some (gap, name) =>
      refine ⟨gap.text, name.text.toList ++ (before.text ++ []), by simp [lead], gap.isBlank, fun b s => ?_⟩
      exact Admits.opt <| (admits_some1 name.isWord.1 name.isWord.2).chain_cons <|
        (admits_span true before.isBlank).chain_cons admits_chain_nil
  obtain ⟨v, w, hsplit, hv, hw⟩ := hspace
  refine ⟨v, w ++ ('(' :: (inside.text ++ [d]) ++ []), u ++ t, ?_, hv, fun b =>
    (hw _ _).chain_cons ((hopen _ _ _).chain_cons admits_chain_nil)⟩
  rw [opened, ← List.append_assoc, hsplit, hu]
  simp

/-- `KEY` or `INDEX` and a name are found in front of a column in brackets. -/
theorem isIn_index (word : IndexWord) (name : Option (Gap × Word)) (before inside : Blanks) (n : Identifier)
    (t : List Char) : clause.isIn (word.word.text.toList ++ (lead name ++ opened before inside n t)) = true := by
  have hhead := not_isWord_of_edge (head?_lead name (opened_edge before inside n t))
  obtain ⟨v, w, u, htext, hv, hw⟩ := exists_names name before inside n t
  rw [htext] at hhead ⊢
  have h : Admits (chain [keyOrIndex, blanks, opt looseWord, openName]) none (word.word.text.toList ++ (v ++ w)) u :=
    (word.admits (by simpa using hhead)).chain_cons ((admits_span true hv).chain_cons (hw _))
  have hin : clause.isIn _ = true := isIn_start_of_admits (by simp) h
  simpa using hin

theorem isIn_unique (k : Keyword "unique") (index : Option (Gap × IndexWord)) (name : Option (Gap × Word))
    (before inside : Blanks) (n : Identifier) (t : List Char) : clause.isIn (k.text.toList ++
      (lead (index.map fun i => (i.1, i.2.word)) ++ (lead name ++ opened before inside n t))) = true := by
  have hhead := not_isWord_of_edge (head?_lead name (opened_edge before inside n t))
  obtain ⟨v, w, u, htext, hv, hw⟩ := exists_names name before inside n t
  have hedge : ∀ {s : List Char}, s.head?.any isWord = false → Admits wordEdge (past none k.text.toList) [] s :=
    fun hs => (takes_wordEdge (k.atWordEdge hs)).admits
  rw [htext] at hhead ⊢
  match index with
  | none =>
    have h : Admits (chain [anyCase "unique", wordEdge, blanks, opt (chain [keyOrIndex, blanks]), opt looseWord,
        openName]) none (k.text.toList ++ ([] ++ (v ++ ([] ++ w)))) u :=
      (k.admits_keyword k.spells _).chain_cons <| (hedge (by simpa using hhead)).chain_cons <|
        (admits_span true hv).chain_cons <| (admits_opt_nil _).chain_cons (hw _)
    have hin : clause.isIn _ = true := isIn_start_of_admits (by simp) h
    simpa [lead] using hin
  | some (gap, word) =>
    have hgap := not_isWord_of_edge (gap.head_edge (word.word.text.toList ++ (v ++ (w ++ u))))
    have hword : ∀ b, Admits (opt (chain [keyOrIndex, blanks])) b (word.word.text.toList ++ (v ++ [])) (w ++ u) :=
      fun b => Admits.opt <| (word.admits (by simpa using hhead)).chain_cons <|
        (admits_span true hv).chain_cons admits_chain_nil
    have h : Admits (chain [anyCase "unique", wordEdge, blanks, opt (chain [keyOrIndex, blanks]), opt looseWord,
        openName]) none (k.text.toList ++ ([] ++ (gap.text ++ ((word.word.text.toList ++ (v ++ [])) ++ w)))) u :=
      (k.admits_keyword k.spells _).chain_cons <| (hedge (by simpa using hgap)).chain_cons <|
        (admits_span true gap.isBlank).chain_cons <| (hword _).chain_cons (hw _)
    have hin : clause.isIn _ = true := isIn_start_of_admits (by simp) h
    simpa [lead] using hin

/-- **A clause over a column is found** as far as the first letter of its name. -/
theorem KeyClause.isIn_clause (k : KeyClause) (before inside : Blanks) (n : Identifier) (t : List Char) :
    clause.isIn (k.first.text.toList ++ (k.more ++ opened before inside n t)) = true := by
  cases k with
  | primaryKey p gap k =>
    have hin := isIn_of_clauseTail primary_mem p.folds gap fun b =>
      k.admits_keyOpen k.spells before (inside.text ++ (n.text.toList ++ t))
    simpa [first, more, opened] using hin
  | foreignKey f gap k =>
    have hhead := not_isWord_of_edge (opened_edge before inside n t)
    have hin := isIn_of_clauseTail foreign_mem f.folds gap fun b => k.admits_edge (k.admits_keyword k.spells _) hhead
    simpa [first, more] using hin
  | unique u index name =>
    have hin := isIn_unique u index name before inside n t
    simpa [first, more] using hin

/-- What a named clause begins with is a word of `CONSTRAINT`. -/
theorem KeyClause.first_spells (k : KeyClause) : constraintWords.any k.first.spells = true := by
  rw [List.any_eq_true]
  cases k with
  | primaryKey p _ _ => exact ⟨"primary", by decide, p.spells⟩
  | unique u _ _ => exact ⟨"unique", by decide, u.spells⟩
  | foreignKey f _ _ => exact ⟨"foreign", by decide, f.spells⟩

theorem KeyClause.head?_more (k : KeyClause) (hs : s.head?.all isEdge = true) :
    (k.more ++ s).head?.all isEdge = true := by
  cases k with
  | primaryKey _ gap k | foreignKey _ gap k =>
    rw [more, List.append_assoc]
    exact gap.head_edge _
  | unique _ index name =>
    rw [more, List.append_assoc]
    exact head?_lead _ (head?_lead name hs)

theorem TableClause.isIn_clause (c : TableClause) (before inside : Blanks) (n : Identifier) (t : List Char) :
    clause.isIn (c.first.text.toList ++ (c.more ++ opened before inside n t)) = true := by
  cases c with
  | key k => exact k.isIn_clause before inside n t
  | index word name => exact isIn_index word name before inside n t
  | constraint c gap name gap' k =>
    have hhead := not_isWord_of_edge (k.head?_more (opened_edge before inside n t))
    have hname : ∀ b s, Admits (opt (chain [some1 Text.isWord, blanks1])) b (name.text.toList ++ (gap'.text ++ [])) s :=
      fun b s => Admits.opt <| (admits_some1 name.isWord.1 name.isWord.2).chain_cons <|
        (admits_some1 gap'.ne_nil gap'.isBlank).chain_cons admits_chain_nil
    have hin := isIn_of_clauseTail constraint_mem c.folds gap fun b =>
      (hname b _).chain_cons (k.first.admits_edge (k.first.admits_constraintWord k.first_spells _) hhead)
    simpa [first, more] using hin

theorem comma_lead (name : Option (Gap × Word)) : ',' ∉ lead name := by
  match name with
  | none => exact List.not_mem_nil
  | some (gap, w) => simp [lead, gap.comma, w.comma]

theorem KeyClause.comma (k : KeyClause) : ',' ∉ k.more := by
  cases k with
  | primaryKey _ gap k | foreignKey _ gap k => simp [more, gap.comma, k.comma]
  | unique _ index name => simp [more, comma_lead]

theorem TableClause.comma (c : TableClause) : ',' ∉ c.more := by
  cases c with
  | key k => exact k.comma
  | index _ name => exact comma_lead name
  | constraint _ gap name gap' k => simp [more, gap.comma, name.comma, gap'.comma, k.first.comma, k.comma]

/-- **A clause over a column declares nothing.** -/
theorem TableClause.columns_eq_nil (c : TableClause) (before inside : Blanks) (n : Identifier) (after : Blanks) :
    columns (c.first.text.toList ++ (c.more ++ bracketed before inside n.text.toList after)) = [] := by
  have hcomma : ',' ∉ c.more ++ bracketed before inside n.text.toList after := by
    simp [c.comma, comma_bracketed before inside after n.comma]
  have hends : EndsPlain (c.first.text.toList ++ (c.more ++ bracketed before inside n.text.toList after)) :=
    ((endsPlain_bracketed before inside n.text.toList after).append c.more).append c.first.text.toList
  exact columns_of_clause c.first hcomma hends (c.isIn_clause before inside n _)

/-- **Columns and clauses are told apart**, whatever the words and the white space. -/
theorem columns_fragment :
    (∀ f : Fragment, columns f.text = if f.isClause then [] else [columnOf f.name f.type]) ∧
      (∀ name type : Word, ∃ t : ColumnType, t.word = String.ofList (lower type.text.toList) ∧
        columnOf name type = { name := name.text, type := t }) ∧
      ∀ (c : TableClause) (before inside : Blanks) (n : Identifier) (after : Blanks),
        columns (c.first.text.toList ++ (c.more ++ bracketed before inside n.text.toList after)) = [] :=
  ⟨Fragment.columns_eq, columnOf_eq, TableClause.columns_eq_nil⟩

/-- Keywords as the name and the type of a column, and the clauses that they begin otherwise. -/
theorem columns_fragment_keywords :
    let three : Size := { digits := ['3'] }
    let index : Fragment := { name := { text := "index" }, type := { text := "KEY" }, size := three }
    let check : Fragment := { name := { text := "CHECK" }, type := { text := "Text" } }
    let primary : Fragment := { name := { text := "primary" }, type := { text := "KEY" } }
    let constraint : Fragment := { name := { text := "Constraint" }, type := { text := "check" }, size := three }
    let unique : KeyClause :=
      .unique { text := "UNIQUE" } (some (.space, .index { text := "INDEX" })) (some (.space, { text := "i" }))
    let named : TableClause := .constraint { text := "CONSTRAINT" } .space { text := "c" } .space unique
    let clause := named.first.text.toList ++
      (named.more ++ bracketed Gap.space.toBlanks { text := [] } "a".toList { text := [] })
    (index.text = "index KEY(3)".toList ∧ columns index.text = [{ name := "index", type := .other "key" }]) ∧
      (check.text = "CHECK Text".toList ∧ columns check.text = [{ name := "CHECK", type := .text }]) ∧
      (primary.text = "primary KEY".toList ∧ columns primary.text = [{ name := "primary", type := .other "key" }]) ∧
      ({ primary with size := three }.text = "primary KEY(3)".toList ∧
        columns { primary with size := three }.text = []) ∧
      (constraint.text = "Constraint check(3)".toList ∧ columns constraint.text = []) ∧
      clause = "CONSTRAINT c UNIQUE INDEX i (a)".toList ∧ columns clause = [] := by
  intro three index check primary constraint unique named clause
  exact ⟨⟨by decide +kernel, (columns_fragment.1 index).trans (by decide +kernel)⟩,
    ⟨by decide +kernel, (columns_fragment.1 check).trans (by decide +kernel)⟩,
    ⟨by decide +kernel, (columns_fragment.1 primary).trans (by decide +kernel)⟩,
    ⟨by decide +kernel, (columns_fragment.1 { primary with size := three }).trans (by decide +kernel)⟩,
    ⟨by decide +kernel, (columns_fragment.1 constraint).trans (by decide +kernel)⟩, by decide +kernel,
    columns_fragment.2.2 named Gap.space.toBlanks { text := [] } { text := "a" } { text := [] }⟩

end FluentTables.Sql
