import FluentTables.Proofs.Decimal.Integers
import FluentTables.Proofs.Migration.Fragments

/-!
# Column lists as they are written

A list of columns and clauses is read item by item (`columns_text`). The first two words of a column are its name and
its type. As the list is cut at every comma, what stands behind a list in brackets is a piece of its own if that list
has two parts or more: two words there are taken as one more column (`Item.columns`).
-/

namespace FluentTables.Sql

open Pattern Text

variable {gap : List Char}

/-! ## Items -/

/-- A column as it is written. -/
structure Declared where
  name : Word
  type : Word
  sizes : List Int := []
  attributes : List Word := []
  name_ne : name.text.toList.map foldChar ∉ clauseWords.map String.toList := by decide

/-- A clause over columns of the table, up to its bracket. -/
inductive Constraint where
  | primaryKey (p : Keyword "primary") (k : Keyword "key")
  | unique (u : Keyword "unique") (word : Option IndexWord) (name : Option Word)
  | index (word : IndexWord) (name : Option Word)

/-- The columns that a clause is over: one or more. -/
structure Names where
  first : Identifier
  more : List Identifier := []

/-- An item of a column list as it is written. -/
inductive Item where
  | column (c : Declared)
  | constraint (c : Constraint) (names : Names)
  | foreignKey (f : Keyword "foreign") (k : Keyword "key") (names : Names) (r : Keyword "references") (table : Word)
      (targets : Names)

namespace Constraint

/-- A word with a space behind it, if there is one. -/
def loose (w : Option Word) : List Char := w.elim [] fun w => w.text.toList ++ [' ']

/-- The word that a clause begins with. -/
def first : Constraint → Word
  | primaryKey p _ => p.toWord
  | unique u _ _ => u.toWord
  | index word _ => word.word

/-- What follows, up to the bracket. -/
def more : Constraint → List Char
  | primaryKey _ k => k.text.toList ++ [' ']
  | unique _ word name => loose (word.map IndexWord.word) ++ loose name
  | index _ name => loose name

end Constraint

/-- Names with white space behind the commas. -/
def Names.text (gap : List Char) (n : Names) : List Char := joined gap ((n.first :: n.more).map fun n => n.text.toList)

/-- Sizes in brackets, if there are any. -/
def sizesText (gap : List Char) : List Int → List Char
  | [] => []
  | i :: is => '(' :: (joined gap ((i :: is).map fun i => (toString i).toList) ++ [')'])

/-- The text of an item. -/
def Item.text (gap : List Char) : Item → List Char
  | column c => c.name.text.toList ++ ' ' :: (c.type.text.toList ++ (sizesText gap c.sizes ++ spaced c.attributes))
  | constraint c names => c.first.text.toList ++ ' ' :: (c.more ++ '(' :: (names.text gap ++ [')']))
  | foreignKey f k names r table targets =>
    f.text.toList ++ ' ' :: (k.text.toList ++ ' ' :: '(' :: (names.text gap ++ ')' :: ' ' ::
      (r.text.toList ++ ' ' :: (table.text.toList ++ '(' :: (targets.text gap ++ [')'])))))

/-- The column that an item declares. -/
def Item.declared? : Item → Option Column
  | column c => some (columnOf c.name c.type)
  | _ => none

/-- The columns that are read of an item: behind a list of two or more, two words are read as a column. -/
def Item.columns : Item → List Column
  | column c => columnOf c.name c.type :: if 2 ≤ c.sizes.length then cutColumns c.attributes else []
  | constraint _ _ => []
  | foreignKey _ _ names r table _ => if names.more = [] then [] else [columnOf r.toWord table]

/-! ## Columns -/

/-- The text of an integer is a part of a list, and no name. -/
theorem integer_char {i : Int} {c : Char} (h : c ∈ (toString i).toList) :
    (isEdge c = false ∧ c ≠ ',') ∧ isNameStart c = false := by
  rcases Numeral.mem_toString h with rfl | hd
  · decide
  · refine ⟨⟨isEdge_of_isWord (ascii_word_of_isDigit hd).2, ?_⟩, isNameStart_of_isDigit hd⟩
    rintro rfl
    cases hd

theorem isPart_integer (i : Int) : IsPart (toString i).toList := fun _ hc => (integer_char hc).1

theorem not_mem_spaced {words : List Word} {d : Char} (hd : d = ',' ∨ d = '(') : d ∉ spaced words := by
  intro h
  rcases mem_spaced h with rfl | ⟨hedge, hcomma⟩
  · exact absurd hd (by decide)
  · rcases hd with rfl | rfl
    · exact hcomma rfl
    · exact absurd hedge (by decide)

theorem Declared.name_ne_of_mem (c : Declared) {t : String × List Pattern} (ht : t ∈ clauseTails) :
    c.name.text.toList.map foldChar ≠ t.1.toList := by
  have hword : ∀ t ∈ clauseTails, t.1 ∈ clauseWords := by decide
  exact fun hname => c.name_ne (hname ▸ List.mem_map_of_mem (hword t ht))

/-- A column without sizes. -/
theorem columns_plain (c : Declared) :
    columns (c.name.text.toList ++ ' ' :: (c.type.text.toList ++ spaced c.attributes)) = [columnOf c.name c.type] := by
  have hhead : (spaced c.attributes).head?.any Text.isWord = false := by
    cases c.attributes <;> rfl
  have hopen : '(' ∉ c.name.text.toList ++ ' ' :: (c.type.text.toList ++ spaced c.attributes) := by
    simp [c.name.not_mem_open, c.type.not_mem_open, not_mem_spaced]
  exact columns_pair c.name c.type .space hhead (not_mem_spaced (Or.inl rfl)) (c.type.endsPlain.spaced c.attributes)
    (clause_isIn_pair (fun _ ht hname => absurd hname (c.name_ne_of_mem ht)) (not_spells_openName hopen))

/-- A column with its first size, and what follows up to the next comma. -/
theorem columns_sized (c : Declared) (i : Int) {t : List Char} (hcomma : ',' ∉ t) (hopen : '(' ∉ t)
    (hends : EndsPlain ((toString i).toList ++ t)) :
    columns (c.name.text.toList ++ ' ' :: (c.type.text.toList ++ '(' :: ((toString i).toList ++ t))) =
      [columnOf c.name c.type] := by
  have hpart := isPart_integer i
  have hchar : ∀ e ∈ (toString i).toList, isNameStart e = false := fun e he => (integer_char he).2
  obtain ⟨d, u, hu⟩ := List.exists_cons_of_ne_nil (Numeral.toString_ne_nil i)
  rw [hu] at hpart hchar hends ⊢
  have hedge : isEdge d = false ∧ isNameStart d = false :=
    ⟨hpart.edge d List.mem_cons_self, hchar d List.mem_cons_self⟩
  have hfree : '(' ∉ d :: (u ++ t) := by
    rw [← List.cons_append, List.mem_append, not_or]
    exact ⟨fun h => absurd (hpart.edge _ h) (by decide), hopen⟩
  have hpiece : ',' ∉ '(' :: (d :: u ++ t) := by
    simpa [hcomma] using hpart.comma
  have hopens := not_spells_openName_of_open (u := c.name.text.toList ++ ' ' :: c.type.text.toList)
    (by simp [Word.not_mem_open]) { text := [] } hfree ⟨isBlank_of_isEdge hedge.1, hedge.2⟩
  have hends : EndsPlain (c.type.text.toList ++ '(' :: (d :: u ++ t)) :=
    (hends.append ['(']).append c.type.text.toList
  refine columns_pair c.name c.type .space (by rfl) hpiece hends ?_
  exact clause_isIn_pair (fun _ ht hname => absurd hname (c.name_ne_of_mem ht)) (by simpa [Gap.space] using hopens)

theorem columns_column (hgap : ∀ c ∈ gap, isBlank c = true) (c : Declared) :
    columns (Item.text gap (.column c)) = Item.columns (.column c) := by
  rw [Item.text, Item.columns]
  match hsizes : c.sizes with
  | [] => exact columns_plain c
  | i :: is =>
    have htext : c.name.text.toList ++ ' ' :: (c.type.text.toList ++ (sizesText gap (i :: is) ++ spaced c.attributes)) =
        c.name.text.toList ++ ' ' :: (c.type.text.toList ++ ['(']) ++
          (joined gap ((i :: is).map fun i => (toString i).toList) ++ ')' :: spaced c.attributes) := by
      simp [sizesText]
    have hcomma : ',' ∉ ')' :: spaced c.attributes := by simp [not_mem_spaced]
    have hopen : '(' ∉ ')' :: spaced c.attributes := by simp [not_mem_spaced]
    have hends : EndsPlain ((toString i).toList ++ ')' :: spaced c.attributes) :=
      ((endsPlain_close []).spaced c.attributes).append (toString i).toList
    rw [htext]
    rcases List.eq_nil_or_concat is with rfl | ⟨is, j, rfl⟩
    · have h := columns_sized c i hcomma hopen hends
      simpa [joined_singleton] using h
    · have hparts : ∀ p ∈ is.map fun i => (toString i).toList, columns p = [] := by
        intro p hp
        obtain ⟨j, -, rfl⟩ := List.mem_map.1 hp
        exact (isPart_integer j).columns
      have hplain : EndsPlain (toString i).toList :=
        endsPlain_of_isEdge (Numeral.toString_ne_nil i) (isPart_integer i).edge
      have h := columns_sized c i (t := []) List.not_mem_nil List.not_mem_nil (by simpa using hplain)
      have hcut := columns_bracket hgap (c.name.text.toList ++ ' ' :: (c.type.text.toList ++ ['('])) (toString i).toList
        hparts (toString j).toList (')' :: spaced c.attributes)
      rw [columns_close (isPart_integer j)] at hcut
      simp only [List.concat_eq_append, List.map_cons, List.map_append, List.map_nil]
      rw [hcut, if_pos (by simp)]
      simp only [List.append_nil] at h
      simp only [List.append_assoc, List.cons_append, List.nil_append]
      rw [h, List.singleton_append]

/-! ## Clauses -/

/-- The clause with its white space. -/
def Constraint.toClause : Constraint → TableClause
  | primaryKey p k => .key (.primaryKey p .space k)
  | unique u word name => .key (.unique u (word.map (Gap.space, ·)) (name.map (Gap.space, ·)))
  | index word name => .index word (name.map (Gap.space, ·))

theorem Constraint.text_toClause (c : Constraint) (s : List Char) :
    c.toClause.first.text.toList ++ (c.toClause.more ++ (Gap.space.text ++ '(' :: s)) =
      c.first.text.toList ++ ' ' :: (c.more ++ '(' :: s) := by
  have hloose : ∀ (w : Option Word) (s : List Char),
      lead (w.map (Gap.space, ·)) ++ ' ' :: s = ' ' :: (loose w ++ s) := by
    intro w s
    cases w with
    | none => rfl
    | some w => simp [lead, loose, Gap.space]
  cases c with
  | primaryKey p k => simp [toClause, first, more, TableClause.first, TableClause.more, KeyClause.first,
      KeyClause.more, Gap.space]
  | unique u word name =>
    have hword : (word.map (Gap.space, ·)).map (fun i => (i.1, i.2.word)) =
        (word.map IndexWord.word).map (Gap.space, ·) := by
      cases word <;> rfl
    simp only [toClause, TableClause.first, TableClause.more, KeyClause.first, KeyClause.more, first, more, hword,
      List.append_assoc]
    exact congrArg (u.text.toList ++ ·) ((congrArg _ (hloose name _)).trans (hloose _ _))
  | index word name => exact congrArg (word.word.text.toList ++ ·) (hloose name ('(' :: s))

/-- A clause over columns is found as far as the first of them. -/
theorem Constraint.isIn_clause (c : Constraint) (n : Identifier) (t : List Char) :
    clause.isIn (c.first.text.toList ++ ' ' :: (c.more ++ '(' :: (n.text.toList ++ t))) = true := by
  rw [← text_toClause]
  exact c.toClause.isIn_clause Gap.space.toBlanks { text := [] } n t

/-- `FOREIGN KEY` is found whatever follows it. -/
theorem isIn_foreignKey (f : Keyword "foreign") (k : Keyword "key") (t : List Char) :
    clause.isIn (f.text.toList ++ ' ' :: (k.text.toList ++ ' ' :: t)) = true :=
  isIn_of_clauseTail foreign_mem f.folds .space fun b => k.admits_edge (k.admits_keyword k.spells _) (by rfl)

/-! ## Names in brackets -/

/-- Names are one, or they are cut. -/
theorem Names.text_cases (hgap : ∀ c ∈ gap, isBlank c = true) (n : Names) :
    (n.more = [] ∧ n.text gap = n.first.text.toList) ∨
    (n.more ≠ [] ∧ ∃ last : Word, ∀ pre post, columns (pre ++ (n.text gap ++ post)) =
      columns (pre ++ n.first.text.toList) ++ columns (last.text.toList ++ post)) := by
  obtain ⟨first, more⟩ := n
  rcases List.eq_nil_or_concat more with rfl | ⟨more, last, rfl⟩
  · exact Or.inl ⟨rfl, joined_singleton _⟩
  · refine Or.inr ⟨by simp, last.toWord, fun pre post => ?_⟩
    have hparts : ∀ p ∈ more.map fun n => n.text.toList, columns p = [] := by
      intro p hp
      obtain ⟨n, -, rfl⟩ := List.mem_map.1 hp
      exact n.isPart.columns
    have hcut := columns_bracket hgap pre first.text.toList hparts last.text.toList post
    simpa [Names.text] using hcut

/-- In front of the end, only the first name counts. -/
theorem Names.columns_last (hgap : ∀ c ∈ gap, isBlank c = true) (n : Names) (pre : List Char) :
    ∃ t, (t = [] ∨ t = [')']) ∧
      columns (pre ++ (n.text gap ++ [')'])) = columns (pre ++ (n.first.text.toList ++ t)) := by
  rcases n.text_cases hgap with ⟨-, htext⟩ | ⟨-, last, hcut⟩
  · exact ⟨[')'], Or.inr rfl, by rw [htext]⟩
  · refine ⟨[], Or.inl rfl, ?_⟩
    have hclose : columns (last.text.toList ++ [')']) = [] := columns_close last.isPart []
    rw [hcut, hclose, List.append_nil, List.append_nil]

theorem Names.last_char {t : List Char} (ht : t = [] ∨ t = [')']) (n : Identifier) :
    EndsPlain (n.text.toList ++ t) ∧ ',' ∉ n.text.toList ++ t := by
  rcases ht with rfl | rfl
  · exact ⟨by simpa using n.endsPlain, by simpa using n.comma⟩
  · exact ⟨endsPlain_close _, by simp [n.comma]⟩

theorem Constraint.comma (c : Constraint) : ',' ∉ c.more := by
  have hloose : ∀ w : Option Word, ',' ∉ loose w := by
    intro w
    cases w with
    | none => exact List.not_mem_nil
    | some w => simp [loose, w.comma]
  cases c with
  | primaryKey p k => simp [more, k.comma]
  | unique u word name => simp [more, hloose]
  | index word name => exact hloose name

theorem columns_constraint (hgap : ∀ c ∈ gap, isBlank c = true) (c : Constraint) (names : Names) :
    columns (Item.text gap (.constraint c names)) = [] := by
  obtain ⟨t, ht, hcut⟩ := names.columns_last hgap (c.first.text.toList ++ ' ' :: (c.more ++ ['(']))
  obtain ⟨hends, hcomma⟩ := Names.last_char ht names.first
  have hnone := columns_of_clause c.first (s := ' ' :: (c.more ++ '(' :: (names.first.text.toList ++ t)))
    (by simpa [c.comma] using hcomma) (((hends.append ['(']).append (' ' :: c.more)).append c.first.text.toList)
    (c.isIn_clause names.first t)
  rw [Item.text]
  simp only [List.append_assoc, List.cons_append, List.nil_append] at hcut
  rw [hcut, hnone]

theorem columns_foreignKey (hgap : ∀ c ∈ gap, isBlank c = true) (f : Keyword "foreign") (k : Keyword "key")
    (names : Names) (r : Keyword "references") (table : Word) (targets : Names) :
    columns (Item.text gap (.foreignKey f k names r table targets)) =
      Item.columns (.foreignKey f k names r table targets) := by
  obtain ⟨t, ht, hlast⟩ := targets.columns_last hgap (f.text.toList ++ ' ' :: (k.text.toList ++ ' ' :: '(' ::
    (names.text gap ++ ')' :: ' ' :: (r.text.toList ++ ' ' :: (table.text.toList ++ ['('])))))
  obtain ⟨hends, hcomma⟩ := Names.last_char ht targets.first
  have hclause : ∀ {u : List Char}, ',' ∉ u → EndsPlain u →
      columns (f.text.toList ++ ' ' :: (k.text.toList ++ ' ' :: '(' :: u)) = [] := by
    intro u hu hplain
    exact columns_of_clause f.toWord (by simp [k.comma, hu])
      (((hplain.append [' ', '(']).append (' ' :: k.text.toList)).append f.text.toList) (isIn_foreignKey f k _)
  have htable : EndsPlain (table.text.toList ++ '(' :: (targets.first.text.toList ++ t)) :=
    (hends.append ['(']).append table.text.toList
  rw [Item.text]
  simp only [List.append_assoc, List.cons_append, List.nil_append] at hlast
  rw [hlast, Item.columns]
  rcases names.text_cases hgap with ⟨hmore, htext⟩ | ⟨hmore, last, hcut⟩
  · have hrest : EndsPlain (names.first.text.toList ++ ')' :: ' ' :: (r.text.toList ++ ' ' :: (table.text.toList ++
        '(' :: (targets.first.text.toList ++ t)))) :=
      (((htable.append [' ']).append r.text.toList).append [')', ' ']).append names.first.text.toList
    rw [htext, if_pos hmore]
    exact hclause (by simpa [names.first.comma, r.comma, table.comma] using hcomma) hrest
  · have hcut := hcut (f.text.toList ++ ' ' :: (k.text.toList ++ [' ', '('])) (')' :: ' ' :: (r.text.toList ++ ' ' ::
      (table.text.toList ++ '(' :: (targets.first.text.toList ++ t))))
    have hpair := columns_close_pair last.isPart r.toWord table (by rfl)
      (by simpa using hcomma) htable
    have hfirst := hclause names.first.comma names.first.endsPlain
    simp only [List.append_assoc, List.cons_append, List.nil_append] at hcut
    rw [hcut, hfirst, List.nil_append, hpair, if_neg hmore]

/-! ## Lists -/

/-- What is read of an item depends on the item alone. -/
theorem columns_item (hgap : ∀ c ∈ gap, isBlank c = true) (i : Item) : Sql.columns (i.text gap) = i.columns := by
  cases i with
  | column c => exact columns_column hgap c
  | constraint c names => exact columns_constraint hgap c names
  | foreignKey f k names r table targets => exact columns_foreignKey hgap f k names r table targets

/-- A list of columns and clauses as it is written, with white space behind the commas: `gap` between items, `inner`
within brackets. -/
structure ColumnList where
  first : Item
  more : List Item := []
  gap : List Char := [' ']
  inner : List Char := []
  gap_blank : (∀ c ∈ gap, isBlank c = true) ∧ ∀ c ∈ inner, isBlank c = true := by decide

namespace ColumnList

def items (l : ColumnList) : List Item := l.first :: l.more

def text (l : ColumnList) : List Char := joined l.gap (l.items.map (Item.text l.inner))

theorem columns_items (l : ColumnList) : columns l.text = l.items.flatMap Item.columns := by
  obtain ⟨first, more, gap, inner, hgap, hinner⟩ := l
  show columns (joined gap ((first :: more).map (Item.text inner))) = (first :: more).flatMap Item.columns
  induction more generalizing first with
  | nil => rw [List.map_singleton, joined_singleton, columns_item hinner, List.flatMap_singleton]
  | cons i more ih =>
    rw [List.map_cons, List.map_cons, joined_cons_cons, ← List.map_cons, columns_append_comma, columns_gap hgap, ih,
      columns_item hinner, ← List.flatMap_cons]

/-- **A column list is read item by item**, each column with its name and, in lower case, the word of its type. -/
theorem columns_text (l : ColumnList) : columns l.text = l.items.flatMap Item.columns ∧
    ∀ name type : Word, ∃ t : ColumnType, t.word = String.ofList (lower type.text.toList) ∧
      columnOf name type = { name := name.text, type := t } :=
  ⟨l.columns_items, columnOf_eq⟩

/-- `price DECIMAL(10,2) NOT NULL`. -/
def price : Declared where
  name := { text := "price" }
  type := { text := "DECIMAL" }
  sizes := [10, 2]
  attributes := [{ text := "NOT" }, { text := "NULL" }]

/-- Two words behind two sizes, and a foreign key of two columns, are read as columns; a key of the table is not. -/
theorem columns_text_prices :
    let id : Declared := { name := { text := "id" }, type := { text := "INT" }, attributes := price.attributes }
    let key : Constraint := .primaryKey { text := "PRIMARY" } { text := "KEY" }
    let reference : Item := .foreignKey { text := "FOREIGN" } { text := "KEY" }
      { first := { text := "a" }, more := [{ text := "b" }] } { text := "REFERENCES" } { text := "Shops" }
      { first := { text := "id" } }
    let l : ColumnList :=
      { first := .column id, more := [.column price, .constraint key { first := { text := "id" } }, reference] }
    l.text = ("id INT NOT NULL, price DECIMAL(10,2) NOT NULL, " ++
        "PRIMARY KEY (id), FOREIGN KEY (a,b) REFERENCES Shops(id)").toList ∧
      columns l.text = [{ name := "id", type := .other "int" }, { name := "price", type := .decimal },
        { name := "NOT", type := .other "null" }, { name := "REFERENCES", type := .other "shops" }] := by
  intro id key reference l
  exact ⟨by decide +kernel, l.columns_text.1.trans (by decide +kernel)⟩

/-- **The list of `price` has a column that it does not declare**: the two words behind its sizes are taken as one. -/
theorem columns_ne_declared :
    let l : ColumnList := { first := .column price }
    l.text = "price DECIMAL(10,2) NOT NULL".toList ∧
      l.items.filterMap Item.declared? = [{ name := "price", type := .decimal }] ∧
      columns l.text = [{ name := "price", type := .decimal }, { name := "NOT", type := .other "null" }] ∧
      columns l.text ≠ l.items.filterMap Item.declared? := by
  intro l
  have hcolumns : columns l.text = [{ name := "price", type := .decimal }, { name := "NOT", type := .other "null" }] :=
    l.columns_items.trans (by decide +kernel)
  have hdeclared : l.items.filterMap Item.declared? = [{ name := "price", type := .decimal }] := by decide +kernel
  refine ⟨by decide +kernel, hdeclared, hcolumns, ?_⟩
  rw [hcolumns, hdeclared]
  decide

end ColumnList

end FluentTables.Sql
