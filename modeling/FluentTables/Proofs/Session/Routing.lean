import FluentTables.Proofs.Migration.ParsedTables
import FluentTables.Proofs.Pattern.Admission
import FluentTables.Proofs.Query.Preparation
import FluentTables.Proofs.Query.WrittenCreations
import FluentTables.Proofs.Session.Store

/-!
# Which way a statement goes

The kind of a statement is decided before anything of it is read, by how it begins and by whether `Schema::create`
occurs in it. A statement that begins with a model is never taken for another command, and declares tables just if
those words occur in it (`kind_of_model`). They do not in a creation whose model does not end in `Schema` and whose
values do not hold them (`schemaCreate_infix_creation`), so that such a creation adds its row (`execute_creation`). A
statement in SQL whose two words stand one blank apart declares what the parser reads in it
(`execute_sqlStatement`).
-/

namespace FluentTables

/-! ## Parts and cases of texts -/

namespace Text

theorem startsWith_iff {p s : List Char} : startsWith p s = true ↔ p <+: s := List.isPrefixOf_iff_prefix

theorem contains_iff {p s : List Char} : contains p s = true ↔ p <:+: s := by
  induction s with
  | nil => rw [contains, List.isEmpty_iff, List.infix_nil]
  | cons c r ih => rw [contains, Bool.or_eq_true, startsWith_iff, ih, List.infix_cons_iff]

theorem not_infix_of_mem {c : Char} {w s : List Char} (hw : c ∈ w) (hs : c ∉ s) : ¬ w <:+: s :=
  fun h => hs (h.subset hw)

/-- What stands in a list without having commas or white space stands in one of the arguments. -/
theorem infix_of_joined {w gap : List Char} {args : List (List Char)} (hne : w ≠ []) (hcomma : ',' ∉ w)
    (hgap : ∀ c ∈ gap, c ∉ w) (h : w <:+: joined gap args) : ∃ a ∈ args, w <:+: a := by
  have hskip : ∀ {g s : List Char}, (∀ c ∈ g, c ∉ w) → w <:+: g ++ s → w <:+: s := by
    intro g s hg hws
    induction g with
    | nil => exact hws
    | cons c g ih =>
      have hsides := infix_of_append_cons (u := []) (hg c List.mem_cons_self) hws
      exact ih (fun d hd => hg d (List.mem_cons_of_mem c hd)) (hsides.resolve_left fun hnil => hne (List.infix_nil.1 hnil))
  induction args with
  | nil => exact absurd (List.infix_nil.1 h) hne
  | cons a args ih =>
    cases args with
    | nil => exact ⟨a, List.mem_cons_self, by rwa [joined_singleton] at h⟩
    | cons b args =>
      rw [joined_cons_cons] at h
      rcases infix_of_append_cons hcomma h with ha | hrest
      · exact ⟨a, List.mem_cons_self, ha⟩
      · obtain ⟨d, hd, hw⟩ := ih (hskip hgap hrest)
        exact ⟨d, List.mem_cons_of_mem a hd, hw⟩

theorem upper_append (a b : List Char) : upper (a ++ b) = upper a ++ upper b := List.flatMap_append

/-- ASCII text is raised character by character. -/
theorem upper_ascii {s : List Char} (h : ∀ c ∈ s, c.toNat < 0x80) : upper s = s.map Char.toUpper := by
  induction s with
  | nil => rfl
  | cons c s ih =>
    rw [upper_cons, upperChar_ascii (h c List.mem_cons_self), ih fun d hd => h d (List.mem_cons_of_mem c hd)]
    rfl

/-- What is an ASCII character in lower case is one in any case. -/
theorem ascii_of_toLower {c : Char} (h : c.toLower.toNat < 0x80) : c.toNat < 0x80 := by
  by_cases hupper : 'A'.val ≤ c.val ∧ c.val ≤ 'Z'.val
  · exact Nat.lt_of_le_of_lt (UInt32.le_iff_toNat_le.1 hupper.2) (by decide)
  · have hsame : c.toLower = c := dif_neg hupper
    rwa [hsame] at h

/-- A word of the language in any case. -/
theorem spelled_keyword {w : List Char} {k : String} (hk : ∀ c ∈ k.toList, c.isLower = true)
    (h : sameAscii w k.toList = true) : w.map foldChar = k.toList ∧ upper w = k.toList.map Char.toUpper := by
  have hlower : ∀ c : Char, c.isLower = true → c.toNat < 0x80 ∧ c.toLower = c := by
    intro c hc
    have hletter : c.isAlpha = true := Bool.or_eq_true_iff.2 (Or.inr hc)
    have hascii : c.toNat < 0x80 := ascii_of_isAlpha hletter
    exact ⟨hascii, ascii_cases (P := fun c => c.isLower = true → c.toLower = c) (by decide) hascii hc⟩
  have hcase : ∀ c : Char, c.toNat < 0x80 → c.toLower.toUpper = c.toUpper := fun c hc =>
    ascii_cases (P := fun c => c.toLower.toUpper = c.toUpper) (by decide) hc
  have hword : w.map Char.toLower = k.toList := by
    rw [sameAscii, beq_iff_eq] at h
    rw [h, List.map_congr_left fun c hc => (hlower c (hk c hc)).2, List.map_id']
  have hascii : ∀ c ∈ w, c.toNat < 0x80 := fun c hc =>
    ascii_of_toLower (hlower _ (hk _ (hword ▸ List.mem_map_of_mem hc))).1
  constructor
  · rw [List.map_congr_left fun c hc => foldChar_ascii (hascii c hc), hword]
  · rw [upper_ascii hascii, ← hword, List.map_map]
    exact List.map_congr_left fun c hc => (hcase c (hascii c hc)).symm

end Text

namespace Session

open Text

variable {s : Session} {n : Nat} {w rest : List Char}

/-! ## Statements that begin with a model -/

/-- The words that declare tables wherever they stand. -/
abbrev schemaCreate : List Char := "Schema::create".toList

/-- A command of two words does not begin a statement that begins with a model. -/
theorem startsWith_upper_eq_false (hw : IsAsciiWord w) {command : List Char} (hblank : ' ' ∈ command)
    (hcolon : ':' ∉ command) (rest : List Char) : startsWith command (upper (w ++ ':' :: rest)) = false := by
  have hupper : upper (w ++ ':' :: rest) = (w.map Char.toUpper ++ [':']) ++ upper rest := by
    rw [upper_append, upper_ascii fun c hc => (hw.2 c hc).1, upper_cons]
    simp [upperChar_ascii]
  have hword : ' ' ∉ w.map Char.toUpper := by
    intro hmem
    obtain ⟨c, hc, hupper⟩ := List.mem_map.1 hmem
    have hraised : ∀ c : Char, c.toNat < 0x80 → c.toUpper = ' ' → c = ' ' := fun c hc =>
      ascii_cases (P := fun c => c.toUpper = ' ' → c = ' ') (by decide) hc
    obtain rfl := hraised c (hw.2 c hc).1 hupper
    exact absurd (hw.2 _ hc).2 (by decide)
  rw [Bool.eq_false_iff, Ne, startsWith_iff, hupper]
  intro hprefix
  rcases List.prefix_or_prefix_of_prefix hprefix (List.prefix_append _ _) with h | h
  · have hmem : ' ' ∈ w.map Char.toUpper ++ [':'] := h.subset hblank
    simp [hword] at hmem
  · exact hcolon (h.subset (by simp))

/-- **A statement that begins with a model** declares tables if `Schema::create` occurs in it, and is a query
otherwise. -/
theorem kind_of_model (hw : IsAsciiWord w) (htrim : trim (w ++ ':' :: rest) = w ++ ':' :: rest) :
    kind (w ++ ':' :: rest) = if contains schemaCreate (w ++ ':' :: rest) then .declaring else .query := by
  have hsilent : isSilent (w ++ ':' :: rest) = false := by
    obtain ⟨c, v, rfl⟩ := List.exists_cons_of_ne_nil hw.1
    have hc : c ≠ '#' ∧ c ≠ '/' := by
      have hword := (hw.2 c List.mem_cons_self).2
      constructor
      all_goals
        rintro rfl
        exact absurd hword (by decide)
    simp [isSilent, startsWith, List.isPrefixOf, hc.1.symm, hc.2.symm]
  have hcommand : ∀ command : String, ' ' ∈ command.toList → ':' ∉ command.toList →
      startsWith command.toList (upper (w ++ ':' :: rest)) = false := fun _ hblank hcolon =>
    startsWith_upper_eq_false hw hblank hcolon rest
  rw [kind, htrim]
  simp only [hsilent, hcommand "SHOW " (by decide) (by decide), hcommand "SAVE " (by decide) (by decide), isDeclaration,
    hcommand "CREATE TABLE" (by decide) (by decide), Bool.or_false, Bool.false_eq_true, if_false]

end Session

/-! ## Creations -/

namespace Query

open Text Session

variable {model : String} {gap : List Char} {pairs : List (String × String)}

/-- Pairs of keys and texts between single quotes. -/
def textPairs (pairs : List (String × String)) : List (String × Literal) :=
  pairs.map fun p => (p.1, .text '\'' p.2)

/-- A creation begins with its model and a colon. -/
theorem creation_eq (model : String) (gap : List Char) (pairs : List (String × Literal)) :
    creation model gap pairs = model.toList ++ ':' :: (":create".toList ++
      '(' :: ('[' :: (joined gap (pairs.map pairText) ++ ']' :: [')']))) := by
  have hcall : "::create(".toList = ':' :: ":create".toList ++ ['('] := by decide
  rw [creation, hcall]
  simp only [List.append_assoc, List.cons_append, List.nil_append]

theorem mem_textPairs {a : List Char} (h : a ∈ (textPairs pairs).map pairText) :
    ∃ p ∈ pairs, a = quoted p.1.toList ++ (" => ".toList ++ quoted p.2.toList) := by
  rw [textPairs, List.map_map] at h
  obtain ⟨p, hp, rfl⟩ := List.mem_map.1 h
  exact ⟨p, hp, rfl⟩

/-- **`Schema::create` occurs in a creation** only if the model ends in `Schema` or a value holds the words. -/
theorem schemaCreate_infix_creation (hmodel : IsAsciiWord model.toList) (hgap : ∀ c ∈ gap, isBlank c = true)
    (hkeys : ∀ p ∈ pairs, IsAsciiWord p.1.toList) (h : schemaCreate <:+: creation model gap (textPairs pairs)) :
    "Schema".toList <:+ model.toList ∨ ∃ p ∈ pairs, schemaCreate <:+: p.2.toList := by
  have hword : ∀ {w : List Char}, IsAsciiWord w → ':' ∉ w := fun hw hc => (ascii_word (hw.2 _ hc)).2.2 (by simp)
  rw [creation_eq, ← List.cons_append, ← List.append_assoc] at h
  rcases infix_of_append_cons (by decide) h with hfirst | harguments
  · -- The two colons are those behind the model.
    have hmark : "Schema".toList ++ [':'] <:+: schemaCreate := ⟨[], ":create".toList, by decide⟩
    have hcolon : "Schema".toList ++ [':'] <:+: model.toList ++ ':' :: ":create".toList := hmark.trans hfirst
    have hcreate : ¬ "Schema".toList ++ [':'] <:+: ":create".toList :=
      not_infix_of_mem (c := 'S') (by decide) (by decide)
    exact Or.inl ((suffix_or_infix_of_append_cons (by decide) (hword hmodel) hcolon).resolve_right hcreate)
  · right
    have hpart : ∀ {s : List Char}, ':' ∉ s → ¬ schemaCreate <:+: s := fun hs => not_infix_of_mem (by decide) hs
    have hlist : schemaCreate <:+: joined gap ((textPairs pairs).map pairText) := by
      have hopen := (infix_of_append_cons (u := []) (by decide) harguments).resolve_left (hpart (by decide))
      exact (infix_of_append_cons (by decide) hopen).resolve_right (hpart (by decide))
    have hblank : ∀ c ∈ gap, c ∉ schemaCreate := by
      intro c hc hmem
      have hmarks : ∀ c ∈ schemaCreate, isBlank c = false := by decide
      exact absurd (hgap c hc) (by simp [hmarks c hmem])
    obtain ⟨a, ha, hin⟩ := infix_of_joined (by decide) (by decide) hblank hlist
    obtain ⟨p, hp, rfl⟩ := mem_textPairs ha
    refine ⟨p, hp, ?_⟩
    -- Quotes part the key and the value from the arrow.
    have hpair : quoted p.1.toList ++ (" => ".toList ++ quoted p.2.toList) =
        '\'' :: (p.1.toList ++ '\'' :: (" => ".toList ++ '\'' :: (p.2.toList ++ '\'' :: []))) := by
      simp [quoted, quotedBy]
    rw [hpair] at hin
    have hkey := (infix_of_append_cons (u := []) (by decide) hin).resolve_left (hpart (by decide))
    have harrow := (infix_of_append_cons (by decide) hkey).resolve_left (hpart (hword (hkeys p hp)))
    have hvalue := (infix_of_append_cons (by decide) harrow).resolve_left (hpart (by decide))
    exact (infix_of_append_cons (by decide) hvalue).resolve_right (hpart (by decide))

/-- Decimal commas change a creation in its pairs only. -/
theorem prepare_creation (hmodel : IsAsciiWord model.toList) (gap : List Char) (pairs : List (String × Literal)) :
    ∃ body, prepare (creation model gap pairs) =
        model.toList ++ ("::create(".toList ++ ('[' :: (body ++ ']' :: [')']))) ∧
      Pointed (joined gap (pairs.map pairText)) body := by
  have hpointed := pointed_prepare (creation model gap pairs)
  rw [trim_creation hmodel] at hpointed
  nth_rewrite 1 [creation] at hpointed
  obtain ⟨a, b, hab, ha, hb⟩ := hpointed.of_append
  obtain ⟨c, d, rfl, hc, hd⟩ := hb.of_append
  obtain ⟨e, f, rfl, he, hf⟩ := (show Pointed (['['] ++ _) d from hd).of_append
  obtain ⟨g, k, rfl, hg, hk⟩ := hf.of_append
  have hcomma : ',' ∉ model.toList := fun hmem => (ascii_word (hmodel.2 _ hmem)).2.2 (by simp)
  obtain rfl := ha.eq_of_no_comma hcomma
  obtain rfl := hc.eq_of_no_comma (by decide)
  obtain rfl := he.eq_of_no_comma (by decide)
  obtain rfl := hk.eq_of_no_comma (by decide)
  exact ⟨g, hab, hg⟩

/-- A creation is recognized as one, also if it has decimal commas. -/
theorem recognize_prepare_creation (hmodel : IsAsciiWord model.toList) (hgap : ∀ c ∈ gap, isBlank c = true)
    (hpairs : ∀ p ∈ pairs, IsAsciiWord p.1.toList ∧ ']' ∉ p.2.toList) :
    ∃ m, Shape.recognize? (prepare (creation model gap (textPairs pairs))) = some (.create, m) ∧
      m.group 1 = model.toList := by
  have hjoined : ']' ∉ joined gap ((textPairs pairs).map pairText) := by
    refine not_mem_pairs hgap fun q hq => ?_
    obtain ⟨p, hp, rfl⟩ := List.mem_map.1 hq
    refine ⟨(hpairs p hp).1, fun hmem => ?_⟩
    rcases mem_quotedBy.1 hmem with hquote | hvalue
    · exact absurd hquote (by decide)
    · exact (hpairs p hp).2 hvalue
  obtain ⟨body, hprepare, hpointed⟩ := prepare_creation hmodel gap (textPairs pairs)
  have hbody : ']' ∉ body := fun hmem => (hpointed.mem hmem).elim (by decide) hjoined
  obtain ⟨m, hm, hgroup, -⟩ := recognize_create hmodel hbody
  exact ⟨m, hprepare ▸ hm, hgroup⟩

end Query

namespace Session

open Text Query

variable {model : String} {gap : List Char} {pairs : List (String × String)}

/-- Neither the model nor a value makes a creation anything else than a query, if they do not spell
`Schema::create`. -/
theorem kind_creation (hmodel : IsAsciiWord model.toList) (hschema : ¬ "Schema".toList <:+ model.toList)
    (hgap : ∀ c ∈ gap, isBlank c = true)
    (hpairs : ∀ p ∈ pairs, IsAsciiWord p.1.toList ∧ ¬ schemaCreate <:+: p.2.toList) :
    kind (creation model gap (textPairs pairs)) = .query := by
  have hno : contains schemaCreate (creation model gap (textPairs pairs)) = false := by
    rw [Bool.eq_false_iff, Ne, contains_iff]
    intro h
    rcases schemaCreate_infix_creation hmodel hgap (fun p hp => (hpairs p hp).1) h with h | ⟨p, hp, h⟩
    · exact hschema h
    · exact (hpairs p hp).2 h
  have htrim : trim (creation model gap (textPairs pairs)) = creation model gap (textPairs pairs) :=
    trim_creation hmodel
  rw [creation_eq] at htrim hno ⊢
  rw [kind_of_model hmodel htrim, hno]
  rfl

/-- **A creation adds its row**, whatever the session: if the model does not end in `Schema`, no value holds the words
`Schema::create` and none closes the list. -/
theorem execute_creation (s : Session) (n : Nat) (hmodel : IsAsciiWord model.toList)
    (hschema : ¬ "Schema".toList <:+ model.toList) (hgap : ∀ c ∈ gap, isBlank c = true)
    (hpairs : ∀ p ∈ pairs, IsAsciiWord p.1.toList ∧ ']' ∉ p.2.toList ∧ ¬ schemaCreate <:+: p.2.toList) :
    kind (creation model gap (textPairs pairs)) = .query ∧
      ∃ row t, s.execute n (creation model gap (textPairs pairs)) =
          .ok (.result (.created (s.interpreter.naming.tableOf model) row), t) ∧
        (∀ u, t.data.rows u =
          if s.interpreter.naming.tableOf model = u then s.data.rows u ++ [row] else s.data.rows u) ∧
        t.schema = s.schema := by
  have hkind : kind (creation model gap (textPairs pairs)) = .query :=
    kind_creation hmodel hschema hgap fun p hp => ⟨(hpairs p hp).1, (hpairs p hp).2.2⟩
  obtain ⟨m, hm, hgroup⟩ := recognize_prepare_creation hmodel hgap fun p hp => ⟨(hpairs p hp).1, (hpairs p hp).2.1⟩
  obtain ⟨row, hrow⟩ : ∃ row, s.interpreter.interpret (String.ofList (creation model gap (textPairs pairs))) s.data =
      .created (s.interpreter.naming.tableOf model) row := by
    simp only [Interpreter.interpret, String.toList_ofList, hm, Interpreter.dispatch, hgroup, String.ofList_toList]
    exact ⟨_, rfl⟩
  have hexecute : s.execute n (creation model gap (textPairs pairs)) = .ok
      (.result (.created (s.interpreter.naming.tableOf model) row),
        { s with data := s.data.push (s.interpreter.naming.tableOf model) row }) := by
    rw [execute_eq, hkind, trim_creation hmodel]
    simp only [runQuery, hrow]
  exact ⟨hkind, row, _, hexecute, fun u => Dataset.rows_push _ _ _ _, rfl⟩

theorem execute_creation_product :
    let s := start ⟨.extend .empty .empty, "2024-01-01 00:00:00"⟩ ⟨⟨[("products", [⟨[("id", .int 3)]⟩])]⟩⟩
    let pairs := [("Schema", "create :: SHOW (1,5)"), ("price", "9,99")]
    (IsAsciiWord "Product".toList ∧ ¬ "Schema".toList <:+ "Product".toList ∧ (∀ c ∈ [' '], isBlank c = true) ∧
        ∀ p ∈ pairs, IsAsciiWord p.1.toList ∧ ']' ∉ p.2.toList ∧ ¬ schemaCreate <:+: p.2.toList) ∧
      ∃ row t, s.execute 1 (creation "Product" [' '] (textPairs pairs)) = .ok (.result (.created "products" row), t) ∧
        t.data.rows "products" = [⟨[("id", .int 3)]⟩, row] := by
  intro s pairs
  have hmodel : IsAsciiWord "Product".toList := by decide
  have hschema : ¬ "Schema".toList <:+ "Product".toList := fun h => absurd (h.subset (by decide : 'S' ∈ _)) (by decide)
  have hgap : ∀ c ∈ [' '], isBlank c = true := by decide
  have hpairs : ∀ p ∈ pairs, IsAsciiWord p.1.toList ∧ ']' ∉ p.2.toList ∧ ¬ schemaCreate <:+: p.2.toList := by
    simp only [← contains_iff]
    decide
  obtain ⟨-, row, t, hexecute, hrows, -⟩ := execute_creation s 1 hmodel hschema hgap hpairs
  exact ⟨⟨hmodel, hschema, hgap, hpairs⟩, row, t, hexecute, (hrows "products").trans rfl⟩

/-- A creation whose model ends in `Schema`, or of whose values one holds `Schema::create`, is refused as a declaration
of tables. -/
theorem creations_refused :
    (IsAsciiWord "MySchema".toList ∧ "MySchema" ≠ "Schema") ∧ ∀ (s : Session) (n : Nat),
      s.execute n (creation "MySchema" [' '] (textPairs [("k", "v")])) = .error ⟨n, .fault .unknownDeclaration⟩ ∧
        s.execute n (creation "T" [' '] (textPairs [("k", "Schema::create")])) =
          .error ⟨n, .fault .unknownDeclaration⟩ := by
  have hrefused : ∀ statement : List Char, kind statement = .declaring →
      (migrationSchema (String.ofList (trim statement))).isEmpty = true →
      ∀ (s : Session) (n : Nat), s.execute n statement = .error ⟨n, .fault .unknownDeclaration⟩ := by
    intro statement hkind hempty s n
    rw [execute_eq, hkind]
    simp only [runDeclaration_eq, hempty, if_true]
  exact ⟨by decide, fun s n => ⟨hrefused _ (by decide +kernel) (by decide +kernel) s n,
    hrefused _ (by decide +kernel) (by decide +kernel) s n⟩⟩

end Session

/-! ## Tables in SQL -/

open Text Pattern Session

/-- `CREATE TABLE name (body);` as it is written: the two words in any case, and white space between the words. -/
structure SqlStatement where
  create : List Char
  gap : List Char
  table : List Char
  nameGap : List Char
  name : List Char
  bodyGap : List Char
  body : List Char
  create_word : sameAscii create "create".toList = true := by decide
  gap_blank : gap ≠ [] ∧ ∀ c ∈ gap, isBlank c = true := by decide
  table_word : sameAscii table "table".toList = true := by decide
  nameGap_blank : nameGap ≠ [] ∧ ∀ c ∈ nameGap, isBlank c = true := by decide
  name_word : name ≠ [] ∧ ∀ c ∈ name, isWord c = true := by decide
  bodyGap_blank : ∀ c ∈ bodyGap, isBlank c = true := by decide

namespace SqlStatement

variable (d : SqlStatement)

/-- The text of a statement. -/
def text : List Char :=
  d.create ++ (d.gap ++ (d.table ++ (d.nameGap ++ (d.name ++ (d.bodyGap ++ ('(' :: (d.body ++ ");".toList)))))))

theorem create_spelled : d.create.map foldChar = "create".toList ∧ upper d.create = "CREATE".toList :=
  spelled_keyword (k := "create") (by decide) d.create_word

theorem table_spelled : d.table.map foldChar = "table".toList ∧ upper d.table = "TABLE".toList :=
  spelled_keyword (k := "table") (by decide) d.table_word

/-- A statement begins with a letter and ends with a semicolon. -/
theorem text_ends : ∃ c v, d.text = c :: (v ++ [';']) ∧ (c = 'c' ∨ c = 'C') := by
  have hword := d.create_word
  rw [sameAscii, beq_iff_eq] at hword
  cases hcreate : d.create with
  | nil =>
    rw [hcreate] at hword
    cases hword
  | cons c w =>
    rw [hcreate] at hword
    have hlower : c.toLower = 'c' := (List.cons_eq_cons.1 hword).1
    have hascii : c.toNat < 0x80 := ascii_of_toLower (by rw [hlower]; decide)
    refine ⟨c, w ++ (d.gap ++ (d.table ++ (d.nameGap ++ (d.name ++ (d.bodyGap ++ ('(' :: (d.body ++ [')']))))))), ?_,
      ascii_cases (P := fun c => c.toLower = 'c' → c = 'c' ∨ c = 'C') (by decide) hascii hlower⟩
    rw [text, hcreate, show ");".toList = [')', ';'] by decide]
    simp

theorem trim_text : trim d.text = d.text := by
  obtain ⟨c, v, hv, hc⟩ := d.text_ends
  rw [hv]
  exact trim_of_ends (by rcases hc with rfl | rfl <;> decide) (by decide) v

theorem isSilent_text : isSilent d.text = false := by
  obtain ⟨c, v, hv, hc⟩ := d.text_ends
  rw [hv]
  rcases hc with rfl | rfl <;> rfl

/-- With one blank between the two words a statement begins as it should. -/
theorem upper_text (hgap : d.gap = [' ']) : ∃ r, upper d.text = "CREATE TABLE".toList ++ r := by
  refine ⟨upper (d.nameGap ++ (d.name ++ (d.bodyGap ++ ('(' :: (d.body ++ ");".toList))))), ?_⟩
  rw [text, hgap, upper_append, upper_append, upper_append, d.create_spelled.2, d.table_spelled.2]
  rfl

/-- **The parser of tables reads a statement**, however it is spelled. -/
theorem schema_ne_empty : (Sql.schema d.text).isEmpty = false := by
  have hadmits : Admits Sql.table none _ [] :=
    (takes_anyCase d.create_spelled.1).admits.chain_cons <| (admits_some1 d.gap_blank.1 d.gap_blank.2).chain_cons <|
      (takes_anyCase d.table_spelled.1).admits.chain_cons <|
      (admits_some1 d.nameGap_blank.1 d.nameGap_blank.2).chain_cons <|
      ((admits_some1 d.name_word.1 d.name_word.2).group 1).chain_cons <|
      (admits_span true d.bodyGap_blank).chain_cons <| (takes_char '(').admits.chain_cons <|
      ((admits_span false (w := d.body) fun _ _ => rfl).group 2).chain_cons <|
      (takes_text ");").admits.chain_cons admits_chain_nil
  have hin : Sql.table.isIn d.text = true := by
    have h := isIn_of_admits (u := []) hadmits
    simpa [text] using h
  obtain ⟨m, hm⟩ := List.exists_mem_of_ne_nil (Sql.table.matchesIn d.text) fun hnil => by
    rw [matchesIn_eq_nil_iff, hin] at hnil
    cases hnil
  have hname : String.ofList (m.group 1) ∈ (Sql.schema d.text).names :=
    (OrderedMap.mem_keys_insertAll _ _ _).2 (Or.inr (List.mem_map.2 ⟨_, List.mem_map_of_mem hm, rfl⟩))
  rw [Schema.isEmpty, OrderedMap.isEmpty, List.isEmpty_eq_false_iff]
  intro hempty
  rw [Schema.names, OrderedMap.keys, hempty] at hname
  cases hname

end SqlStatement

/-- Without `Schema::create` there is no block of declarations, and a migration is read as SQL. -/
theorem migrationSchema_of_sql {text : List Char} (h : ¬ schemaCreate <:+: text) :
    migrationSchema (String.ofList text) = Sql.schema text := by
  have hnone : Blueprint.block.search text = none := by
    refine search_eq_none_of_spells fun w hw hspells => h ?_
    obtain ⟨u, hu, hspelled⟩ := exists_infix_of_spells_chain (a := Pattern.text "Schema::create") List.mem_cons_self hspells
    rw [spells_text] at hspelled
    exact (hspelled ▸ hu).trans hw
  have hmatches : Blueprint.block.matchesIn text = [] := by
    rw [matchesIn_eq_nil_iff, isIn, hnone]
    rfl
  rw [migrationSchema, String.toList_ofList]
  exact if_pos (by rw [Blueprint.schema, hmatches]; rfl)

namespace Session

variable {d : SqlStatement}

/-- A statement in SQL with one blank between its two words declares tables. -/
theorem kind_sqlStatement (hgap : d.gap = [' ']) : kind d.text = .declaring := by
  obtain ⟨r, hr⟩ := d.upper_text hgap
  have hdeclaration : isDeclaration d.text = true := by
    rw [isDeclaration, hr, Bool.or_eq_true]
    exact Or.inr (startsWith_iff.2 (List.prefix_append _ _))
  rw [kind, d.trim_text]
  simp only [d.isSilent_text, hr, hdeclaration]
  rfl

/-- **A statement in SQL declares what the parser reads in it**, if one blank stands between its two words: it gives
out these tables, and leaves each of them declared with its columns and with a place in the data. -/
theorem execute_sqlStatement (s : Session) (n : Nat) (hgap : d.gap = [' ']) (hschema : ¬ schemaCreate <:+: d.text) :
    migrationSchema (String.ofList d.text) = Sql.schema d.text ∧ (Sql.schema d.text).isEmpty = false ∧
      ∃ t, s.execute n d.text = .ok (.tables (migrationSchema (String.ofList d.text)), t) ∧
        ∀ table cs, (migrationSchema (String.ofList d.text)).columns? table = some cs →
          t.schema.columns? table = some cs ∧ t.data.contains table = true := by
  have hsql := migrationSchema_of_sql hschema
  refine ⟨hsql, d.schema_ne_empty, s.declare (migrationSchema (String.ofList d.text)), ?_, fun table cs hcs => ⟨?_, ?_⟩⟩
  · rw [execute_eq, kind_sqlStatement hgap, d.trim_text]
    simp only [runDeclaration_eq, hsql, d.schema_ne_empty, Bool.false_eq_true, if_false]
  · exact columns?_declare s (nodup_names_migrationSchema _) hcs
  · rw [Dataset.contains, OrderedMap.contains_iff]
    refine mem_data_names_declare s ((OrderedMap.contains_iff _ _).1 ?_)
    rw [OrderedMap.contains, ← Schema.columns?, hcs]
    rfl

/-- A table declared in mixed case, with a line feed in front of its name and a tab behind it. -/
def mixedCaseTable : SqlStatement where
  create := "Create".toList
  gap := [' ']
  table := "tABLE".toList
  nameGap := ['\n', ' ']
  name := "ts".toList
  bodyGap := ['\t']
  body := "id INT, at TIMESTAMP".toList

theorem execute_sqlStatement_mixedCaseTable :
    let s := start ⟨.extend .empty .empty, "2024-01-01 00:00:00"⟩ {}
    let columns : List Column := [{ name := "id", type := .ofWord "int" }, { name := "at", type := .ofWord "timestamp" }]
    (mixedCaseTable.gap = [' '] ∧ ¬ schemaCreate <:+: mixedCaseTable.text) ∧
      ∃ t, s.execute 1 mixedCaseTable.text = .ok (.tables (migrationSchema (String.ofList mixedCaseTable.text)), t) ∧
        t.schema.columns? "ts" = some columns ∧ t.data.contains "ts" = true := by
  intro s columns
  have hschema : ¬ schemaCreate <:+: mixedCaseTable.text := by
    rw [← contains_iff]
    decide
  have hcolumns : (migrationSchema (String.ofList mixedCaseTable.text)).columns? "ts" = some columns := by
    decide +kernel
  obtain ⟨-, -, t, hexecute, hdeclared⟩ := execute_sqlStatement (d := mixedCaseTable) s 1 rfl hschema
  exact ⟨⟨rfl, hschema⟩, t, hexecute, hdeclared "ts" columns hcolumns⟩

/-- The same table with two blanks between the words, or with a line feed. -/
def wideTable (gap : List Char) (h : gap ≠ [] ∧ ∀ c ∈ gap, isBlank c = true) : SqlStatement where
  create := "CREATE".toList
  gap := gap
  table := "TABLE".toList
  nameGap := [' ']
  name := "t".toList
  bodyGap := [' ']
  body := "id INT".toList
  gap_blank := h

/-- With two blanks between its words, or with a line feed, a statement in SQL is taken for a query of no known shape,
though the parser reads a table in it. -/
theorem tables_taken_for_queries :
    let blanks := wideTable [' ', ' '] (by decide)
    let newline := wideTable ['\n'] (by decide)
    let columns : List Column := [{ name := "id", type := .ofWord "int" }]
    (¬ schemaCreate <:+: blanks.text ∧ (Sql.schema blanks.text).columns? "t" = some columns) ∧
      (¬ schemaCreate <:+: newline.text ∧ (Sql.schema newline.text).columns? "t" = some columns) ∧
      ∀ (s : Session) (n : Nat),
        s.execute n blanks.text = .ok (.result (.status (.executed (String.ofList blanks.text))), s) ∧
          s.execute n newline.text = .ok (.result (.status (.executed (String.ofList newline.text))), s) := by
  intro blanks newline columns
  have hexecuted : ∀ d : SqlStatement, trim d.text = d.text → kind d.text = .query →
      (Shape.recognize? (Query.prepare d.text)).isNone = true →
      ∀ (s : Session) (n : Nat), s.execute n d.text = .ok (.result (.status (.executed (String.ofList d.text))), s) := by
    intro d htrim hkind hshape s n
    rw [Option.isNone_iff_eq_none] at hshape
    have hresult : s.interpreter.interpret (String.ofList d.text) s.data =
        .status (.executed (String.ofList d.text)) := by
      simp only [Interpreter.interpret, String.toList_ofList, hshape, htrim]
    rw [execute_eq, hkind, htrim]
    simp only [runQuery, hresult]
  have hblanks : ¬ schemaCreate <:+: blanks.text := by
    rw [← contains_iff]
    decide
  have hnewline : ¬ schemaCreate <:+: newline.text := by
    rw [← contains_iff]
    decide
  refine ⟨⟨hblanks, by decide +kernel⟩, ⟨hnewline, by decide +kernel⟩, fun s n => ⟨?_, ?_⟩⟩
  · exact hexecuted blanks (by decide +kernel) (by decide +kernel) (by decide +kernel) s n
  · exact hexecuted newline (by decide +kernel) (by decide +kernel) (by decide +kernel) s n

end Session

end FluentTables
