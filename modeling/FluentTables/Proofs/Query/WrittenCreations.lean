import FluentTables.Proofs.Decimal.Integers
import FluentTables.Proofs.Query.Statements
import Mathlib.Data.List.Basic

/-!
# Creations as they are written

A creation is written as a list of pairs of a key and a literal. Every pair is read back (`pair?_pairText`) and so is
the list (`entries_statedCells`), so a written creation makes a row of the pairs in their order, and of the stamps and
the id that are not among them (`interpret_creation`).
-/

namespace FluentTables

namespace Query

open Pattern Text

/-- A literal as it is written. -/
inductive Literal where
  | null
  | bool (b : Bool)
  | int (i : Int64)
  | text (quote : Char) (content : String)

namespace Literal

/-- The text of a literal. -/
def written : Literal → List Char
  | null => "null".toList
  | bool b => (if b then "true" else "false").toList
  | int i => (toString i.toInt).toList
  | text q s => quotedBy q s.toList

/-- The content of a text has nothing in it that is read as something else. -/
def IsPlain : Literal → Prop
  | text q s => isQuote q = true ∧ (∀ c ∈ s.toList, c ≠ q ∧ c ≠ '\\' ∧ c ≠ ']') ∧ hasDecimalComma s.toList = false
  | _ => True

instance : DecidablePred IsPlain
  | text _ _ => inferInstanceAs (Decidable (_ ∧ _))
  | null | bool _ | int _ => inferInstanceAs (Decidable True)

/-- A literal that is no text consists of word characters, perhaps behind a minus sign. -/
theorem written_bare {l : Literal} (h : ∀ q s, l ≠ text q s) :
    l.written ≠ [] ∧ ∀ c ∈ l.written, c = '-' ∨ c.toNat < 0x80 ∧ isWord c = true := by
  cases l with
  | null => exact ⟨by decide, by decide⟩
  | bool b => cases b <;> exact ⟨by decide, by decide⟩
  | int i =>
    rw [written, Numeral.toList_toString]
    refine ⟨fun h => Nat.toDigits_ne_nil (List.append_eq_nil_iff.1 h).2, fun c hc => ?_⟩
    rw [List.mem_append] at hc
    rcases hc with hc | hc
    · split at hc
      · exact Or.inl (List.mem_singleton.1 hc)
      · cases hc
    · exact Or.inr (ascii_word_of_isDigit (Nat.isDigit_of_mem_toDigits (by decide) (by decide) hc))
  | text q s => exact absurd rfl (h q s)

/-- What a literal is to a reader of pairs. -/
structure Readable (l : Literal) : Prop where
  isArgument : IsArgument l.written
  head_not_blank : l.written.head?.any isBlank = false
  last_not_blank : ∀ c, l.written.getLast? = some c → isBlank c = false
  ne_nil : l.written ≠ []
  no_bracket : ']' ∉ l.written
  no_comma : hasDecimalComma l.written = false

theorem readable_of_bare {l : Literal} (h : ∀ q s, l ≠ text q s) : l.Readable := by
  obtain ⟨hne, hall⟩ := written_bare h
  have hchar : ∀ c ∈ l.written, isMark c = false ∧ isBlank c = false ∧ c ≠ ']' ∧ c ≠ ',' := by
    intro c hc
    rcases hall c hc with rfl | hw
    · decide
    · obtain ⟨hblank, hquote, hmarks⟩ := ascii_word hw
      simp only [List.mem_cons, List.not_mem_nil, or_false, not_or] at hmarks
      simp [isMark, isOpener, isCloser, hblank, hquote, hmarks]
  constructor
  case isArgument => exact isArgument_of_plain fun c hc => (hchar c hc).1
  case head_not_blank =>
    obtain ⟨c, r, hr⟩ := List.exists_cons_of_ne_nil hne
    rw [hr]
    exact (hchar c (by simp [hr])).2.1
  case last_not_blank => exact fun c hc => (hchar c (List.mem_of_getLast? hc)).2.1
  case ne_nil => exact hne
  case no_bracket => exact fun hc => (hchar _ hc).2.2.1 rfl
  case no_comma => exact hasDecimalComma_of_not_mem fun hc => (hchar _ hc).2.2.2 rfl

theorem readable_text {q : Char} {s : String} (h : (text q s).IsPlain) : (text q s).Readable := by
  obtain ⟨hq, hs, hcomma⟩ := h
  have hbracket : q ≠ ']' := by rintro rfl; cases hq
  constructor
  case isArgument => exact isArgument_quotedBy hq fun c hc => ⟨(hs c hc).1, (hs c hc).2.1⟩
  case head_not_blank => exact isBlank_of_isQuote hq
  case last_not_blank =>
    intro c hc
    rw [written, quotedBy, ← List.cons_append, List.getLast?_append, List.getLast?_singleton] at hc
    cases hc
    exact isBlank_of_isQuote hq
  case ne_nil => exact List.cons_ne_nil q _
  case no_bracket =>
    intro hc
    rcases mem_quotedBy.1 hc with hc | hc
    · exact hbracket hc.symm
    · exact (hs _ hc).2.2 rfl
  case no_comma =>
    have h := hasDecimalComma_quotedBy hq s.toList []
    rw [List.append_nil] at h
    rw [written, h, hcomma]
    rfl

theorem IsPlain.readable {l : Literal} (h : l.IsPlain) : l.Readable := by
  cases l with
  | text q s => exact readable_text h
  | null | bool b | int i => exact readable_of_bare fun q s => by simp

end Literal

/-- `'key' => literal`. -/
def pairText (p : String × Literal) : List Char := quoted p.1.toList ++ (" => ".toList ++ p.2.written)

/-- `Model::create(['key' => literal, ...])`, with white space behind the commas. -/
def creation (model : String) (gap : List Char) (pairs : List (String × Literal)) : List Char :=
  model.toList ++ ("::create(".toList ++ ('[' :: (joined gap (pairs.map pairText) ++ ']' :: [')'])))

section Pairs

variable {p : String × Literal}

/-- **A written pair is read back.** -/
theorem pair?_pairText (hkey : IsAsciiWord p.1.toList) (h : p.2.Readable) :
    pair? (pairText p) = some (p.1, .ofLiteral p.2.written) := by
  obtain ⟨k, l⟩ := p
  have hquote : ∀ b rest, Takes quote b ['\''] rest [] := fun b rest => takes_one rfl
  have hword : ∀ c ∈ k.toList, isWord c = true := fun c hc => (hkey.2 c hc).2
  have htakes : Takes pair none _ [] _ :=
    takes_textStart.chain_cons <| (hquote _ _).chain_cons <|
      ((takes_some1 hkey.1 hword (by rfl)).group 1).chain_cons <| (hquote _ _).chain_cons <|
      (takes_span (w := [' ']) (by decide) (by rfl)).chain_cons <| (takes_text "=>").chain_cons <|
      (takes_span (w := [' ']) (by decide) (by simpa using h.head_not_blank)).chain_cons <|
      ((takes_some1 h.ne_nil (fun _ _ => rfl) rfl).group 2).chain_cons <| takes_textEnd.chain_cons takes_chain_nil
  obtain ⟨m, hm, htexts⟩ := search_of_takes htakes
  have hsearch : pair.search (pairText (k, l)) = some m := by
    simpa [pairText, quoted, quotedBy] using hm
  have hkeyText : m.group 1 = k.toList := by rw [m.group_eq, htexts]; rfl
  have hvalueText : m.group 2 = l.written := by rw [m.group_eq, htexts]; rfl
  rw [pair?, hsearch, Option.map_some, hkeyText, hvalueText, String.ofList_toList]

theorem isArgument_pairText (hkey : IsAsciiWord p.1.toList) (h : p.2.Readable) :
    IsArgument (pairText p) ∧ trim (pairText p) = pairText p ∧ pairText p ≠ [] := by
  have hquoted : IsArgument (quoted p.1.toList) := by
    refine isArgument_quotedBy rfl fun c hc => ?_
    obtain ⟨-, hquote, hmarks⟩ := ascii_word (hkey.2 c hc)
    refine ⟨?_, fun hb => hmarks (by simp [hb])⟩
    rintro rfl
    cases hquote
  have harrow : IsArgument " => ".toList := isArgument_of_plain (by decide)
  refine ⟨hquoted.append (harrow.append h.isArgument), trimBy_eq_self (fun c hc => ?_) fun c hc => ?_, by
    simp [pairText, quoted, quotedBy]⟩
  · cases hc
    decide
  · rw [pairText, List.getLast?_append, List.getLast?_append] at hc
    cases hl : p.2.written.getLast? with
    | none => exact absurd (List.getLast?_eq_none_iff.1 hl) h.ne_nil
    | some d =>
      rw [hl] at hc
      cases hc
      exact h.last_not_blank c hl

theorem hasDecimalComma_pairText (hkey : IsAsciiWord p.1.toList) (h : p.2.Readable) :
    hasDecimalComma (pairText p) = false := by
  have hword : hasDecimalComma p.1.toList = false :=
    hasDecimalComma_of_not_mem fun hc => (ascii_word (hkey.2 _ hc)).2.2 (by simp)
  rw [pairText, quoted, hasDecimalComma_quotedBy rfl, hword, hasDecimalComma_append_left (by decide), h.no_comma]
  rfl

theorem not_mem_pairText (hkey : IsAsciiWord p.1.toList) (h : ']' ∉ p.2.written) : ']' ∉ pairText p := by
  intro hc
  rw [pairText, List.mem_append, List.mem_append, quoted, mem_quotedBy] at hc
  rcases hc with (hc | hc) | hc | hc
  · cases hc
  · exact (ascii_word (hkey.2 _ hc)).2.2 (by simp)
  · revert hc; decide
  · exact h hc

variable {model : String} {gap : List Char} {pairs : List (String × Literal)}

/-- What closes the pairs stands in none of them, unless a literal has it. -/
theorem not_mem_pairs (hgap : ∀ c ∈ gap, isBlank c = true)
    (h : ∀ p ∈ pairs, IsAsciiWord p.1.toList ∧ ']' ∉ p.2.written) : ']' ∉ joined gap (pairs.map pairText) := by
  intro hc
  rcases mem_joined hc with ⟨a, ha, hc⟩ | hc | hc
  · obtain ⟨p, hp, rfl⟩ := List.mem_map.1 ha
    exact not_mem_pairText (h p hp).1 (h p hp).2 hc
  · cases hc
  · exact absurd (hgap _ hc) (by decide)

theorem trim_creation (hmodel : IsAsciiWord model.toList) :
    trim (creation model gap pairs) = creation model gap pairs := by
  have h := trim_statement hmodel ("::create([".toList ++ (joined gap (pairs.map pairText) ++ [']']))
  simpa [creation] using h

theorem hasDecimalComma_creation (hmodel : IsAsciiWord model.toList) (hgap : ∀ c ∈ gap, isBlank c = true)
    (h : ∀ p ∈ pairs, IsAsciiWord p.1.toList ∧ p.2.Readable) : hasDecimalComma (creation model gap pairs) = false := by
  have hpairs : ∀ a ∈ pairs.map pairText, a.head?.any isDigit = false ∧ hasDecimalComma a = false := by
    intro a ha
    obtain ⟨p, hp, rfl⟩ := List.mem_map.1 ha
    exact ⟨by rfl, hasDecimalComma_pairText (h p hp).1 (h p hp).2⟩
  have hbody := (hasDecimalComma_joined hgap hpairs).2
  have hclose : hasDecimalComma (joined gap (pairs.map pairText) ++ "])".toList) = false := by
    rw [hasDecimalComma_append (by rfl) (by rfl), hbody]
    decide
  have hopen : hasDecimalComma (":create([".toList ++ (joined gap (pairs.map pairText) ++ "])".toList)) = false := by
    rw [hasDecimalComma_append_left (by decide), hclose]
  have h := hasDecimalComma_statement hmodel (":create([".toList ++ (joined gap (pairs.map pairText) ++ "])".toList))
  rw [hopen] at h
  simpa [creation] using h

end Pairs

/-- A creation is recognized by its model and its brackets, whatever stands between these. -/
theorem recognize_create {model : String} {body : List Char} (hmodel : IsAsciiWord model.toList) (hbody : ']' ∉ body) :
    ∃ m, Shape.recognize? (model.toList ++ ("::create(".toList ++ ('[' :: (body ++ ']' :: [')'])))) =
        some (.create, m) ∧ m.group 1 = model.toList ∧ m.group 2 = body := by
  have htakes : Takes Shape.create.pattern none _ [] _ :=
    (Shape.takes_model hmodel (by rfl)).chain_cons <| (Shape.takes_firstCall "create").chain_cons <|
      (Shape.takes_blanks (w := []) (by simp) (by rfl)).chain_cons <| (takes_char '[').chain_cons <|
      (Shape.takes_close.chain_cons takes_chain_nil).chain_lazy_upTo hbody 2
  obtain ⟨m, hm, htexts⟩ := search_of_takes htakes
  have hsearch : Shape.create.pattern.search
      (model.toList ++ ("::create(".toList ++ ('[' :: (body ++ ']' :: [')'])))) = some m := by
    simpa using hm
  refine ⟨m, ?_, by rw [m.group_eq, htexts]; rfl, by rw [m.group_eq, htexts]; rfl⟩
  generalize model.toList ++ ("::create(".toList ++ ('[' :: (body ++ ']' :: [')']))) = s at hsearch
  simp [Shape.recognize?, Shape.inOrder, hsearch]

/-- A written creation is recognized as one. -/
theorem recognize_creation {model : String} {gap : List Char} {pairs : List (String × Literal)}
    (hmodel : IsAsciiWord model.toList) (hgap : ∀ c ∈ gap, isBlank c = true)
    (h : ∀ p ∈ pairs, IsAsciiWord p.1.toList ∧ p.2.Readable) :
    ∃ m, Shape.recognize? (creation model gap pairs) = some (.create, m) ∧ m.group 1 = model.toList ∧
      m.group 2 = joined gap (pairs.map pairText) :=
  recognize_create hmodel (not_mem_pairs hgap fun p hp => ⟨(h p hp).1, (h p hp).2.no_bracket⟩)

end Query

namespace Interpreter

open Pattern Text Query

variable (i : Interpreter) {model : String} {gap : List Char} {pairs : List (String × Literal)} {table : String}
  {data : Dataset}

/-- The stated cells of written pairs. -/
theorem entries_statedCells (hgap : ∀ c ∈ gap, isBlank c = true) (hkeys : (pairs.map (·.1)).Nodup)
    (h : ∀ p ∈ pairs, IsAsciiWord p.1.toList ∧ p.2.Readable) :
    (statedCells (joined gap (pairs.map pairText))).entries = pairs.map fun p => (p.1, .ofLiteral p.2.written) := by
  have hargs : splitArgs (joined gap (pairs.map pairText)) = pairs.map pairText := by
    refine splitArgs_joined hgap fun a ha => ?_
    obtain ⟨p, hp, rfl⟩ := List.mem_map.1 ha
    exact isArgument_pairText (h p hp).1 (h p hp).2
  have hread : (pairs.map pairText).filterMap pair? = pairs.map fun p => (p.1, Value.ofLiteral p.2.written) := by
    rw [List.filterMap_map, ← List.filterMap_eq_map]
    exact List.filterMap_congr fun p hp => pair?_pairText (h p hp).1 (h p hp).2
  rw [statedCells, hargs, hread]
  refine OrderedMap.entries_ofList ?_
  rwa [List.map_map]

/-- A new row has the stated cells, and then what is not stated. -/
theorem entries_newRow (body : List Char) :
    (i.newRow body table data).entries = (statedCells body).entries ++
      [("created_at", .text i.now), ("updated_at", .text i.now), ("id", .int (nextId (data.maxId table)))].filter
        fun e => e.1 ∉ (statedCells body).keys := by
  unfold newRow
  simp only [OrderedMap.entries_insertNew, OrderedMap.mem_keys_insertNew, List.append_assoc]
  by_cases hcreated : "created_at" ∈ (statedCells body).keys <;>
    by_cases hupdated : "updated_at" ∈ (statedCells body).keys <;>
    by_cases hid : "id" ∈ (statedCells body).keys <;> simp [hcreated, hupdated, hid]

/-- **A written creation makes a row of its pairs, in their order**, and behind them of the stamps and the next id of
the table, as far as the pairs do not state these. -/
theorem interpret_creation (hmodel : IsAsciiWord model.toList) (hgap : ∀ c ∈ gap, isBlank c = true)
    (hkeys : (pairs.map (·.1)).Nodup) (hpairs : ∀ p ∈ pairs, IsAsciiWord p.1.toList ∧ p.2.IsPlain) (data : Dataset) :
    i.interpret (String.ofList (creation model gap pairs)) data =
      .created (i.naming.tableOf model) ⟨(pairs.map fun p => (p.1, .ofLiteral p.2.written)) ++
        [("created_at", .text i.now), ("updated_at", .text i.now),
          ("id", .int (nextId (data.maxId (i.naming.tableOf model))))].filter fun e => e.1 ∉ pairs.map (·.1)⟩ := by
  have h : ∀ p ∈ pairs, IsAsciiWord p.1.toList ∧ p.2.Readable := fun p hp => ⟨(hpairs p hp).1, (hpairs p hp).2.readable⟩
  have hcells := entries_statedCells hgap hkeys h
  have hkeysEq : (statedCells (joined gap (pairs.map pairText))).keys = pairs.map (·.1) := by
    rw [OrderedMap.keys, hcells, List.map_map]
    rfl
  have hrow : i.newRow (joined gap (pairs.map pairText)) (i.naming.tableOf model) data = _ :=
    congrArg OrderedMap.mk (i.entries_newRow _)
  obtain ⟨m, hm, hmodelText, hbodyText⟩ := recognize_creation hmodel hgap h
  have hprepare : prepare (creation model gap pairs) = creation model gap pairs :=
    prepare_eq_self (trim_creation hmodel) (hasDecimalComma_creation hmodel hgap h)
  rw [i.interpret_ofList hprepare hm]
  simp only [dispatch, hmodelText, hbodyText, String.ofList_toList, hrow, hcells, hkeysEq]

/-- Brackets, commas and arrows within a text are nothing but text, and a stated stamp stays where it is stated. -/
theorem interpret_creation_note :
    let i : Interpreter := ⟨.extend .empty .empty, "<now>"⟩
    let data : Dataset := ⟨⟨[("notes", [⟨[("id", .int 7)]⟩])]⟩⟩
    i.interpret (String.ofList (creation "Note" [' '] [("title", .text '\'' "[a, b) => \"c"),
        ("updated_at", .null), ("stars", .int (-3)), ("done", .bool true)])) data =
      .created "notes" ⟨[("title", .text "[a, b) => \"c"), ("updated_at", .null), ("stars", .int (-3)),
        ("done", .bool true), ("created_at", .text "<now>"), ("id", .int 8)]⟩ := by
  intro i data
  exact (i.interpret_creation (by decide) (by decide) (by decide) (by decide) data).trans (by decide +kernel)

end Interpreter

end FluentTables
