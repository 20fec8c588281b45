import FluentTables.Proofs.Query.Selections
import Mathlib.Data.List.Nodup

/-!
# Relations with closures as they are written

A list of relations holds quoted names and names with closures. Two passes read it: one takes the closures, the other
the names that stand in what the closures leave. Each pass goes through the list entry by entry (`reads_joined`), and
each entry is found by the pass that it is meant for: `matchTexts_closureEntry`, `replaceAll_closureBody` and
`matchTexts_relationName`. Together they read the paths of a list (`relationPaths_joined`).
-/

namespace FluentTables

namespace Query

open Pattern Text Shape

/-! ## Entries -/

/-- An entry of a list of relations: a name, or a name with a closure of clauses. A brace would be the end of the
closure. -/
inductive Entry where
  | plain (name : RelationName)
  | closure (name : RelationName) (clauses : List (Arrow × Clause))
      (h : ∀ c ∈ clauses, ∀ s ∈ c.2.texts, '}' ∉ s := by decide)

/-- The calls of a closure. -/
def closureCalls (gap : List Char) : List (Arrow × Clause) → List Call
  | [] => []
  | (a, c) :: clauses => ⟨" $q".toList ++ a.text, "where", c.args gap⟩ ::
      clauses.map fun c => Call.next c.1 "where" (c.2.args gap)

/-- What follows the calls of a closure. -/
def closureTail : List (Arrow × Clause) → List Char
  | [] => " $q; ".toList
  | _ :: _ => "; ".toList

/-- What stands between the braces of a closure: `$q->where(...)->where(...);`. -/
def closureText (gap : List Char) (clauses : List (Arrow × Clause)) : List Char :=
  written (closureCalls gap clauses) ++ closureTail clauses

namespace Entry

/-- The name of an entry. -/
def name : Entry → RelationName
  | plain n | closure n _ _ => n

/-- The conditions of an entry. -/
def conditions : Entry → List Condition
  | plain _ => []
  | closure _ clauses _ => clauses.map fun c => c.2.condition

/-- The entry has a closure. -/
def isClosure : Entry → Bool
  | plain _ => false
  | closure _ _ _ => true

/-- The path of an entry. -/
def path (e : Entry) : RelationPath := ⟨e.name.text, e.conditions⟩

/-- The text of an entry: `'name'`, or `'name' => function ($q) {...}`. -/
def text (gap : List Char) : Entry → List Char
  | plain n => quoted n.text.toList
  | closure n clauses _ => quoted n.text.toList ++
      (" => function ($q) ".toList ++ '{' :: (closureText gap clauses ++ ['}']))

end Entry

/-! ## The calls of a closure -/

section ClosureCalls

variable {gap : List Char} {clauses : List (Arrow × Clause)}

theorem map_args_closureCalls : (closureCalls gap clauses).map Call.args = clauses.map fun c => c.2.args gap := by
  cases clauses with
  | nil => rfl
  | cons c clauses => simp [closureCalls, Call.next]

/-- The calls of a closure are calls of clauses. -/
theorem mem_closureCalls {c : Call} (h : c ∈ closureCalls gap clauses) :
    ∃ e ∈ clauses, c.name = "where" ∧ c.args = e.2.args gap ∧
      (c.lead = e.1.text ∨ c.lead = " $q".toList ++ e.1.text) := by
  cases clauses with
  | nil => cases h
  | cons e clauses =>
    rcases List.mem_cons.1 h with rfl | h
    · exact ⟨e, by simp, rfl, rfl, Or.inr rfl⟩
    · obtain ⟨f, hf, rfl⟩ := List.mem_map.1 h
      exact ⟨f, List.mem_cons_of_mem e hf, rfl, rfl, Or.inl rfl⟩

variable (hgap : ∀ c ∈ gap, isBlank c = true)

include hgap in
theorem isPlain_closureCalls : ∀ c ∈ closureCalls gap clauses, c.IsPlain := by
  intro c hc
  obtain ⟨e, -, hname, hargs, hlead⟩ := mem_closureCalls hc
  obtain ⟨hfree, hdecimal⟩ := parenFree_joined hgap e.2.isPlainText_texts
  have hsigns : ∀ d ∈ " $q".toList, isDigit d = false := by decide
  constructor
  case lead =>
    rcases hlead with h | h <;> rw [h]
    · exact e.1.parenFree
    · exact ParenFree.append (by decide) e.1.parenFree
  case args => rw [hargs]; exact hfree
  case name => rw [hname]; decide
  case lead_decimal =>
    intro s
    rcases hlead with h | h <;> rw [h]
    · exact hasDecimalComma_append_left e.1.isDigit_eq_false
    · rw [List.append_assoc, hasDecimalComma_append_left hsigns, hasDecimalComma_append_left e.1.isDigit_eq_false]
  case args_decimal => rw [hargs]; exact hdecimal

theorem parenFree_closureTail : ParenFree (closureTail clauses) := by
  cases clauses
  · exact (by decide : ParenFree " $q; ".toList)
  · exact (by decide : ParenFree "; ".toList)

include hgap in
/-- **The clauses of a closure are read back.** -/
theorem conditions_closureText :
    (whereArgs (closureText gap clauses)).filterMap Condition.ofArgs? = clauses.map fun c => c.2.condition := by
  have hcalls : ∀ c ∈ closureCalls gap clauses, c.IsPlain ∧ c.name = "where" := fun c hc =>
    ⟨isPlain_closureCalls hgap c hc, (mem_closureCalls hc).choose_spec.2.1⟩
  have hedge : ∀ c ∈ closureCalls gap clauses, ∃ d, c.lead.getLast? = some d ∧ isWord d = false := by
    intro c hc
    obtain ⟨e, -, -, -, hlead⟩ := mem_closureCalls hc
    obtain ⟨d, hd, hword⟩ := e.1.edge
    refine ⟨d, ?_, hword⟩
    rcases hlead with h | h <;> rw [h]
    · exact hd
    · rw [List.getLast?_append, hd]
      rfl
  rw [closureText, whereArgs_written hcalls hedge (not_opens parenFree_closureTail), map_args_closureCalls,
    List.filterMap_map, ← List.filterMap_eq_map]
  exact List.filterMap_congr fun c _ => c.2.ofArgs?_args hgap

include hgap in
/-- A closure has no brace but its own. -/
theorem not_mem_closureText (h : ∀ c ∈ clauses, ∀ s ∈ c.2.texts, '}' ∉ s) :
    '}' ∉ closureText gap clauses := by
  have harrow : ∀ a : Arrow, '}' ∉ a.text := fun a hmem => absurd (a.eq_or_isBlank_of_mem hmem) (by decide)
  have hargs : ∀ c ∈ clauses, '}' ∉ c.2.args gap := by
    intro c hc hmem
    rcases mem_joined hmem with ⟨a, ha, hmem⟩ | hmem | hmem
    · obtain ⟨t, ht, rfl⟩ := List.mem_map.1 ha
      rw [quoted, mem_quotedBy] at hmem
      rcases hmem with hmem | hmem
      · cases hmem
      · exact h c hc t ht hmem
    · cases hmem
    · exact absurd (hgap _ hmem) (by decide)
  intro hmem
  rw [closureText, List.mem_append, written, List.mem_flatMap] at hmem
  rcases hmem with ⟨c, hc, hmem⟩ | hmem
  · obtain ⟨e, he, hname, hcargs, hlead⟩ := mem_closureCalls hc
    rcases hlead with hlead | hlead <;>
      simp [Call.text, Call.link, hname, hcargs, hlead, hargs e he, harrow e.1] at hmem
  · have hempty : '}' ∉ " $q; ".toList := by decide
    have htail : '}' ∉ "; ".toList := by decide
    cases clauses
    · exact hempty hmem
    · exact htail hmem

end ClosureCalls

/-! ## A list, entry by entry -/

variable {gap : List Char} {b : Option Char} {r : Pattern}

theorem skips_of_heads {u s : List Char} (h : ∀ c ∈ u, ∀ b s, Fails r ⟨b, c :: s⟩) : Skips r b u s :=
  skips_of_forall fun p c v hu => h c (by simp [hu]) _ _

/-- An entry is followed by nothing or by a comma. -/
def EndsEntry (s : List Char) : Prop := s = [] ∨ ∃ t, s = ',' :: t

/-- **A pattern reads a list entry by entry**, if no match of it begins between the entries. -/
theorem reads_joined {α : Type} {text left : α → List Char} {found : α → List (List (Nat × List Char))}
    (hsep : ∀ c ∈ ',' :: gap, ∀ b s, Fails r ⟨b, c :: s⟩) (hend : ∀ b, Fails r ⟨b, []⟩) {items : List α}
    (hitem : ∀ e ∈ items, ∀ b s ts v, EndsEntry s → Reads r (past b (text e)) s ts v →
      Reads r b (text e ++ s) (found e ++ ts) (left e ++ v)) :
    Reads r b (joined gap (items.map text)) (items.flatMap found) (joined gap (items.map left)) := by
  induction items generalizing b with
  | nil => exact .done trivial (hend b)
  | cons e items ih =>
    have he := hitem e (by simp)
    have hitems : ∀ b, Reads r b (joined gap (items.map text)) (items.flatMap found) (joined gap (items.map left)) :=
      fun b => ih fun f hf => hitem f (List.mem_cons_of_mem e hf)
    cases items with
    | nil =>
      have h := he b [] [] [] (Or.inl rfl) (.done trivial (hend _))
      simpa [joined_singleton] using h
    | cons f items =>
      have hrest := Reads.skip (skips_of_heads (b := past b (text e)) hsep) (hitems _)
      have h := he b _ _ _ (Or.inr ⟨_, rfl⟩) hrest
      simpa [joined_cons_cons] using h

/-! ## Names in quotes -/

/-- The characters of dotted paths. -/
def isPathChar (c : Char) : Bool := isWord c || c == '.'

theorem isQuote_of_isPathChar {c : Char} (h : isPathChar c = true) : isQuote c = false := by
  refine Bool.eq_false_iff.2 fun hq => ?_
  simp only [isQuote, Bool.or_eq_true, beq_iff_eq] at hq
  rcases hq with rfl | rfl <;> exact absurd h (by decide)

theorem RelationName.isPathChar (n : RelationName) : ∀ c ∈ n.text.toList, isPathChar c = true := by
  intro c hc
  rcases n.isName.isWord_or_dot c hc with h | rfl
  · simp [Query.isPathChar, h.2]
  · decide

theorem fails_quote {c : Char} (h : isQuote c = false) {s : List Char} (ps : List Pattern) :
    Fails (chain (quote :: ps)) ⟨b, c :: s⟩ :=
  (fails_one (by simpa [isQuote] using h)).seq (chain ps)

theorem takes_quote {s : List Char} : Takes quote b ['\''] s [] := takes_one rfl

/-! ## The pass for closures -/

/-- A closure entry begins with a path in quotes and an arrow. -/
theorem spells_closureEntry {w : List Char} (h : Spells closureEntry w) :
    ∃ q u q' t y, w = q :: (u ++ q' :: (t ++ '=' :: y)) ∧ isQuote q' = true ∧ u ≠ [] ∧
      (∀ c ∈ u, isPathChar c = true) ∧ ∀ c ∈ t, isBlank c = true := by
  obtain ⟨-, v, rfl, ⟨q, -, rfl⟩, u, v, rfl, ⟨hu, hpath⟩, -, v, rfl, ⟨q', hq', rfl⟩, h⟩ := h
  obtain ⟨t, v, rfl, ht, z, v, rfl, hz, -⟩ := h
  rw [spells_text] at hz
  exact ⟨q, u, q', t, '>' :: v, by simp [hz], hq', hu, hpath, ht⟩

variable {n : RelationName} {s : List Char}

theorem skips_closureEntry (hs : EndsEntry s) : Skips closureEntry b (quoted n.text.toList) s := by
  have hfree : ∀ c ∈ n.text.toList, isQuote c = false := fun c hc => isQuote_of_isPathChar (n.isPathChar c hc)
  -- Behind the first quote there is a path, but no arrow.
  have hopen : ∀ b, Fails closureEntry ⟨b, '\'' :: (n.text.toList ++ '\'' :: s)⟩ := by
    intro b
    refine fails_of_spells fun w rest hw hspells => ?_
    obtain ⟨q, u, q', t, y, rfl, hq', -, hu, ht⟩ := spells_closureEntry hspells
    have hpath : n.text.toList ++ '\'' :: s = u ++ q' :: (t ++ '=' :: (y ++ rest)) := by
      simpa using (List.cons_eq_cons.1 hw).2
    obtain ⟨-, -, hs'⟩ := append_cons_inj_of_class hfree (fun c hc => isQuote_of_isPathChar (hu c hc)) rfl hq' hpath
    rcases hs with rfl | ⟨s, rfl⟩
    · simp at hs'
    · cases t with
      | nil => exact absurd (List.cons_eq_cons.1 hs').1 (by decide)
      | cons c t =>
        obtain rfl : ',' = c := (List.cons_eq_cons.1 hs').1
        exact absurd (ht ',' (by simp)) (by decide)
  -- Behind the second quote there is no path.
  have hclose : ∀ b, Fails closureEntry ⟨b, '\'' :: s⟩ := by
    intro b
    refine fails_of_spells fun w rest hw hspells => ?_
    obtain ⟨q, u, q', t, y, rfl, -, hne, hu, -⟩ := spells_closureEntry hspells
    obtain ⟨c, u, rfl⟩ := List.exists_cons_of_ne_nil hne
    rcases hs with rfl | ⟨s, rfl⟩
    · simp at hw
    · obtain rfl : ',' = c := (List.cons_eq_cons.1 (List.cons_eq_cons.1 hw).2).1
      exact absurd (hu ',' (by simp)) (by decide)
  have hinside : Skips closureEntry (some '\'') n.text.toList ('\'' :: s) :=
    skips_of_heads fun c hc b s => fails_quote (hfree c hc) _
  refine ⟨by simpa using hopen b, ?_⟩
  rw [skips_append]
  exact ⟨hinside, hclose _, trivial⟩

theorem takes_closureHead : Takes closureHead b "function ($q) \x7b".toList s [] := by
  have huse : ∀ b, Fails (chain [text "use", blanks, char '(', arguments, blanks]) ⟨b, '{' :: s⟩ := fun b =>
    ((fails_one rfl).seq _).seq _
  have h : Takes closureHead b _ s _ :=
    (takes_text "function").chain_cons <| (takes_blanks (w := [' ']) (by decide) (by rfl)).chain_cons <|
      (takes_char '(').chain_cons <| (takes_arguments (by decide : ParenFree "$q".toList)).chain_cons <|
      (takes_blanks (w := [' ']) (by decide) (by rfl)).chain_cons <| (takes_opt_nil (huse _)).chain_cons <|
      (takes_char '{').chain_cons takes_chain_nil
  simpa using h

theorem takes_upTo_brace {w : List Char} (hw : '}' ∉ w) : Takes (upTo '}') b w ('}' :: s) [] :=
  takes_span (fun c hc => by
    have hne : c ≠ '}' := fun h => hw (h ▸ hc)
    simpa using hne) (by simp)

theorem takes_closureEntry {w : List Char} (hw : '}' ∉ w) :
    Takes closureEntry b (quoted n.text.toList ++ (" => function ($q) ".toList ++ '{' :: (w ++ ['}']))) s
      [(2, w), (1, n.text.toList)] := by
  have hne : n.text.toList ≠ [] := n.isPlainText.2
  have h : Takes closureEntry b _ s _ :=
    takes_quote.chain_cons <| ((takes_some1 hne n.isPathChar (by rfl)).group 1).chain_cons <|
      takes_quote.chain_cons <| (takes_blanks (w := [' ']) (by decide) (by rfl)).chain_cons <|
      (takes_text "=>").chain_cons <| (takes_blanks (w := [' ']) (by decide) (by rfl)).chain_cons <|
      takes_closureHead.chain_cons <| ((takes_upTo_brace hw).group 2).chain_cons <|
      (takes_char '}').chain_cons takes_chain_nil
  simpa [quoted, quotedBy] using h

/-! ## The pass that takes the closures out -/

/-- A closure begins with its word in front of a bracket. -/
theorem spells_closureBody {w : List Char} (h : Spells closureBody w) :
    ∃ t y, w = "function".toList ++ (t ++ '(' :: y) ∧ ∀ c ∈ t, isBlank c = true := by
  obtain ⟨-, v, rfl, ⟨z, -, rfl, hz, t, -, rfl, ht, x, y, rfl, hx, -⟩, -⟩ := h
  rw [spells_text] at hz
  rw [spells_char] at hx
  exact ⟨t, y ++ v, by simp [hz, hx], ht⟩

theorem fails_closureBody {c : Char} (h : c ≠ 'f') : Fails closureBody ⟨b, c :: s⟩ := by
  refine fails_of_spells fun w rest hw hspells => ?_
  obtain ⟨t, y, rfl, -⟩ := spells_closureBody hspells
  exact h (List.cons_eq_cons.1 hw).1

theorem skips_closureBody : Skips closureBody b (quoted n.text.toList) s := by
  have hinside : ∀ b, Skips closureBody b n.text.toList ('\'' :: s) := by
    intro b
    refine skips_of_forall fun p c v hpath => fails_of_spells fun w rest hw hspells => ?_
    obtain ⟨t, y, rfl, ht⟩ := spells_closureBody hspells
    have hchars : ∀ d ∈ c :: v, (isParen d || isQuote d) = false := by
      intro d hd
      have hd : d ∈ n.text.toList := by
        rw [hpath]
        exact List.mem_append_right p hd
      have hplain := n.isPlainText.1.1 d hd
      simp [hplain]
    have hletters : ∀ d ∈ "function".toList, (isParen d || isQuote d) = false := by decide
    have hword : ∀ d ∈ "function".toList ++ t, (isParen d || isQuote d) = false := by
      intro d hd
      rcases List.mem_append.1 hd with hd | hd
      · exact hletters d hd
      · have hmark := isMark_of_isBlank (ht d hd)
        simp only [isMark, Bool.or_eq_false_iff] at hmark
        simp [isParen_of_isBlank (ht d hd), hmark]
    have hsplit : (c :: v) ++ '\'' :: s = ("function".toList ++ t) ++ '(' :: (y ++ rest) := by simpa using hw
    exact absurd (append_cons_inj_of_class hchars hword (by decide) (by decide) hsplit).2.1 (by decide)
  refine ⟨fails_closureBody (by decide), ?_⟩
  rw [skips_append]
  exact ⟨hinside _, fails_closureBody (by decide), trivial⟩

theorem takes_closureBody {w : List Char} (hw : '}' ∉ w) :
    Takes closureBody b ("function ($q) ".toList ++ '{' :: (w ++ ['}'])) s [] := by
  have h : Takes closureBody b _ s _ :=
    takes_closureHead.chain_cons <| (takes_upTo_brace hw).chain_cons <| (takes_char '}').chain_cons takes_chain_nil
  simpa using h

/-! ## The pass for names -/

theorem takes_name : Takes (chain [one fun c => c.isAlpha || c == '_', span true isPathChar]) b n.text.toList
    ('\'' :: s) [] := by
  have hname := n.isName
  have hchars := n.isPathChar
  generalize n.text.toList = name at hname hchars
  cases name with
  | nil => exact hname.elim
  | cons c name =>
    have hc : (c.isAlpha || c == '_') = true := by simpa using hname.1
    have h : Takes (chain [one fun c => c.isAlpha || c == '_', span true isPathChar]) b _ ('\'' :: s) _ :=
      (takes_one hc).chain_cons <|
        (takes_span (fun d (hd : d ∈ name) => hchars d (List.mem_cons_of_mem c hd)) (by rfl)).chain_cons takes_chain_nil
    simpa using h

/-- A name that no arrow follows. -/
theorem takes_relationName (hs : EndsEntry s) : Takes relationName b (quoted n.text.toList) s [(1, n.text.toList)] := by
  have hblank : s.head?.any isBlank = false := by
    rcases hs with rfl | ⟨s, rfl⟩ <;> rfl
  have harrow : ∀ b, Fails (group 2 (text "=>")) ⟨b, s⟩ := by
    refine fun b => fails_of_spells fun w rest hw hspells => ?_
    obtain rfl := spells_text.1 hspells
    rcases hs with rfl | ⟨s, rfl⟩
    · simp at hw
    · exact absurd (List.cons_eq_cons.1 hw).1 (by decide)
  have h : Takes relationName b _ s _ :=
    takes_quote.chain_cons <| ((takes_name (n := n)).group 1).chain_cons <| takes_quote.chain_cons <|
      (takes_blanks (w := []) (by simp) (by simpa using hblank)).chain_cons <|
      (takes_opt_nil (harrow _)).chain_cons takes_chain_nil
  simpa [quoted, quotedBy] using h

/-- A name in front of a closure. -/
theorem takes_relationName_arrow : Takes relationName b (quoted n.text.toList ++ " =>".toList) s
    [(2, "=>".toList), (1, n.text.toList)] := by
  have h : Takes relationName b _ s _ :=
    takes_quote.chain_cons <| ((takes_name (n := n)).group 1).chain_cons <| takes_quote.chain_cons <|
      (takes_blanks (w := [' ']) (by decide) (by rfl)).chain_cons <|
      (((takes_text "=>").group 2).opt).chain_cons takes_chain_nil
  simpa [quoted, quotedBy] using h

/-! ## What the passes read -/

section Passes

variable {entries : List Entry} (hgap : ∀ c ∈ gap, isBlank c = true)

include hgap in
/-- What stands between the entries. -/
theorem not_isQuote_of_mem {c : Char} (hc : c ∈ ',' :: gap) : isQuote c = false ∧ c ≠ 'f' := by
  rcases List.mem_cons.1 hc with rfl | hc
  · decide
  · have hblank := hgap c hc
    have hmark := isMark_of_isBlank hblank
    simp only [isMark, Bool.or_eq_false_iff] at hmark
    refine ⟨hmark.1.1.2, ?_⟩
    rintro rfl
    exact absurd hblank (by decide)

/-- What the pass for closures finds of an entry. -/
def closureTexts (gap : List Char) : Entry → List (List (Nat × List Char))
  | .plain _ => []
  | .closure n clauses h =>
    [[(0, (Entry.closure n clauses h).text gap), (2, closureText gap clauses), (1, n.text.toList)]]

include hgap in
theorem matchTexts_closureEntry :
    closureEntry.matchTexts none (joined gap (entries.map (Entry.text gap))) = entries.flatMap (closureTexts gap) := by
  have hreads : Reads closureEntry none (joined gap (entries.map (Entry.text gap))) (entries.flatMap (closureTexts gap))
      (joined gap (entries.map fun e => if e.isClosure then [] else e.text gap)) := by
    refine reads_joined (fun c hc b s => fails_quote (not_isQuote_of_mem hgap hc).1 _) (fun b => ?_)
      fun e _ b s ts v hs h => ?_
    · exact (fails_one rfl).seq _
    · cases e with
      | plain n => exact Reads.skip (skips_closureEntry hs) h
      | closure n clauses hclosed =>
        exact Reads.cons (takes_closureEntry (not_mem_closureText hgap hclosed)) (List.cons_ne_nil _ _) h
  exact hreads.matchTexts_eq

include hgap in
/-- **The closures of a list**, in their order. -/
theorem closurePaths_joined :
    closurePaths (joined gap (entries.map (Entry.text gap))) = (entries.filter Entry.isClosure).map Entry.path := by
  let read (t : List (Nat × List Char)) : RelationPath :=
    ⟨String.ofList (textOf 1 t), (whereArgs (textOf 2 t)).filterMap Condition.ofArgs?⟩
  have hread : ∀ e : Entry, (closureTexts gap e).map read = if e.isClosure then [e.path] else [] := by
    intro e
    cases e with
    | plain n => rfl
    | closure n clauses h =>
      have hconditions := @conditions_closureText gap clauses hgap
      exact congrArg₂ (fun s cs => [(⟨s, cs⟩ : RelationPath)]) String.ofList_toList hconditions
  have hpaths := map_matchesIn closureEntry (joined gap (entries.map (Entry.text gap))) read
  rw [matchTexts_closureEntry hgap, List.map_flatMap] at hpaths
  simp only [closurePaths, Match.group_eq]
  refine hpaths.trans ?_
  simp only [hread]
  clear hpaths
  induction entries with
  | nil => rfl
  | cons e entries ih => cases he : e.isClosure <;> simp [he, ih]

/-- What is left of an entry without the body of its closure. -/
def Entry.left : Entry → List Char
  | plain n => quoted n.text.toList
  | closure n _ _ => quoted n.text.toList ++ " => ".toList

include hgap in
theorem replaceAll_closureBody : closureBody.replaceAll (fun _ => []) (joined gap (entries.map (Entry.text gap))) =
    joined gap (entries.map Entry.left) := by
  let found : Entry → List (List (Nat × List Char))
    | .plain _ => []
    | .closure _ clauses _ => [[(0, "function ($q) ".toList ++ '{' :: (closureText gap clauses ++ ['}']))]]
  have hreads : Reads closureBody none (joined gap (entries.map (Entry.text gap))) (entries.flatMap found)
      (joined gap (entries.map Entry.left)) := by
    refine reads_joined (fun c hc b s => fails_closureBody (not_isQuote_of_mem hgap hc).2) (fun b => ?_)
      fun e _ b s ts v hs h => ?_
    · exact (((fails_one rfl).seq _).seq _).seq _
    · cases e with
      | plain n => exact Reads.skip skips_closureBody h
      | closure n clauses hclosed =>
        have hskip : Skips closureBody b (quoted n.text.toList ++ " => ".toList)
            ("function ($q) ".toList ++ '{' :: (closureText gap clauses ++ ['}']) ++ s) := by
          have harrow : ∀ c ∈ " => ".toList, c ≠ 'f' := by decide
          exact skips_append.2 ⟨skips_closureBody, skips_of_heads fun c hc b s => fails_closureBody (harrow c hc)⟩
        have htext : (quoted n.text.toList ++ " => ".toList) ++
            ("function ($q) ".toList ++ '{' :: (closureText gap clauses ++ ['}'])) =
              (Entry.closure n clauses hclosed).text gap := by
          simp [Entry.text]
        rw [← htext] at h ⊢
        rw [List.append_assoc _ _ s]
        exact Reads.take hskip (takes_closureBody (not_mem_closureText hgap hclosed)) (List.cons_ne_nil _ _) h
  exact hreads.replaced_eq

/-- What the pass for names finds of an entry. -/
def nameTexts : Entry → List (Nat × List Char)
  | .plain n => [(0, quoted n.text.toList), (1, n.text.toList)]
  | .closure n _ _ => [(0, quoted n.text.toList ++ " =>".toList), (2, "=>".toList), (1, n.text.toList)]

include hgap in
theorem matchTexts_relationName : relationName.matchTexts none (joined gap (entries.map Entry.left)) =
    entries.map nameTexts := by
  have hreads : Reads relationName none (joined gap (entries.map Entry.left)) (entries.flatMap fun e => [nameTexts e])
      (joined gap (entries.map fun e => if e.isClosure then [' '] else [])) := by
    refine reads_joined (fun c hc b s => fails_quote (not_isQuote_of_mem hgap hc).1 _) (fun b => ?_)
      fun e _ b s ts v hs h => ?_
    · exact (fails_one rfl).seq _
    · cases e with
      | plain n => exact Reads.cons (takes_relationName hs) (List.cons_ne_nil _ _) h
      | closure n clauses hclosed =>
        have hblank : Reads relationName (past b (quoted n.text.toList ++ " =>".toList)) ([' '] ++ s) ts
            ([' '] ++ v) := by
          have hpast : past b (Entry.closure n clauses hclosed).left =
              past (past b (quoted n.text.toList ++ " =>".toList)) [' '] := by
            simp [Entry.left]
          exact Reads.skip ⟨fails_quote (by decide) _, trivial⟩ (hpast ▸ h)
        have htext : (Entry.closure n clauses hclosed).left ++ s =
            (quoted n.text.toList ++ " =>".toList) ++ ([' '] ++ s) := by
          simp [Entry.left]
        rw [htext]
        exact Reads.cons takes_relationName_arrow (List.cons_ne_nil _ _) hblank
  rw [hreads.matchTexts_eq, List.map_eq_flatMap]

include hgap in
/-- **The names of a list that have no closures**, in their order. -/
theorem plainPaths_joined : plainPaths (joined gap (entries.map (Entry.text gap))) =
    (entries.filter fun e => !e.isClosure).map fun e => e.name.text := by
  have htexts : (relationName.matchesIn (joined gap (entries.map Entry.left))).map Match.texts =
      entries.map nameTexts := by
    rw [← matchTexts_relationName hgap]
    rfl
  have hread : (fun t => (textOf? 2 t).isNone) ∘ nameTexts = fun e => !e.isClosure := by
    funext e
    cases e <;> rfl
  have hname : (fun t => String.ofList (textOf 1 t)) ∘ nameTexts = fun e => e.name.text := by
    funext e
    cases e <;> exact String.ofList_toList
  rw [plainPaths, replaceAll_closureBody hgap]
  simp only [Match.group_eq, Match.group?_eq]
  have hmap := congrArg
    (fun l => (l.filter fun t => (textOf? 2 t).isNone).map fun t => String.ofList (textOf 1 t)) htexts
  simp only [List.filter_map, List.map_map, hread, hname] at hmap
  exact hmap

end Passes

/-- Names that are new are added in their order. -/
theorem foldl_addName {names : List String} {paths : List RelationPath} (hnames : names.Nodup)
    (hnew : ∀ s ∈ names, ∀ p ∈ paths, p.path ≠ s) :
    names.foldl (fun paths name => if paths.any (·.path == name) then paths else paths ++ [{ path := name }]) paths =
      paths ++ names.map fun s => { path := s } := by
  induction names generalizing paths with
  | nil => simp
  | cons s names ih =>
    rw [List.nodup_cons] at hnames
    have habsent : paths.any (·.path == s) = false := by
      rw [List.any_eq_false]
      intro p hp
      simpa using hnew s (by simp) p hp
    rw [List.foldl_cons, habsent, if_neg (by simp), ih hnames.2 fun t ht p hp => ?_]
    · simp
    · rcases List.mem_append.1 hp with hp | hp
      · exact hnew t (List.mem_cons_of_mem s ht) p hp
      · rw [List.mem_singleton.1 hp]
        rintro rfl
        exact hnames.1 ht

/-- The paths of entries: first those with closures. -/
def entryPaths (entries : List Entry) : List RelationPath :=
  (entries.filter Entry.isClosure ++ entries.filter fun e => !e.isClosure).map Entry.path

theorem mem_entryPaths {entries : List Entry} {p : RelationPath} :
    p ∈ entryPaths entries ↔ ∃ e ∈ entries, e.path = p := by
  rw [entryPaths, List.mem_map]
  refine exists_congr fun e => and_congr_left fun _ => ?_
  rw [List.mem_append, List.mem_filter, List.mem_filter]
  cases e.isClosure <;> simp

theorem relationPaths_joined (hgap : ∀ c ∈ gap, isBlank c = true) {entries : List Entry}
    (hnames : (entries.map fun e => e.name.text).Nodup) :
    relationPaths (joined gap (entries.map (Entry.text gap))) = entryPaths entries := by
  have hplain : ((entries.filter fun e => !e.isClosure).map fun e => e.name.text).Nodup :=
    hnames.sublist (List.filter_sublist.map _)
  have hnew : ∀ s ∈ (entries.filter fun e => !e.isClosure).map (fun e => e.name.text),
      ∀ p ∈ (entries.filter Entry.isClosure).map Entry.path, p.path ≠ s := by
    intro s hs p hp heq
    obtain ⟨e, he, rfl⟩ := List.mem_map.1 hs
    obtain ⟨f, hf, rfl⟩ := List.mem_map.1 hp
    rw [List.mem_filter] at he hf
    have hef : e = f := List.inj_on_of_nodup_map hnames he.1 hf.1 heq.symm
    rw [hef, hf.2] at he
    exact absurd he.2 (by decide)
  rw [relationPaths, plainPaths_joined hgap, closurePaths_joined hgap, foldl_addName hplain hnew, entryPaths,
    List.map_append, List.map_map]
  congr 1
  refine List.map_congr_left fun e he => ?_
  cases e with
  | plain n => rfl
  | closure n clauses h => exact absurd (List.mem_filter.1 he).2 (by simp [Entry.isClosure])

end Query

end FluentTables
