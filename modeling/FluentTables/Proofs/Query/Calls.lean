import FluentTables.Proofs.Pattern.Openings
import FluentTables.Proofs.Query.Statements

/-!
# Calls as they are written

A statement is written as calls one after another. Round brackets stand nowhere else, so what a pattern reads in front
of one is what some call has in front of its own (`call_of_opens`): this is how a pattern is seen to match nowhere
(`search_eq_none_of_firstCall`, `search_eq_none_of_nextCall`), or not before a certain call (`skips_written`). The
arguments of the calls are read back (`whereArgs_written`, `search_withCall`).
-/

namespace FluentTables

namespace Query

open Pattern Text Shape

variable {l w rest : List Char} {b : Option Char} {c : Char}

/-- An arrow with white space around it. -/
structure Arrow where
  before : List Char := []
  after : List Char := []
  blank_before : ∀ c ∈ before, isBlank c = true := by decide
  blank_after : ∀ c ∈ after, isBlank c = true := by decide

namespace Arrow

variable (a : Arrow)

/-- The text of an arrow behind the white space in front of it. -/
def tip : List Char := "->".toList ++ a.after

/-- The text of an arrow. -/
def text : List Char := a.before ++ a.tip

/-- An arrow is its sign and white space. -/
theorem eq_or_isBlank_of_mem (h : c ∈ a.text) : isBlank c = true ∨ c = '-' ∨ c = '>' := by
  rw [text, tip, List.mem_append, List.mem_append] at h
  rcases h with h | h | h
  · exact Or.inl (a.blank_before c h)
  · exact Or.inr (by simpa using h)
  · exact Or.inl (a.blank_after c h)

theorem parenFree : ParenFree a.text := by
  intro c hc
  rcases a.eq_or_isBlank_of_mem hc with h | rfl | rfl
  · exact isParen_of_isBlank h
  · decide
  · decide

theorem parenFree_tip : ParenFree a.tip := fun c hc => a.parenFree c (List.mem_append_right _ hc)

theorem isDigit_eq_false (c : Char) (h : c ∈ a.text) : isDigit c = false := by
  rcases a.eq_or_isBlank_of_mem h with h | rfl | rfl
  · exact isDigit_of_isBlank h
  · decide
  · decide

/-- An arrow ends with its tip or with white space. -/
theorem last : ∃ c, a.tip.getLast? = some c ∧ (c = '>' ∨ isBlank c = true) := by
  rw [tip, List.getLast?_append]
  cases hafter : a.after.getLast? with
  | none => exact ⟨'>', rfl, Or.inl rfl⟩
  | some c => exact ⟨c, rfl, Or.inr (a.blank_after c (List.mem_of_getLast? hafter))⟩

/-- An arrow is no word. -/
theorem edge : ∃ c, a.text.getLast? = some c ∧ isWord c = false := by
  obtain ⟨c, hc, hlast⟩ := a.last
  refine ⟨c, by rw [text, List.getLast?_append, hc]; rfl, ?_⟩
  rcases hlast with rfl | hblank
  · decide
  · exact isWord_of_isBlank hblank

/-- An arrow does not end where two colons do. -/
theorem not_tip_suffix (u : List Char) : ¬ a.tip <:+ u ++ "::".toList := by
  rintro ⟨t, ht⟩
  obtain ⟨c, hc, hlast⟩ := a.last
  have h := congrArg List.getLast? ht
  rw [List.getLast?_append, hc, List.getLast?_append] at h
  cases h
  rcases hlast with h | h <;> exact absurd h (by decide)

theorem not_colons_suffix : ¬ "::".toList <:+ a.text := by
  rintro ⟨t, ht⟩
  obtain ⟨c, hc, hlast⟩ := a.last
  have h := congrArg List.getLast? ht
  rw [text, List.getLast?_append, List.getLast?_append, hc] at h
  cases h
  rcases hlast with h | h <;> exact absurd h (by decide)

end Arrow

theorem parenFree_word {w : List Char} (h : IsAsciiWord w) : ParenFree w := by
  intro c hc
  obtain ⟨-, -, hmarks⟩ := ascii_word (h.2 c hc)
  simp only [List.mem_cons, not_or] at hmarks
  simp [isParen, hmarks]

/-- The names of calls that statements have. -/
def methods : List String := ["create", "all", "with", "where", "get", "first"]

theorem methods_suffix : ∀ m ∈ methods, ∀ n ∈ methods, m.toList <:+ n.toList → m = n := by decide

theorem parenFree_method {m : String} (h : m ∈ methods) : ParenFree m.toList := by
  have hall : ∀ m ∈ methods, ParenFree m.toList := by decide
  exact hall m h

/-- A call: what leads to it, its name and its arguments. -/
structure Call where
  lead : List Char
  name : String
  args : List Char

namespace Call

/-- What stands in front of the opening bracket. -/
def link (c : Call) : List Char := c.lead ++ c.name.toList

/-- The text of a call. -/
def text (c : Call) : List Char := c.link ++ '(' :: (c.args ++ [')'])

/-- `Model::name(args)`. -/
def first (model : String) (name : String) (args : List Char) : Call := ⟨model.toList ++ "::".toList, name, args⟩

/-- `->name(args)`. -/
def next (a : Arrow) (name : String) (args : List Char) : Call := ⟨a.text, name, args⟩

/-- The brackets of a call are the only ones. -/
structure HasOwnParens (c : Call) : Prop where
  link : ParenFree c.link
  args : ParenFree c.args

/-- The brackets of a call are the only ones, its name is known, and it makes no decimal comma. -/
structure IsPlain (c : Call) : Prop where
  lead : ParenFree c.lead
  args : ParenFree c.args
  name : c.name ∈ methods
  lead_decimal : ∀ s, hasDecimalComma (c.lead ++ s) = hasDecimalComma s
  args_decimal : hasDecimalComma c.args = false

theorem isPlain_first {model name : String} {args : List Char} (hmodel : IsAsciiWord model.toList)
    (hname : name ∈ methods) (hargs : ParenFree args) (hdecimal : hasDecimalComma args = false) :
    (first model name args).IsPlain := by
  constructor
  case lead => exact (parenFree_word hmodel).append (by decide)
  case args => exact hargs
  case name => exact hname
  case lead_decimal =>
    intro s
    have hcolon : hasDecimalComma ([':'] ++ s) = hasDecimalComma s := hasDecimalComma_append_left (by decide)
    have h := hasDecimalComma_statement hmodel ([':'] ++ s)
    rw [hcolon] at h
    simpa [first] using h
  case args_decimal => exact hdecimal

theorem isPlain_next (a : Arrow) {name : String} {args : List Char} (hname : name ∈ methods) (hargs : ParenFree args)
    (hdecimal : hasDecimalComma args = false) : (next a name args).IsPlain :=
  ⟨a.parenFree, hargs, hname, fun _ => hasDecimalComma_append_left a.isDigit_eq_false, hdecimal⟩

/-- A call without arguments. -/
theorem isPlain_last (a : Arrow) {name : String} (hname : name ∈ methods) : (next a name []).IsPlain :=
  isPlain_next a hname (by decide) rfl

variable {c : Call} {m : String}

theorem IsPlain.link (h : c.IsPlain) : ParenFree c.link := h.lead.append (parenFree_method h.name)

theorem IsPlain.hasOwnParens (h : c.IsPlain) : c.HasOwnParens := ⟨h.link, h.args⟩

/-- A known name in front of the bracket is the name of the call. -/
theorem IsPlain.name_eq (h : c.IsPlain) (hm : m ∈ methods) (hl : l ++ m.toList <:+ c.link) :
    c.name = m ∧ l <:+ c.lead := by
  have hname : c.name = m := by
    rcases List.suffix_or_suffix_of_suffix ((List.suffix_append l m.toList).trans hl)
        (List.suffix_append c.lead c.name.toList) with hs | hs
    · exact (methods_suffix m hm c.name h.name hs).symm
    · exact methods_suffix c.name h.name m hm hs
  refine ⟨hname, ?_⟩
  rw [Call.link, hname, ← List.reverse_prefix, List.reverse_append, List.reverse_append,
    List.prefix_append_right_inj, List.reverse_prefix] at hl
  exact hl

end Call

/-- Calls one after another. -/
def written (calls : List Call) : List Char := calls.flatMap Call.text

variable {calls : List Call}

theorem written_cons (c : Call) : written (c :: calls) = c.text ++ written calls := List.flatMap_cons

theorem written_append (calls' : List Call) : written (calls ++ calls') = written calls ++ written calls' :=
  List.flatMap_append

theorem hasDecimalComma_written (h : ∀ c ∈ calls, c.IsPlain) : hasDecimalComma (written calls) = false := by
  induction calls with
  | nil => rfl
  | cons c calls ih =>
    have hc := h c (by simp)
    have hnames : ∀ m ∈ methods, ∀ d ∈ m.toList ++ ['('], isDigit d = false := by decide
    have hrest : hasDecimalComma (c.args ++ ')' :: written calls) = false := by
      rw [hasDecimalComma_append (by rfl) (by simp [startsCommaDigit]), hc.args_decimal, ← List.singleton_append,
        hasDecimalComma_append_left (by decide), ih fun d hd => h d (List.mem_cons_of_mem c hd)]
      rfl
    have htext : written (c :: calls) = c.lead ++ ((c.name.toList ++ ['(']) ++ (c.args ++ ')' :: written calls)) := by
      simp [written_cons, Call.text, Call.link]
    rw [htext, hc.lead_decimal, hasDecimalComma_append_left (hnames _ hc.name), hrest]

/-- **Calls of a model, one after another, are read as they stand.** -/
theorem prepare_written {model name : String} {args : List Char} (hmodel : IsAsciiWord model.toList) (last : Call)
    (h : ∀ c ∈ Call.first model name args :: (calls ++ [last]), c.IsPlain) :
    prepare (written (Call.first model name args :: (calls ++ [last]))) =
      written (Call.first model name args :: (calls ++ [last])) := by
  refine prepare_eq_self ?_ (hasDecimalComma_written h)
  have htrim := trim_statement hmodel ("::".toList ++ (name.toList ++ '(' :: (args ++ ')' ::
    (written calls ++ (last.link ++ '(' :: last.args)))))
  simpa [written, Call.text, Call.link, Call.first] using htrim

/-- What stands in front of an opening bracket stands in front of the bracket of a call. -/
theorem link_of_opens (hcalls : ∀ c ∈ calls, c.HasOwnParens) (hl : ParenFree l)
    (h : Opens l (written calls ++ rest)) : (∃ c ∈ calls, l <:+ c.link) ∨ Opens l rest := by
  induction calls with
  | nil => exact Or.inr h
  | cons c calls ih =>
    have hc := hcalls c (by simp)
    have htext : written (c :: calls) ++ rest = c.link ++ '(' :: (c.args ++ ')' :: (written calls ++ rest)) := by
      simp [written, Call.text]
    rw [htext] at h
    rcases h.of_open hl hc.link with h | h
    · exact Or.inl ⟨c, by simp, h⟩
    · rcases h.of_cons hl.not_mem.2 (by decide) with h | h
      · exact absurd h (not_opens hc.args)
      · rcases ih (fun d hd => hcalls d (List.mem_cons_of_mem c hd)) h with ⟨d, hd, h⟩ | h
        · exact Or.inl ⟨d, List.mem_cons_of_mem c hd, h⟩
        · exact Or.inr h

/-- A name in front of an opening bracket is the name of a call. -/
theorem call_of_opens {m : String} (hcalls : ∀ c ∈ calls, c.IsPlain) (hl : ParenFree l) (hm : m ∈ methods)
    (h : Opens (l ++ m.toList) (written calls)) : ∃ c ∈ calls, c.name = m ∧ l <:+ c.lead := by
  rw [← List.append_nil (written calls)] at h
  rcases link_of_opens (fun c hc => (hcalls c hc).hasOwnParens) (hl.append (parenFree_method hm)) h with
    ⟨c, hc, hlink⟩ | hnil
  · exact ⟨c, hc, (hcalls c hc).name_eq hm hlink⟩
  · exact absurd hnil (not_opens (by decide))

/-! ## Patterns of calls -/

theorem spells_firstCall {m : String} : Spells (firstCall m) w ↔ w = "::".toList ++ (m.toList ++ ['(']) := by
  rw [firstCall, spells_text]
  simp

theorem spells_nextCall {m : String} : Spells (nextCall m) w ↔ ∃ a : Arrow, w = a.text ++ (m.toList ++ ['(']) := by
  simp only [nextCall, spells_chain_cons, spells_text, String.toList_append]
  constructor
  · rintro ⟨u, -, rfl, hu, -, -, rfl, rfl, v, -, rfl, hv, -, -, rfl, rfl, rfl⟩
    exact ⟨⟨u, v, hu, hv⟩, by simp [Arrow.text, Arrow.tip]⟩
  · rintro ⟨a, rfl⟩
    exact ⟨a.before, "->".toList ++ (a.after ++ (m.toList ++ ['('])), by simp [Arrow.text, Arrow.tip], a.blank_before,
      _, _, rfl, rfl, a.after, _, rfl, a.blank_after, _, [], (List.append_nil _).symm, rfl, rfl⟩

theorem spells_many1 {p : Pattern} (h : Spells (many1 p) w) : ∃ u, u <:+: w ∧ Spells p u := by
  obtain ⟨u, v, rfl, hu, -⟩ := h
  exact ⟨u, (List.prefix_append u v).isInfix, hu⟩

theorem opening_nextCall (m : String) (hm : ParenFree m.toList) (ps : List Pattern) :
    Opening (chain (nextCall m :: ps)) fun x => ∃ a : Arrow, x = a.text ++ m.toList := by
  rintro w ⟨u, v, rfl, hu, -⟩
  obtain ⟨a, rfl⟩ := spells_nextCall.1 hu
  exact ⟨a.text ++ m.toList, v, by simp, a.parenFree.append hm, a, rfl⟩

theorem opening_whereCall : Opening whereCall fun x => x = "where".toList := by
  rintro w ⟨-, v, rfl, rfl, u, v, rfl, hu, -⟩
  rw [spells_text] at hu
  exact ⟨_, v, by rw [hu]; rfl, by decide, rfl⟩

theorem opening_withCall : Opening withCall fun x => ∃ a : Arrow, x = a.tip ++ "with".toList := by
  rintro w ⟨u, v, rfl, hu, t, v, rfl, ht, u', v, rfl, hu', -⟩
  rw [spells_text] at hu hu'
  have hfree := (⟨[], t, by simp, ht⟩ : Arrow).parenFree_tip.append (by decide : ParenFree "with".toList)
  exact ⟨_, v, by rw [hu, hu']; simp [Arrow.tip], hfree, _, rfl⟩

/-! ## Shapes that a statement does not have -/

variable {calls : List Call} {m : String} {r : Pattern} {ps : List Pattern}

theorem opens_firstCall (hmem : firstCall m ∈ ps) (h : Spells (chain ps) w) :
    Opens ("::".toList ++ m.toList) w := by
  obtain ⟨u, hu, hspells⟩ := exists_infix_of_spells_chain hmem h
  rwa [spells_firstCall.1 hspells, ← List.append_assoc] at hu

theorem opens_nextCall (hmem : nextCall m ∈ ps) (h : Spells (chain ps) w) :
    ∃ a : Arrow, Opens (a.tip ++ m.toList) w := by
  obtain ⟨u, hu, hspells⟩ := exists_infix_of_spells_chain hmem h
  obtain ⟨a, rfl⟩ := spells_nextCall.1 hspells
  exact ⟨a, List.IsInfix.trans ⟨a.before, [], by simp [Arrow.text]⟩ hu⟩

/-- A pattern with a call of the model does not match where no call of this name follows two colons. -/
theorem search_eq_none_of_firstCall (hr : ∀ w, Spells r w → Opens ("::".toList ++ m.toList) w) (hm : m ∈ methods)
    (hcalls : ∀ c ∈ calls, c.IsPlain) (h : ∀ c ∈ calls, c.name = m → ¬ "::".toList <:+ c.lead) :
    r.search (written calls) = none := by
  refine search_eq_none_of_spells fun w hw hspells => ?_
  obtain ⟨c, hc, hname, hlead⟩ := call_of_opens hcalls (by decide) hm ((hr w hspells).mono hw)
  exact h c hc hname hlead

/-- A pattern with an arrow to a call does not match where calls of this name follow two colons only. -/
theorem search_eq_none_of_nextCall (hr : ∀ w, Spells r w → ∃ a : Arrow, Opens (a.tip ++ m.toList) w)
    (hm : m ∈ methods) (hcalls : ∀ c ∈ calls, c.IsPlain)
    (h : ∀ c ∈ calls, c.name = m → ∃ u, c.lead = u ++ "::".toList) : r.search (written calls) = none := by
  refine search_eq_none_of_spells fun w hw hspells => ?_
  obtain ⟨a, hopens⟩ := hr w hspells
  obtain ⟨c, hc, hname, hlead⟩ := call_of_opens hcalls a.parenFree_tip hm (hopens.mono hw)
  obtain ⟨u, hu⟩ := h c hc hname
  exact a.not_tip_suffix u (hu ▸ hlead)

/-! ## What the patterns of calls take -/

section Takes

variable {args : List Char}

theorem takes_upTo (h : ParenFree args) : Takes (upTo ')') b args (')' :: rest) [] :=
  takes_span (fun c hc => by
    have hne : c ≠ ')' := fun hp => h.not_mem.2 (hp ▸ hc)
    simpa using hne) (by simp)

theorem takes_arguments (h : ParenFree args) : Takes arguments b (args ++ [')']) rest [] :=
  (takes_upTo h).chain_cons ((takes_char ')').chain_cons takes_chain_nil)

theorem takes_argumentGroup (h : ParenFree args) (i : Nat) :
    Takes (argumentGroup i) b (args ++ [')']) rest [(i, args)] :=
  ((takes_upTo h).group i).chain_cons ((takes_char ')').chain_cons takes_chain_nil)

theorem takes_nextCall (a : Arrow) {m : String} (hm : m ∈ methods) :
    Takes (nextCall m) b (a.text ++ (m.toList ++ ['('])) rest [] := by
  have hheads : ∀ m ∈ methods, (m.toList ++ ['(']).head?.any isBlank = false := by decide
  have hhead : (((m ++ "(").toList ++ []) ++ rest).head?.any isBlank = false := by
    obtain ⟨c, u, hu⟩ := List.exists_cons_of_ne_nil
      (List.append_ne_nil_of_right_ne_nil m.toList (List.cons_ne_nil '(' []))
    have h := hheads m hm
    rw [hu] at h
    rw [String.toList_append, List.append_nil, show "(".toList = ['('] from rfl, hu]
    exact h
  have h : Takes (nextCall m) b _ rest [] :=
    (takes_blanks a.blank_before (by rfl)).chain_cons <| (takes_text "->").chain_cons <|
      (takes_blanks a.blank_after hhead).chain_cons <| (takes_text _).chain_cons takes_chain_nil
  simpa [Arrow.text, Arrow.tip] using h

end Takes

/-! ## Reading the calls of a statement -/

section Reading

variable {args : List Char}

theorem takes_whereCall (hargs : ParenFree args) (hb : b.any isWord = false) :
    Takes whereCall b ("where(".toList ++ (args ++ [')'])) rest [(1, args)] := by
  have hat : ∀ s, (⟨b, 'w' :: s⟩ : Place).atWordEdge = true := fun s => by
    simp [Place.atWordEdge, hb, show isWord 'w' = true by decide]
  have h : Takes whereCall b _ rest _ :=
    (takes_wordEdge (by exact hat _)).chain_cons <| (takes_text "where(").chain_cons <|
      (takes_argumentGroup hargs 1).chain_cons takes_chain_nil
  simpa using h

theorem takes_withCall (a : Arrow) (hargs : ParenFree args) :
    Takes withCall b (a.tip ++ ("with(".toList ++ (args ++ [')']))) rest [(1, args)] := by
  have h : Takes withCall b _ rest _ :=
    (takes_text "->").chain_cons <| (takes_blanks a.blank_after (by rfl)).chain_cons <|
      (takes_text "with(").chain_cons <| (takes_argumentGroup hargs 1).chain_cons takes_chain_nil
  simpa [Arrow.tip] using h

/-- The calls at the beginning of a text that are named `where`. -/
theorem matchTexts_whereCall (hcalls : ∀ c ∈ calls, c.IsPlain ∧ c.name = "where")
    (hedge : ∀ c ∈ calls, ∃ d, c.lead.getLast? = some d ∧ isWord d = false) (hrest : ¬ Opens "where".toList rest) :
    whereCall.matchTexts b (written calls ++ rest) =
      calls.map fun c => [(0, "where(".toList ++ (c.args ++ [')'])), (1, c.args)] := by
  induction calls generalizing b with
  | nil =>
    refine matchTexts_none (searchAt_eq_none_of_spells fun w hw hspells => hrest ?_)
    obtain ⟨x, y, rfl, -, rfl⟩ := opening_whereCall w hspells
    exact List.IsInfix.trans ⟨[], y, by simp⟩ hw
  | cons c calls ih =>
    obtain ⟨hplain, hname⟩ := hcalls c (by simp)
    obtain ⟨d, hd, hword⟩ := hedge c (by simp)
    have htext : written (c :: calls) ++ rest =
        c.lead ++ (("where(".toList ++ (c.args ++ [')'])) ++ (written calls ++ rest)) := by
      simp [written, Call.text, Call.link, hname]
    have hskip : Skips whereCall b c.lead (("where(".toList ++ (c.args ++ [')'])) ++ (written calls ++ rest)) := by
      refine opening_whereCall.skips (v := "where".toList) (hplain.lead.append (by decide)) fun p e q _ hne => ?_
      have := congrArg List.length hne
      simp at this
    have hpast : (past b c.lead).any isWord = false := by simp [past, hd, hword]
    rw [htext, matchTexts_take hskip (takes_whereCall hplain.args hpast) (by simp),
      ih (fun e he => hcalls e (List.mem_cons_of_mem c he)) fun e he => hedge e (List.mem_cons_of_mem c he)]
    rfl

/-- **The arguments of the calls at the beginning of a text that are named `where`.** -/
theorem whereArgs_written (hcalls : ∀ c ∈ calls, c.IsPlain ∧ c.name = "where")
    (hedge : ∀ c ∈ calls, ∃ d, c.lead.getLast? = some d ∧ isWord d = false) (hrest : ¬ Opens "where".toList rest) :
    whereArgs (written calls ++ rest) = calls.map Call.args := by
  simp only [whereArgs, Match.group_eq]
  rw [map_matchesIn, matchTexts_whereCall hcalls hedge hrest, List.map_map]
  rfl

/-- No match begins within calls whose links do not end with what the pattern begins with. -/
theorem skips_written {P : List Char → Prop} {s : List Char} (hr : Opening r P) (hcalls : ∀ c ∈ calls, c.HasOwnParens)
    (h : ∀ c ∈ calls, ∀ x, x <:+ c.link → ¬ P x) : Skips r b (written calls) s := by
  induction calls generalizing b with
  | nil => trivial
  | cons c calls ih =>
    have hc := hcalls c (by simp)
    have hbefore : ∀ p d q, c.link = p ++ d :: q → ¬ P (d :: (q ++ [])) := fun p d q hlink =>
      h c (by simp) _ ⟨p, by rw [hlink, List.append_nil]⟩
    have hat : ¬ P [] := h c (by simp) [] List.nil_suffix
    have hlink : Skips r b c.link ('(' :: (c.args ++ [')'] ++ (written calls ++ s))) :=
      hr.skips (v := []) (by simpa using hc.link) hbefore
    have hrest : Skips r (past b c.text) (written calls) s :=
      ih (fun d hd => hcalls d (List.mem_cons_of_mem c hd)) fun d hd => h d (List.mem_cons_of_mem c hd)
    rw [written_cons, skips_append, Call.text, skips_append]
    refine ⟨⟨by simpa using hlink, ?_, ?_⟩, hrest⟩
    · exact hr.fails (x := []) (by decide) hat _
    · exact hr.skips_close hc.args

/-- No match of a call for relations begins before the tip of its arrow. -/
theorem skips_before (a : Arrow) (s : List Char) :
    Skips withCall b a.before (a.tip ++ ("with".toList ++ '(' :: s)) := by
  have h : Skips withCall b a.before ((a.tip ++ "with".toList) ++ '(' :: s) := by
    refine opening_withCall.skips ?_ fun p c q hq ⟨a', ha'⟩ => ?_
    · have hfree := a.parenFree.append (by decide : ParenFree "with".toList)
      rwa [Arrow.text, List.append_assoc] at hfree
    · have hc : isBlank c = true := a.blank_before c (by simp [hq])
      obtain rfl : c = '-' := (List.cons_eq_cons.1 ha').1
      exact absurd hc (by decide)
  simpa using h

/-- **The arguments of the first call named `with` behind calls named `where`.** -/
theorem search_withCall (hcalls : ∀ c ∈ calls, c.IsPlain ∧ c.name = "where") (a : Arrow) (hargs : ParenFree args)
    (rest : List Char) :
    (withCall.search (written calls ++ ((Call.next a "with" args).text ++ rest))).map (·.group 1) = some args := by
  have hwheres : ∀ s, Skips withCall none (written calls) s := fun s =>
    skips_written opening_withCall (fun c hc => (hcalls c hc).1.hasOwnParens) fun c hc x hx ⟨a', ha'⟩ => by
      obtain ⟨hplain, hname⟩ := hcalls c hc
      have h := (hplain.name_eq (by decide) (ha' ▸ hx)).1
      rw [hname] at h
      exact absurd h (by decide)
  have hskip : Skips withCall none (written calls ++ a.before)
      (a.tip ++ ("with(".toList ++ (args ++ [')'])) ++ rest) := by
    refine skips_append.2 ⟨hwheres _, ?_⟩
    simpa using skips_before a (args ++ ')' :: rest)
  obtain ⟨m, hm, -, htexts, -⟩ := searchAt_of_takes hskip (takes_withCall a hargs)
  have htext : (written calls ++ a.before) ++ (a.tip ++ ("with(".toList ++ (args ++ [')'])) ++ rest) =
      written calls ++ ((Call.next a "with" args).text ++ rest) := by
    simp [Call.text, Call.link, Call.next, Arrow.text]
  rw [htext] at hm
  rw [search, hm, Option.map_some, m.group_eq, htexts]
  rfl

end Reading

end Query

end FluentTables
