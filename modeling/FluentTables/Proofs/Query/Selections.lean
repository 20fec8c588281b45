import FluentTables.Proofs.Query.Calls

/-!
# Selections as they are written

A selection is written as calls: one `where` call for each condition, perhaps a `with` call, and `get` or `first`.
Three shapes share these statements (`recognize_whereGet`, `recognize_whereWith`, `recognize_multiWhere`); whichever
applies, the answer is the rows that meet every condition, with the named relations attached
(`interpret_selection`).
-/

namespace FluentTables

open Text

/-! ## The words of operators -/

/-- The operators by their signs. -/
def Operator.signs : List (String × Operator) :=
  [("=", .eq), ("==", .eq), (">", .gt), ("<", .lt), (">=", .ge), ("<=", .le), ("like", .like)]

theorem Operator.ofText_sign : ∀ s ∈ signs, ofText (quoted s.1.toList) = s.2 := by decide

/-- A sign of an operator; `like` may be in any case. -/
def Operator.IsSign (operator : Operator) (sign : List Char) : Prop :=
  (String.ofList sign, operator) ∈ signs ∨ operator = .like ∧ sameAscii sign "like".toList = true

/-- What a word names: the operator of its sign, or no operator but the word itself. -/
def Operator.IsNamedBy (operator : Operator) (word : List Char) : Prop :=
  operator.IsSign word ∨ operator = .unsupported (String.ofList word) ∧
    String.ofList word ∉ signs.map Prod.fst ∧ sameAscii word "like".toList = false

instance (operator : Operator) (sign : List Char) : Decidable (operator.IsSign sign) :=
  inferInstanceAs (Decidable (_ ∨ _))

instance (operator : Operator) (word : List Char) : Decidable (operator.IsNamedBy word) :=
  inferInstanceAs (Decidable (_ ∨ _))

theorem Operator.IsSign.char {operator : Operator} {sign : List Char} (h : operator.IsSign sign) {c : Char}
    (hc : c ∈ sign) : isQuote c = false ∧ c ≠ '\\' := by
  rcases h with h | ⟨-, h⟩
  · have hsigns : ∀ s ∈ signs, ∀ c ∈ s.1.toList, isQuote c = false ∧ c ≠ '\\' := by decide
    exact hsigns _ h c (by rwa [String.toList_ofList])
  · have hlower : sign.map Char.toLower = "like".toList.map Char.toLower := by simpa [sameAscii] using h
    have hmem : c.toLower ∈ "like".toList.map Char.toLower := hlower ▸ List.mem_map_of_mem hc
    have hne : ∀ d ∈ ['\'', '"', '\\'], c ≠ d := by
      rintro d hd rfl
      have hsame : ∀ e ∈ ['\'', '"', '\\'], e.toLower ∉ "like".toList.map Char.toLower := by decide
      exact hsame c hd hmem
    simp only [List.mem_cons, List.not_mem_nil, or_false, forall_eq_or_imp, forall_eq] at hne
    simp [isQuote, hne]

/-- A sign in quotes is read as its operator. -/
theorem Operator.ofText_of_isSign {operator : Operator} {sign : List Char} (h : operator.IsSign sign) :
    ofText (quoted sign) = operator := by
  have hquote : ∀ c ∈ sign, isQuote c = false := fun c hc => (h.char hc).1
  rcases h with h | ⟨rfl, h⟩
  · have hsign := ofText_sign _ h
    rwa [String.toList_ofList] at hsign
  · -- The other signs are shorter than `like`.
    have hne : ∀ w : List Char, w.length ≠ 4 → sign ≠ w := by
      rintro w hw rfl
      exact hw (by simpa [sameAscii] using congrArg List.length (beq_iff_eq.1 h))
    rw [ofText, quoted, stripQuotes_quotedBy rfl hquote, if_neg (by simp [hne]), if_neg (hne _ (by decide)),
      if_neg (hne _ (by decide)), if_neg (hne _ (by decide)), if_neg (hne _ (by decide)), if_pos h]

theorem Operator.exists_isNamedBy (word : List Char) : ∃ operator : Operator, operator.IsNamedBy word := by
  by_cases hsign : String.ofList word ∈ signs.map Prod.fst
  · obtain ⟨⟨s, operator⟩, hs, rfl⟩ := List.mem_map.1 hsign
    exact ⟨operator, Or.inl (Or.inl hs)⟩
  · cases hlike : sameAscii word "like".toList with
    | true => exact ⟨.like, Or.inl (Or.inr ⟨rfl, hlike⟩)⟩
    | false => exact ⟨_, Or.inr ⟨rfl, hsign, hlike⟩⟩

/-- **A word in quotes is read as what it names.** -/
theorem Operator.isNamedBy_iff {operator : Operator} {word : List Char} (hword : ∀ c ∈ word, isQuote c = false) :
    operator.IsNamedBy word ↔ ofText (quoted word) = operator := by
  have hread : ∀ {o : Operator}, o.IsNamedBy word → ofText (quoted word) = o := by
    rintro o (hsign | ⟨rfl, hsigns, hlike⟩)
    · exact ofText_of_isSign hsign
    · have hne : ∀ s ∈ signs, word ≠ s.1.toList := by
        rintro s hs rfl
        exact hsigns (List.mem_map.2 ⟨s, hs, String.ofList_toList.symm⟩)
      simp only [signs, List.mem_cons, List.not_mem_nil, or_false, forall_eq_or_imp, forall_eq] at hne
      rw [ofText, quoted, stripQuotes_quotedBy rfl hword]
      simp_all
  refine ⟨hread, ?_⟩
  rintro rfl
  obtain ⟨o, ho⟩ := exists_isNamedBy word
  exact hread ho ▸ ho

namespace Query

open Pattern Shape

/-! ## Clauses and names -/

/-- A text that is nothing but text between quotes and within round brackets. -/
def IsPlainText (s : List Char) : Prop :=
  (∀ c ∈ s, isQuote c = false ∧ c ≠ '\\' ∧ isParen c = false) ∧ hasDecimalComma s = false

instance : DecidablePred IsPlainText := fun _ => inferInstanceAs (Decidable (_ ∧ _))

/-- A condition as it is written: a column, a word with what it names, and a value. -/
structure Clause where
  column : String
  sign : String × Operator
  value : String
  column_ne : column ≠ "" := by decide
  column_plain : IsPlainText column.toList := by decide
  sign_plain : IsPlainText sign.1.toList := by decide
  sign_named : sign.2.IsNamedBy sign.1.toList := by decide
  value_plain : IsPlainText value.toList := by decide

/-- Identifiers with dots between them. -/
def IsRelationName : List Char → Prop
  | [] => False
  | c :: s => (c.isAlpha = true ∨ c = '_') ∧ ∀ d ∈ s, d.toNat < 0x80 ∧ isWord d = true ∨ d = '.'

instance : DecidablePred IsRelationName
  | [] => inferInstanceAs (Decidable False)
  | _ :: _ => inferInstanceAs (Decidable (_ ∧ _))

theorem IsRelationName.isWord_or_dot {s : List Char} (h : IsRelationName s) :
    ∀ c ∈ s, (c.toNat < 0x80 ∧ isWord c = true) ∨ c = '.' := by
  cases s with
  | nil => exact h.elim
  | cons d s =>
    intro c hc
    rcases List.mem_cons.1 hc with rfl | hc
    · refine Or.inl ?_
      rcases h.1 with ha | rfl
      · have hascii : c.toNat < 0x80 := ascii_of_isAlpha ha
        exact ⟨hascii, by simp [isWord_ascii hascii, Char.isAlphanum, ha]⟩
      · decide
    · exact h.2 c hc

/-- A dotted path of relations as it is written. -/
structure RelationName where
  text : String
  isName : IsRelationName text.toList := by decide

/-- The path of a name. -/
def RelationName.path (n : RelationName) : RelationPath := { path := n.text }

section Arguments

variable {gap : List Char} {args : List (List Char)} (hgap : ∀ c ∈ gap, isBlank c = true)

/-- Plain texts in quotes. -/
theorem IsPlainText.isArgument {s : List Char} (h : IsPlainText s) :
    IsArgument (quoted s) ∧ trim (quoted s) = quoted s ∧ quoted s ≠ [] := by
  refine argument_quotedBy rfl fun c hc => ⟨?_, (h.1 c hc).2.1⟩
  rintro rfl
  exact absurd (h.1 _ hc).1 (by decide)

include hgap in
/-- What is written between quotes makes up the arguments of a call. -/
theorem parenFree_joined (h : ∀ s ∈ args, IsPlainText s) :
    ParenFree (joined gap (args.map quoted)) ∧ hasDecimalComma (joined gap (args.map quoted)) = false := by
  constructor
  · intro c hc
    rcases mem_joined hc with ⟨a, ha, hc⟩ | rfl | hc
    · obtain ⟨s, hs, rfl⟩ := List.mem_map.1 ha
      rcases mem_quotedBy.1 hc with rfl | hc
      · decide
      · exact ((h s hs).1 c hc).2.2
    · decide
    · exact isParen_of_isBlank (hgap c hc)
  · refine (hasDecimalComma_joined hgap fun a ha => ?_).2
    obtain ⟨s, hs, rfl⟩ := List.mem_map.1 ha
    refine ⟨by rfl, ?_⟩
    have hquoted := hasDecimalComma_quotedBy (q := '\'') rfl s []
    rw [List.append_nil, (h s hs).2] at hquoted
    exact hquoted

end Arguments

namespace Clause

variable (c : Clause)

/-- The texts of a clause. -/
def texts : List (List Char) := [c.column.toList, c.sign.1.toList, c.value.toList]

/-- The arguments of the call of a clause. -/
def args (gap : List Char) : List Char := joined gap (c.texts.map quoted)

/-- The condition that a clause states; its value is a text. -/
def condition : Condition := ⟨c.column, c.sign.2, .text c.value⟩

theorem isPlainText_texts : ∀ s ∈ c.texts, IsPlainText s := by
  intro s hs
  simp only [texts, List.mem_cons, List.not_mem_nil, or_false] at hs
  rcases hs with rfl | rfl | rfl
  · exact c.column_plain
  · exact c.sign_plain
  · exact c.value_plain

/-- **A written clause is read back.** -/
theorem ofArgs?_args {gap : List Char} (hgap : ∀ c ∈ gap, isBlank c = true) :
    Condition.ofArgs? (c.args gap) = some c.condition := by
  have hargs : splitArgs (c.args gap) = c.texts.map quoted := by
    refine splitArgs_joined hgap fun a ha => ?_
    obtain ⟨s, hs, rfl⟩ := List.mem_map.1 ha
    exact (c.isPlainText_texts s hs).isArgument
  have hcolumn : stripQuotes (quoted c.column.toList) = c.column.toList :=
    stripQuotes_quotedBy rfl fun d hd => (c.column_plain.1 d hd).1
  have hsign : Operator.ofText (quoted c.sign.1.toList) = c.sign.2 :=
    (Operator.isNamedBy_iff fun d hd => (c.sign_plain.1 d hd).1).1 c.sign_named
  have hvalue : stripQuotes (quoted c.value.toList) = c.value.toList :=
    stripQuotes_quotedBy rfl fun d hd => (c.value_plain.1 d hd).1
  have hne : c.column.toList ≠ [] := by simpa using c.column_ne
  rw [Condition.ofArgs?, hargs]
  simp [texts, Condition.ofParts?, hcolumn, hsign, hvalue, hne, condition]

end Clause

theorem RelationName.isPlainText (n : RelationName) : IsPlainText n.text.toList ∧ n.text.toList ≠ [] := by
  obtain ⟨text, h⟩ := n
  cases htext : text.toList with
  | nil => rw [htext] at h; exact h.elim
  | cons c s =>
    rw [htext] at h
    have hchar : ∀ d ∈ c :: s, isQuote d = false ∧ d ≠ '\\' ∧ isParen d = false ∧ d ≠ ',' := by
      intro d hd
      rcases IsRelationName.isWord_or_dot h d hd with hd | rfl
      · obtain ⟨-, hquote, hmarks⟩ := ascii_word hd
        simp only [List.mem_cons, List.not_mem_nil, or_false, not_or] at hmarks
        simp [hquote, isParen, hmarks]
      · decide
    exact ⟨⟨fun d hd => ⟨(hchar d hd).1, (hchar d hd).2.1, (hchar d hd).2.2.1⟩,
      hasDecimalComma_of_not_mem fun hd => (hchar _ hd).2.2.2 rfl⟩, List.cons_ne_nil c s⟩

/-- **Written names are read back.** -/
theorem namedPaths_joined {gap : List Char} (hgap : ∀ c ∈ gap, isBlank c = true) (names : List RelationName) :
    namedPaths (joined gap (names.map fun n => quoted n.text.toList)) = names.map RelationName.path := by
  have hquote : ∀ c ∈ gap, isQuote c = false := fun c hc => by
    have h := isMark_of_isBlank (hgap c hc)
    simp only [isMark, Bool.or_eq_false_iff] at h
    exact h.1.1.2
  have hnames : ∀ s ∈ names.map fun n => n.text.toList, '\'' ∉ s ∧ s ≠ [] := by
    intro s hs
    obtain ⟨n, -, rfl⟩ := List.mem_map.1 hs
    obtain ⟨hplain, hne⟩ := n.isPlainText
    exact ⟨fun hc => absurd (hplain.1 _ hc).1 (by decide), hne⟩
  have h := quotedNames_joined hquote hnames
  rw [List.map_map] at h
  rw [namedPaths, show (fun n : RelationName => quoted n.text.toList) = quoted ∘ fun n => n.text.toList from rfl, h,
    List.map_map]
  exact List.map_congr_left fun n _ => by simp [RelationName.path]

/-! ## Selections -/

/-- A selection as it is written: a first clause, others behind arrows, and perhaps names of relations. White space
may stand behind the commas. -/
structure Selection where
  model : String
  gap : List Char := []
  clause : Clause
  clauses : List (Arrow × Clause) := []
  relations : Option (Arrow × List RelationName) := none
  model_word : IsAsciiWord model.toList := by decide
  gap_blank : ∀ c ∈ gap, isBlank c = true := by decide

namespace Selection

variable (s : Selection)

/-- The conditions of a selection. -/
def conditions : List Condition := s.clause.condition :: s.clauses.map fun c => c.2.condition

/-- The paths of the relations of a selection. -/
def paths : List RelationPath := s.relations.elim [] fun r => r.2.map RelationName.path

/-- The call of the first clause. -/
def firstCall : Call := Call.first s.model "where" (s.clause.args s.gap)

/-- The calls of the other clauses. -/
def whereCalls : List Call := s.clauses.map fun c => Call.next c.1 "where" (c.2.args s.gap)

/-- The arguments of a call for relations. -/
def nameArgs (names : List RelationName) : List Char := joined s.gap (names.map fun n => quoted n.text.toList)

/-- The call for relations, if there are any. -/
def withCalls : List Call := s.relations.toList.map fun r => Call.next r.1 "with" (s.nameArgs r.2)

/-- The text of a selection that ends with a call. -/
def text (a : Arrow) (name : String) : List Char :=
  written (s.firstCall :: (s.whereCalls ++ s.withCalls ++ [Call.next a name []]))

theorem parenFree_nameArgs (names : List RelationName) :
    ParenFree (s.nameArgs names) ∧ hasDecimalComma (s.nameArgs names) = false := by
  have hplain : ∀ t ∈ names.map fun n => n.text.toList, IsPlainText t := by
    intro t ht
    obtain ⟨n, -, rfl⟩ := List.mem_map.1 ht
    exact n.isPlainText.1
  have h := parenFree_joined s.gap_blank hplain
  rwa [List.map_map] at h

theorem parenFree_args (c : Clause) : ParenFree (c.args s.gap) ∧ hasDecimalComma (c.args s.gap) = false :=
  parenFree_joined s.gap_blank c.isPlainText_texts

theorem isPlain_firstCall : s.firstCall.IsPlain :=
  Call.isPlain_first s.model_word (by decide) (s.parenFree_args s.clause).1 (s.parenFree_args s.clause).2

theorem isPlain_whereCalls : ∀ c ∈ s.whereCalls, c.IsPlain ∧ c.name = "where" ∧ ∃ a : Arrow, c.lead = a.text := by
  intro c hc
  obtain ⟨⟨a, clause⟩, -, rfl⟩ := List.mem_map.1 hc
  exact ⟨Call.isPlain_next a (by decide) (s.parenFree_args clause).1 (s.parenFree_args clause).2, rfl, a, rfl⟩

theorem isPlain_withCalls : ∀ c ∈ s.withCalls, c.IsPlain ∧ c.name = "with" ∧ ∃ a : Arrow, c.lead = a.text := by
  intro c hc
  obtain ⟨⟨a, names⟩, -, rfl⟩ := List.mem_map.1 hc
  exact ⟨Call.isPlain_next a (by decide) (s.parenFree_nameArgs names).1 (s.parenFree_nameArgs names).2, rfl, a, rfl⟩

variable {a : Arrow} {name : String}

/-- The first call follows the model, the others follow arrows. -/
theorem call_cases {c : Call} (h : c ∈ s.firstCall :: (s.whereCalls ++ s.withCalls ++ [Call.next a name []])) :
    (c.name = "where" ∧ c.lead = s.model.toList ++ "::".toList) ∨ (∃ a : Arrow, c.lead = a.text) ∧
      (c.name = "where" ∧ s.clauses ≠ [] ∨ c.name = "with" ∧ s.relations ≠ none ∨ c.name = name) := by
  simp only [List.mem_cons, List.mem_append, List.not_mem_nil, or_false] at h
  rcases h with rfl | (hc | hc) | rfl
  · exact Or.inl ⟨rfl, rfl⟩
  · refine Or.inr ⟨(s.isPlain_whereCalls c hc).2.2, Or.inl ⟨(s.isPlain_whereCalls c hc).2.1, fun hnil => ?_⟩⟩
    simp [whereCalls, hnil] at hc
  · refine Or.inr ⟨(s.isPlain_withCalls c hc).2.2, Or.inr (Or.inl ⟨(s.isPlain_withCalls c hc).2.1, fun hnone => ?_⟩)⟩
    simp [withCalls, hnone] at hc
  · exact Or.inr ⟨⟨a, rfl⟩, Or.inr (Or.inr rfl)⟩

theorem isPlain_calls (hname : name ∈ methods) :
    ∀ c ∈ s.firstCall :: (s.whereCalls ++ s.withCalls ++ [Call.next a name []]), c.IsPlain := by
  intro c hc
  simp only [List.mem_cons, List.mem_append, List.not_mem_nil, or_false] at hc
  rcases hc with rfl | (hc | hc) | rfl
  · exact s.isPlain_firstCall
  · exact (s.isPlain_whereCalls c hc).1
  · exact (s.isPlain_withCalls c hc).1
  · exact Call.isPlain_last a hname

theorem prepare_text (hname : name ∈ methods) : prepare (s.text a name) = s.text a name :=
  prepare_written s.model_word _ (s.isPlain_calls hname)

/-! ### Shapes that a selection does not have -/

/-- The call of the model is no other one. -/
theorem search_eq_none_of_firstCall {m : String} {ps : List Pattern} (hname : name ∈ methods)
    (hps : Shape.firstCall m ∈ ps) (hm : m ∈ methods) (hne : m ≠ "where") :
    (chain ps).search (s.text a name) = none := by
  refine Query.search_eq_none_of_firstCall (fun w hw => opens_firstCall hps hw) hm (s.isPlain_calls hname)
    fun c hc hcm => ?_
  rcases s.call_cases hc with ⟨hwhere, -⟩ | ⟨⟨a', hlead⟩, -⟩
  · exact absurd (hcm.symm.trans hwhere) hne
  · rw [hlead]
    exact a'.not_colons_suffix

/-- No arrow leads to a call that is not there. -/
theorem search_eq_none_of_nextCall {m : String} {r : Pattern} (hname : name ∈ methods)
    (hr : ∀ w, Spells r w → ∃ a : Arrow, Opens (a.tip ++ m.toList) w) (hm : m ∈ methods) (hne : m ≠ name)
    (hwhere : m = "where" → s.clauses = []) (hwith : m = "with" → s.relations = none) :
    r.search (s.text a name) = none := by
  refine Query.search_eq_none_of_nextCall hr hm (s.isPlain_calls hname) fun c hc hcm => ?_
  rcases s.call_cases hc with ⟨-, hlead⟩ | ⟨-, ⟨hcall, hclauses⟩ | ⟨hcall, hrelations⟩ | hcall⟩
  · exact ⟨_, hlead⟩
  · exact absurd (hwhere (hcm.symm.trans hcall)) hclauses
  · exact absurd (hwith (hcm.symm.trans hcall)) hrelations
  · exact absurd (hcm.symm.trans hcall) hne

theorem search_create (hname : name ∈ methods) : Shape.create.pattern.search (s.text a name) = none :=
  s.search_eq_none_of_firstCall (m := "create") hname (by simp) (by decide) (by decide)

theorem search_all (hname : name ∈ methods) : Shape.all.pattern.search (s.text a name) = none :=
  s.search_eq_none_of_firstCall (m := "all") hname (by simp) (by decide) (by decide)

theorem search_closureWith (hname : name ∈ methods) : Shape.closureWith.pattern.search (s.text a name) = none :=
  s.search_eq_none_of_firstCall (m := "with") hname (by simp) (by decide) (by decide)

theorem search_multiWhere (hname : name ∈ methods) (hne : "where" ≠ name) (h : s.clauses = []) :
    Shape.multiWhere.pattern.search (s.text a name) = none := by
  refine s.search_eq_none_of_nextCall (m := "where") hname (fun w hw => ?_) (by decide) hne (fun _ => h) (by simp)
  obtain ⟨u, hu, hmany⟩ := exists_infix_of_spells_chain (a := many1 (chain [nextCall "where", arguments])) (by simp) hw
  obtain ⟨v, hv, hcall⟩ := spells_many1 hmany
  obtain ⟨a', ha'⟩ := opens_nextCall (m := "where") (by simp) hcall
  exact ⟨a', ha'.mono (hv.trans hu)⟩

theorem search_whereWith (hname : name ∈ methods) (hne : "with" ≠ name) (h : s.relations = none) :
    Shape.whereWith.pattern.search (s.text a name) = none :=
  s.search_eq_none_of_nextCall (m := "with") hname (fun _ hw => opens_nextCall (by simp) hw) (by decide) hne (by simp)
    fun _ => h

theorem search_whereGet (hname : name ∈ methods) (hne : "get" ≠ name) :
    Shape.whereGet.pattern.search (s.text a name) = none :=
  s.search_eq_none_of_nextCall (m := "get") hname (fun _ hw => opens_nextCall (by simp) hw) (by decide) hne (by simp)
    (by simp)

/-! ### The shapes of selections -/

/-- A call that an arrow leads to. -/
theorem takes_call (a : Arrow) {m : String} (hm : m ∈ methods) {args : List Char} (hargs : ParenFree args)
    {b : Option Char} {rest : List Char} :
    Takes (chain [nextCall m, arguments]) b (Call.next a m args).text rest [] := by
  have h : Takes (chain [nextCall m, arguments]) b _ rest _ :=
    (takes_nextCall a hm).chain_cons <| (takes_arguments hargs).chain_cons takes_chain_nil
  simpa [Call.text, Call.link, Call.next] using h

/-- The call that ends a selection. -/
theorem takes_last (hname : name ∈ methods) {b : Option Char} :
    Takes (chain [nextCall name, close]) b (Call.next a name []).text [] [] := by
  have h : Takes (chain [nextCall name, close]) b _ [] _ :=
    (takes_nextCall a hname).chain_cons <| takes_close.chain_cons takes_chain_nil
  simpa [Call.text, Call.link, Call.next] using h

/-- One condition and no relations. -/
theorem search_one (hname : name ∈ methods) (hclauses : s.clauses = []) (hrelations : s.relations = none) :
    ∃ m, (chain [Shape.model, Shape.firstCall "where", argumentGroup 2, nextCall name, close]).search (s.text a name) =
        some m ∧ m.group 1 = s.model.toList ∧ m.group 2 = s.clause.args s.gap := by
  have htakes :
      Takes (chain [Shape.model, Shape.firstCall "where", argumentGroup 2, nextCall name, close]) none _ [] _ :=
    (takes_model s.model_word (by rfl)).chain_cons <| (takes_firstCall "where").chain_cons <|
      (takes_argumentGroup (s.parenFree_args s.clause).1 2).chain_cons <| takes_last (a := a) hname
  obtain ⟨m, hm, htexts⟩ := search_of_takes htakes
  refine ⟨m, ?_, by rw [m.group_eq, htexts]; rfl, by rw [m.group_eq, htexts]; rfl⟩
  simpa [text, written, firstCall, whereCalls, withCalls, hclauses, hrelations, Call.text, Call.link, Call.first]
    using hm

theorem recognize_whereGet (hclauses : s.clauses = []) (hrelations : s.relations = none) :
    ∃ m, Shape.recognize? (s.text a "get") = some (.whereGet, m) ∧ m.group 1 = s.model.toList ∧
      m.group 2 = s.clause.args s.gap := by
  have hget : "get" ∈ methods := by decide
  obtain ⟨m, hm, hgroups⟩ := s.search_one (a := a) hget hclauses hrelations
  refine ⟨m, ?_, hgroups⟩
  simp [Shape.recognize?, Shape.inOrder, s.search_create hget, s.search_all hget, s.search_closureWith hget,
    s.search_multiWhere hget (by decide) hclauses, s.search_whereWith hget (by decide) hrelations,
    show Shape.whereGet.pattern.search (s.text a "get") = some m from hm]

theorem recognize_whereFirst (hclauses : s.clauses = []) (hrelations : s.relations = none) :
    ∃ m, Shape.recognize? (s.text a "first") = some (.whereFirst, m) ∧ m.group 1 = s.model.toList ∧
      m.group 2 = s.clause.args s.gap := by
  have hfirst : "first" ∈ methods := by decide
  obtain ⟨m, hm, hgroups⟩ := s.search_one (a := a) hfirst hclauses hrelations
  refine ⟨m, ?_, hgroups⟩
  simp [Shape.recognize?, Shape.inOrder, s.search_create hfirst, s.search_all hfirst, s.search_closureWith hfirst,
    s.search_multiWhere hfirst (by decide) hclauses, s.search_whereWith hfirst (by decide) hrelations,
    s.search_whereGet hfirst (by decide), show Shape.whereFirst.pattern.search (s.text a "first") = some m from hm]

/-- One condition and relations. -/
theorem recognize_whereWith (hclauses : s.clauses = []) {r : Arrow × List RelationName}
    (hrelations : s.relations = some r) :
    ∃ m, Shape.recognize? (s.text a "get") = some (.whereWith, m) ∧ m.group 1 = s.model.toList ∧
      m.group 2 = s.clause.args s.gap ∧ m.group 3 = s.nameArgs r.2 := by
  have htakes : Takes Shape.whereWith.pattern none _ [] _ :=
    (takes_model s.model_word (by rfl)).chain_cons <| (takes_firstCall "where").chain_cons <|
      (takes_argumentGroup (s.parenFree_args s.clause).1 2).chain_cons <|
      (takes_nextCall r.1 (by decide)).chain_cons <|
      (takes_argumentGroup (s.parenFree_nameArgs r.2).1 3).chain_cons <| takes_last (a := a) (by decide)
  obtain ⟨m, hm, htexts⟩ := search_of_takes htakes
  have hsearch : Shape.whereWith.pattern.search (s.text a "get") = some m := by
    simpa [text, written, firstCall, whereCalls, withCalls, hclauses, hrelations, Call.text, Call.link, Call.first,
      Call.next] using hm
  refine ⟨m, ?_, by rw [m.group_eq, htexts]; rfl, by rw [m.group_eq, htexts]; rfl, by rw [m.group_eq, htexts]; rfl⟩
  have hget : "get" ∈ methods := by decide
  simp [Shape.recognize?, Shape.inOrder, s.search_create hget, s.search_all hget, s.search_closureWith hget,
    s.search_multiWhere hget (by decide) hclauses, hsearch]

/-- A call is not the beginning of one of another name. -/
theorem fails_nextCall {c : Call} (hc : c.IsPlain) {m : String} (hm : m ∈ methods) (hne : c.name ≠ m)
    {b : Option Char} {rest : List Char} (ps : List Pattern) :
    Fails (chain (nextCall m :: ps)) ⟨b, c.text ++ rest⟩ := by
  have hlink : ¬ ∃ a : Arrow, c.link = a.text ++ m.toList := by
    rintro ⟨a, ha⟩
    have hsuffix : a.text ++ m.toList <:+ c.link := ha ▸ List.suffix_refl c.link
    exact hne (hc.name_eq hm hsuffix).1
  have h := (opening_nextCall m (parenFree_method hm) ps).fails (b := b) hc.link hlink (c.args ++ ')' :: rest)
  simpa [Call.text] using h

/-- Calls of one name, in front of a call of another name. -/
theorem takes_calls {m : String} (hm : m ∈ methods) {calls : List Call}
    (hcalls : ∀ d ∈ calls, ∃ a args, d = Call.next a m args ∧ ParenFree args) {c : Call} (hc : c.IsPlain)
    (hne : c.name ≠ m) {b : Option Char} {rest : List Char} :
    Takes (many (chain [nextCall m, arguments])) b (written calls) (c.text ++ rest) [] := by
  induction calls generalizing b with
  | nil => exact takes_many_nil (fails_nextCall hc hm hne _)
  | cons d calls ih =>
    obtain ⟨a, args, rfl, hargs⟩ := hcalls d (by simp)
    rw [written_cons]
    exact (takes_call a hm hargs).many_cons (by simp [Call.text]) (ih fun e he => hcalls e (List.mem_cons_of_mem _ he))

/-- The calls of the other clauses. -/
theorem takes_whereCalls (hclauses : s.clauses ≠ []) {c : Call} (hc : c.IsPlain) (hne : c.name ≠ "where")
    {b : Option Char} {rest : List Char} :
    Takes (many1 (chain [nextCall "where", arguments])) b (written s.whereCalls) (c.text ++ rest) [] := by
  have hcalls : ∀ d ∈ s.whereCalls, ∃ a args, d = Call.next a "where" args ∧ ParenFree args := by
    intro d hd
    obtain ⟨⟨a, clause⟩, -, rfl⟩ := List.mem_map.1 hd
    exact ⟨a, _, rfl, (s.parenFree_args clause).1⟩
  have hnil : s.whereCalls ≠ [] := by simpa [whereCalls] using hclauses
  obtain ⟨d, calls, hcons⟩ := List.exists_cons_of_ne_nil hnil
  rw [hcons] at hcalls ⊢
  obtain ⟨a, args, rfl, hargs⟩ := hcalls d (by simp)
  rw [written_cons]
  exact (takes_call a (by decide) hargs).seq
    (takes_calls (by decide) (fun e he => hcalls e (List.mem_cons_of_mem _ he)) hc hne)

/-- The call for relations, if there is one. -/
theorem takes_withCalls {b : Option Char} :
    Takes (opt (chain [nextCall "with", arguments])) b (written s.withCalls) ((Call.next a "get" []).text ++ [])
      [] := by
  cases hrelations : s.relations with
  | none =>
    have hnil : s.withCalls = [] := by simp [withCalls, hrelations]
    rw [hnil]
    exact takes_opt_nil (fails_nextCall (Call.isPlain_last a (by decide)) (by decide) (by simp [Call.next]) _)
  | some r =>
    have hone : written s.withCalls = (Call.next r.1 "with" (s.nameArgs r.2)).text := by
      simp [withCalls, hrelations, written]
    rw [hone]
    exact (takes_call r.1 (by decide) (s.parenFree_nameArgs r.2).1).opt

/-- Two conditions or more. -/
theorem recognize_multiWhere (hclauses : s.clauses ≠ []) :
    ∃ m, Shape.recognize? (s.text a "get") = some (.multiWhere, m) ∧ m.group 1 = s.model.toList := by
  have hget : "get" ∈ methods := by decide
  have hwheres : ∀ b, Takes (many1 (chain [nextCall "where", arguments])) b (written s.whereCalls)
      (written s.withCalls ++ (Call.next a "get" []).text ++ []) [] := by
    intro b
    cases hcalls : s.withCalls with
    | nil => exact s.takes_whereCalls hclauses (Call.isPlain_last a hget) (by simp [Call.next])
    | cons c calls =>
      have hc := s.isPlain_withCalls c (by simp [hcalls])
      rw [written_cons, List.append_assoc, List.append_assoc]
      exact s.takes_whereCalls hclauses hc.1 (by simp [hc.2.1])
  have htakes : Takes Shape.multiWhere.pattern none _ [] _ :=
    (takes_model s.model_word (by rfl)).chain_cons <| (takes_firstCall "where").chain_cons <|
      (takes_arguments (s.parenFree_args s.clause).1).chain_cons <| (hwheres _).chain_cons <|
      s.takes_withCalls.chain_cons <| takes_last hget
  obtain ⟨m, hm, htexts⟩ := search_of_takes htakes
  have hsearch : Shape.multiWhere.pattern.search (s.text a "get") = some m := by
    simpa [text, written, firstCall, Call.text, Call.link, Call.first, Call.next] using hm
  refine ⟨m, ?_, by rw [m.group_eq, htexts]; rfl⟩
  simp [Shape.recognize?, Shape.inOrder, s.search_create hget, s.search_all hget, s.search_closureWith hget, hsearch]

/-! ### What is read from a selection -/

theorem isPlain_clauseCalls : ∀ c ∈ s.firstCall :: s.whereCalls, c.IsPlain ∧ c.name = "where" := by
  intro c hc
  rcases List.mem_cons.1 hc with rfl | hc
  · exact ⟨s.isPlain_firstCall, rfl⟩
  · exact ⟨(s.isPlain_whereCalls c hc).1, (s.isPlain_whereCalls c hc).2.1⟩

/-- The clauses of a selection, one after another. -/
theorem whereArgs_text (hname : name ∈ methods) (hne : name ≠ "where") :
    whereArgs (s.text a name) = (s.clause :: s.clauses.map Prod.snd).map fun c => c.args s.gap := by
  have hedge : ∀ c ∈ s.firstCall :: s.whereCalls, ∃ d, c.lead.getLast? = some d ∧ isWord d = false := by
    intro c hc
    rcases List.mem_cons.1 hc with rfl | hc
    · exact ⟨':', by simp [firstCall, Call.first], by decide⟩
    · obtain ⟨a', hlead⟩ := (s.isPlain_whereCalls c hc).2.2
      rw [hlead]
      exact a'.edge
  have hrest : ¬ Opens "where".toList (written (s.withCalls ++ [Call.next a name []])) := by
    intro hopens
    have hplain : ∀ c ∈ s.withCalls ++ [Call.next a name []], c.IsPlain ∧ c.name ≠ "where" := by
      intro c hc
      rcases List.mem_append.1 hc with hc | hc
      · exact ⟨(s.isPlain_withCalls c hc).1, by simp [(s.isPlain_withCalls c hc).2.1]⟩
      · rw [List.mem_singleton.1 hc]
        exact ⟨Call.isPlain_last a hname, hne⟩
    obtain ⟨c, hc, hwhere, -⟩ := call_of_opens (m := "where") (l := []) (fun c hc => (hplain c hc).1) (by decide)
      (by decide) hopens
    exact (hplain c hc).2 hwhere
  have htext : s.text a name =
      written (s.firstCall :: s.whereCalls) ++ written (s.withCalls ++ [Call.next a name []]) := by
    rw [text, ← written_append]
    simp
  rw [htext, whereArgs_written s.isPlain_clauseCalls hedge hrest]
  simp [firstCall, whereCalls, Call.first, Call.next]

/-- The names of a selection. -/
theorem search_withCall_text (hname : name ∈ methods) (hne : "with" ≠ name) :
    (withCall.search (s.text a name)).map (·.group 1) = s.relations.map fun r => s.nameArgs r.2 := by
  cases hrelations : s.relations with
  | none =>
    rw [s.search_eq_none_of_nextCall (m := "with") hname (fun w hw => ?_) (by decide) hne (by simp) fun _ => hrelations]
    · rfl
    · obtain ⟨x, y, rfl, -, a', rfl⟩ := opening_withCall w hw
      exact ⟨a', [], y, by simp⟩
  | some r =>
    have htext : s.text a name = written (s.firstCall :: s.whereCalls) ++
        ((Call.next r.1 "with" (s.nameArgs r.2)).text ++ (Call.next a name []).text) := by
      simp [text, withCalls, hrelations, written]
    rw [htext, search_withCall s.isPlain_clauseCalls r.1 (s.parenFree_nameArgs r.2).1]
    rfl

end Selection

end Query

namespace Interpreter

variable (i : Interpreter)

theorem conditions?_args {gap : List Char} (hgap : ∀ c ∈ gap, isBlank c = true) (cs : List Query.Clause) :
    conditions? (cs.map fun c => c.args gap) = some (cs.map Query.Clause.condition) := by
  induction cs with
  | nil => rfl
  | cons c cs ih =>
    rw [conditions?] at ih ⊢
    rw [List.map_cons, List.mapM_cons, c.ofArgs?_args hgap, ih]
    rfl

/-- Rows without relations are as they are. -/
theorem attachAll_nil (table : String) (data : Dataset) (rows : List Row) : i.attachAll [] table data rows = rows := by
  have hid : i.naming.attach data (RelationNode.ofPaths []) table = id := by
    funext row
    rw [RelationNode.ofPaths, List.foldl_nil, Naming.attach]
    rfl
  rw [attachAll, hid, List.map_id]

variable (s : Query.Selection) (a : Query.Arrow) (data : Dataset)

theorem interpret_whereGet (hclauses : s.clauses = []) (hrelations : s.relations = none) :
    i.interpret (String.ofList (s.text a "get")) data =
      .rows ((data.rows (i.naming.tableOf s.model)).filter (Condition.allHold [s.clause.condition])) := by
  obtain ⟨m, hm, hmodel, hclause⟩ := s.recognize_whereGet (a := a) hclauses hrelations
  rw [i.interpret_ofList (s.prepare_text (by decide)) hm]
  simp only [dispatch, hmodel, hclause, s.clause.ofArgs?_args s.gap_blank, String.ofList_toList]
  rfl

theorem interpret_whereFirst (hclauses : s.clauses = []) (hrelations : s.relations = none) :
    i.interpret (String.ofList (s.text a "first")) data =
      .single ((data.rows (i.naming.tableOf s.model)).find? (Condition.allHold [s.clause.condition])) := by
  obtain ⟨m, hm, hmodel, hclause⟩ := s.recognize_whereFirst (a := a) hclauses hrelations
  have hall : Condition.allHold [s.clause.condition] = s.clause.condition.holds := by
    funext row
    simp [Condition.allHold]
  rw [i.interpret_ofList (s.prepare_text (by decide)) hm, hall]
  simp only [dispatch, hmodel, hclause, s.clause.ofArgs?_args s.gap_blank, String.ofList_toList]

theorem interpret_whereWith (hclauses : s.clauses = []) {r : Query.Arrow × List Query.RelationName}
    (hrelations : s.relations = some r) :
    i.interpret (String.ofList (s.text a "get")) data =
      .rows (i.attachAll (r.2.map Query.RelationName.path) (i.naming.tableOf s.model) data
        ((data.rows (i.naming.tableOf s.model)).filter (Condition.allHold [s.clause.condition]))) := by
  obtain ⟨m, hm, hmodel, hclause, hnames⟩ := s.recognize_whereWith (a := a) hclauses hrelations
  rw [i.interpret_ofList (s.prepare_text (by decide)) hm]
  simp only [dispatch, hmodel, hclause, s.clause.ofArgs?_args s.gap_blank, hnames, String.ofList_toList, selectWith]
  rw [Query.Selection.nameArgs, Query.namedPaths_joined s.gap_blank]
  rfl

theorem interpret_multiWhere (hclauses : s.clauses ≠ []) :
    i.interpret (String.ofList (s.text a "get")) data =
      .rows (i.attachAll s.paths (i.naming.tableOf s.model) data
        ((data.rows (i.naming.tableOf s.model)).filter (Condition.allHold s.conditions))) := by
  have hget : "get" ∈ Query.methods := by decide
  have hconditions : (s.clause :: s.clauses.map Prod.snd).map Query.Clause.condition = s.conditions := by
    simp [Query.Selection.conditions]
  obtain ⟨m, hm, hmodel⟩ := s.recognize_multiWhere (a := a) hclauses
  rw [i.interpret_ofList (s.prepare_text hget) hm]
  simp only [dispatch, hmodel, s.whereArgs_text hget (by decide), conditions?_args s.gap_blank, hconditions,
    s.search_withCall_text hget (by decide), String.ofList_toList, selectWith, Query.Selection.paths]
  cases s.relations with
  | none =>
    rw [Option.map_none, Option.elim_none, attachAll_nil]
    rfl
  | some r =>
    rw [Option.map_some, Option.elim_some, Query.Selection.nameArgs]
    dsimp only
    rw [Query.namedPaths_joined s.gap_blank]
    rfl

/-- **A selection is answered by the rows that meet every condition**, in the order of the table and with the
relations attached; a selection of one condition, without relations, for the first row is answered by the first. -/
theorem interpret_selection (data : Dataset) :
    i.interpret (String.ofList (s.text a "get")) data =
        .rows (i.attachAll s.paths (i.naming.tableOf s.model) data
          ((data.rows (i.naming.tableOf s.model)).filter (Condition.allHold s.conditions))) ∧
      (s.clauses = [] → s.relations = none → i.interpret (String.ofList (s.text a "first")) data =
        .single ((data.rows (i.naming.tableOf s.model)).find? (Condition.allHold s.conditions))) := by
  have hone : s.clauses = [] → s.conditions = [s.clause.condition] := fun h => by
    simp [Query.Selection.conditions, h]
  constructor
  · by_cases hclauses : s.clauses = []
    · rw [hone hclauses]
      cases hrelations : s.relations with
      | none =>
        have hpaths : s.paths = [] := by simp [Query.Selection.paths, hrelations]
        rw [hpaths, attachAll_nil]
        exact i.interpret_whereGet s a data hclauses hrelations
      | some r =>
        have hpaths : s.paths = r.2.map Query.RelationName.path := by simp [Query.Selection.paths, hrelations]
        rw [hpaths]
        exact i.interpret_whereWith s a data hclauses hrelations
    · exact i.interpret_multiWhere s a data hclauses
  · intro hclauses hrelations
    rw [hone hclauses]
    exact i.interpret_whereFirst s a data hclauses hrelations

/-- Commas, brackets, arrows and names of calls within a value are nothing but text. -/
theorem interpret_selection_products :
    let i : Interpreter := ⟨.extend .empty .empty, "<now>"⟩
    let product (id : Int64) (name : String) (price : Int64) : Row :=
      ⟨[("id", .int id), ("name", .text name), ("price", .int price), ("brand_id", .int 1)]⟩
    let brand : Row := ⟨[("id", .int 1)]⟩
    let data : Dataset := ⟨⟨[("brands", [brand]),
      ("products", [product 1 "->get, [b" 3, product 2 "->get, [b" 5, product 3 "c" 5])]⟩⟩
    let named : Query.Clause := { column := "name", sign := ("==", .eq), value := "->get, [b" }
    let dear : Query.Clause := { column := "price", sign := (">", .gt), value := "3" }
    let both : Query.Selection :=
      { model := "Product", clause := named, clauses := [({ before := ['\n'], after := [' '] }, dear)],
        relations := some ({}, [{ text := "brand" }]) }
    let one : Query.Selection := { model := "Product", clause := named }
    i.interpret (String.ofList (both.text {} "get")) data =
        .rows [(product 2 "->get, [b" 5).insert "brand" (.record brand)] ∧
      i.interpret (String.ofList (one.text {} "first")) data = .single (some (product 1 "->get, [b" 3)) := by
  intro i product brand data named dear both one
  exact ⟨(i.interpret_selection both {} data).1.trans (by decide +kernel),
    ((i.interpret_selection one {} data).2 rfl rfl).trans (by decide +kernel)⟩

end Interpreter

end FluentTables
