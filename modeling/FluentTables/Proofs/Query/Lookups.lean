import FluentTables.Proofs.Decimal.Integers
import FluentTables.Proofs.Query.Calls

/-!
# Lookups as they are written

`Model::all()` and `Model::find(n)` are one call each. Its opening bracket is the only one, so no shape with another
call of a model occurs (`search_eq_none_of_single`), and the two are answered by the rows of the table (`interpret_all`)
and by the first row whose id has the text of the number (`interpret_find`).
-/

namespace FluentTables

/-- `Model::all()`. -/
def Query.listing (model : String) : String := model ++ "::all()"

/-- `Model::find(n)`. -/
def Query.lookup (model : String) (n : Nat) : String := model ++ "::find(" ++ toString n ++ ")"

namespace Query

open Pattern Text Shape

variable {model name m : String} {args : List Char} {ps : List Pattern}

/-- The names of calls that a model has. -/
def modelMethods : List String := ["create", "all", "with", "where", "find"]

/-- A single call of a model has no other one in it. -/
theorem search_eq_none_of_single (hmodel : IsAsciiWord model.toList) (hargs : ParenFree args)
    (hname : name ∈ modelMethods) (hm : m ∈ modelMethods) (hne : m ≠ name) (hps : firstCall m ∈ ps) :
    (chain ps).search (Call.first model name args).text = none := by
  have hfree : ∀ m ∈ modelMethods, ParenFree ("::".toList ++ m.toList) := by decide
  have hsuffix : ∀ m ∈ modelMethods, ∀ n ∈ modelMethods,
      "::".toList ++ m.toList <:+ "::".toList ++ n.toList → m = n := by decide
  have hlink : (Call.first model name args).link = model.toList ++ ("::".toList ++ name.toList) :=
    List.append_assoc _ _ _
  refine search_eq_none_of_spells fun w hw hspells => ?_
  have hopens : Opens ("::".toList ++ m.toList) _ := (opens_firstCall hps hspells).mono hw
  rw [Call.text, hlink] at hopens
  rcases hopens.of_open (hfree m hm) ((parenFree_word hmodel).append (hfree name hname)) with hcall | harguments
  · rcases List.suffix_or_suffix_of_suffix hcall (List.suffix_append _ _) with h | h
    · exact hne (hsuffix m hm name hname h)
    · exact hne (hsuffix name hname m hm h).symm
  · rcases harguments.of_cons (v := []) (hfree m hm).not_mem.2 (by decide) with h | h
    · exact not_opens hargs h
    · exact not_opens (by decide) h

/-- A single call without commas is read as it stands. -/
theorem prepare_single (hmodel : IsAsciiWord model.toList) (hname : ',' ∉ name.toList) (hargs : ',' ∉ args) :
    trim (Call.first model name args).text = (Call.first model name args).text ∧
      prepare (Call.first model name args).text = (Call.first model name args).text := by
  have htext : (Call.first model name args).text =
      model.toList ++ (("::".toList ++ (name.toList ++ '(' :: args)) ++ [')']) := by
    simp [Call.text, Call.link, Call.first]
  have hcomma : ',' ∉ model.toList := fun h => (ascii_word (hmodel.2 _ h)).2.2 (by simp)
  have htrim : trim (Call.first model name args).text = (Call.first model name args).text := by
    rw [htext]
    exact trim_statement hmodel _
  refine ⟨htrim, prepare_eq_self htrim (hasDecimalComma_of_not_mem ?_)⟩
  rw [htext]
  simp [hcomma, hname, hargs]

/-! ## Shapes -/

theorem listing_eq (model : String) : (listing model).toList = (Call.first model "all" []).text := by
  simp [listing, Call.text, Call.link, Call.first]

theorem lookup_eq (model : String) (n : Nat) :
    (lookup model n).toList = (Call.first model "find" (toString n).toList).text := by
  simp [lookup, Call.text, Call.link, Call.first]

/-- A shape is recognized where none of those before it occurs. -/
theorem recognize?_eq_some {s : List Char} {shape : Shape} {found : Match}
    (hsearch : shape.pattern.search s = some found)
    (hbefore : ∀ k ∈ inOrder.takeWhile (· ≠ shape), k.pattern.search s = none) :
    recognize? s = some (shape, found) := by
  cases shape <;> simp [inOrder] at hbefore <;> simp [recognize?, inOrder, hsearch, hbefore]

/-- The shapes in front of `Model::find(n)` have other calls of the model. -/
theorem exists_firstCall {k : Shape} (hk : k ∈ inOrder.takeWhile (· ≠ Shape.find)) :
    ∃ m ∈ modelMethods, m ≠ "find" ∧ ∃ ps, k.pattern = chain ps ∧ firstCall m ∈ ps := by
  have hcases : k ∈ [Shape.create, .all, .closureWith, .multiWhere, .whereWith, .whereGet, .whereFirst] := hk
  simp only [List.mem_cons, List.not_mem_nil, or_false] at hcases
  rcases hcases with rfl | rfl | rfl | rfl | rfl | rfl | rfl <;>
    exact ⟨_, by decide, by decide, _, rfl, List.mem_cons_of_mem _ List.mem_cons_self⟩

theorem recognize_listing (hmodel : IsAsciiWord model.toList) :
    ∃ m, recognize? (listing model).toList = some (.all, m) ∧ m.group 1 = model.toList := by
  have htakes : Takes Shape.all.pattern none _ [] _ :=
    (takes_model hmodel (by rfl)).chain_cons <| (takes_firstCall "all").chain_cons <|
      takes_close.chain_cons takes_chain_nil
  obtain ⟨m, hm, htexts⟩ := search_of_takes htakes
  have hsearch : Shape.all.pattern.search (listing model).toList = some m := by
    simpa [listing] using hm
  refine ⟨m, recognize?_eq_some hsearch fun k hk => ?_, by rw [m.group_eq, htexts]; rfl⟩
  obtain rfl : k = .create := List.mem_singleton.1 hk
  rw [listing_eq]
  exact search_eq_none_of_single (m := "create") hmodel (by decide) (by decide) (by decide) (by decide) (by simp)

/-- A number is written in digits. -/
theorem digits_toString (n : Nat) :
    IsAsciiWord (toString n).toList ∧ ∀ c ∈ (toString n).toList, isDigit c = true := by
  have hdigits : (toString n).toList = Nat.toDigits 10 n := by
    rw [Nat.toString_eq_repr, Nat.repr_eq_ofList_toDigits, String.toList_ofList]
  have hdigit : ∀ c ∈ Nat.toDigits 10 n, c.isDigit = true := fun c hc =>
    Nat.isDigit_of_mem_toDigits (by decide) (by decide) hc
  rw [hdigits]
  refine ⟨⟨Nat.toDigits_ne_nil, fun c hc => ascii_word_of_isDigit (hdigit c hc)⟩, fun c hc => ?_⟩
  rw [isDigit, if_pos (ascii_word_of_isDigit (hdigit c hc)).1]
  exact hdigit c hc

theorem recognize_lookup (hmodel : IsAsciiWord model.toList) (n : Nat) :
    ∃ m, recognize? (lookup model n).toList = some (.find, m) ∧ m.group 1 = model.toList ∧
      m.group 2 = (toString n).toList := by
  obtain ⟨hword, hdigits⟩ := digits_toString n
  have hfree : ParenFree (toString n).toList := parenFree_word hword
  generalize hd : (toString n).toList = ds at hword hdigits hfree
  obtain ⟨d, ds, rfl⟩ := List.exists_cons_of_ne_nil hword.1
  obtain ⟨hblank, hquote, -⟩ := ascii_word (hword.2 d List.mem_cons_self)
  have htakes : Takes Shape.find.pattern none _ [] _ :=
    (takes_model hmodel (by rfl)).chain_cons <| (takes_firstCall "find").chain_cons <|
      (takes_blanks (w := []) (by simp) (by exact hblank)).chain_cons <|
      (takes_opt_nil (fails_one (by exact hquote))).chain_cons <|
      ((takes_some1 hword.1 hdigits (by rfl)).group 2).chain_cons <| (takes_opt_nil (fails_one (by rfl))).chain_cons <|
      takes_close.chain_cons takes_chain_nil
  obtain ⟨m, hm, htexts⟩ := search_of_takes htakes
  have htext : (lookup model n).toList = model.toList ++ ("::find(".toList ++ (d :: ds ++ [')'])) := by
    rw [lookup, String.toList_append, String.toList_append, String.toList_append, hd]
    simp
  have hsearch : Shape.find.pattern.search (lookup model n).toList = some m := by
    rw [htext]
    simpa using hm
  refine ⟨m, recognize?_eq_some hsearch fun k hk => ?_, by rw [m.group_eq, htexts]; rfl,
    by rw [m.group_eq, htexts]; rfl⟩
  obtain ⟨name, hname, hne, ps, hpattern, hps⟩ := exists_firstCall hk
  rw [lookup_eq, hd, hpattern]
  exact search_eq_none_of_single hmodel hfree (by decide) hname hne hps

end Query

/-! ## Answers -/

namespace Interpreter

open Text Query

variable (i : Interpreter) {model : String}

/-- **All rows of a table**, in their order. -/
theorem interpret_listing (hmodel : IsAsciiWord model.toList) (data : Dataset) :
    i.interpret (listing model) data = .rows (data.rows (i.naming.tableOf model)) := by
  obtain ⟨m, hm, hgroup⟩ := recognize_listing hmodel
  have hprepare : prepare (listing model).toList = (listing model).toList := by
    rw [listing_eq]
    exact (prepare_single hmodel (by decide) (by decide)).2
  simp only [interpret, hprepare, hm, dispatch, hgroup, String.ofList_toList]

/-- **The first row whose id has the text of a number.** -/
theorem interpret_lookup (hmodel : IsAsciiWord model.toList) (n : Nat) (data : Dataset) :
    i.interpret (lookup model n) data =
      .single ((data.rows (i.naming.tableOf model)).find? fun row => (row.get? "id").any (·.key == toString n)) := by
  obtain ⟨m, hm, hgroup, hnumber⟩ := recognize_lookup hmodel n
  have hcomma : ',' ∉ (toString n).toList := fun h => (ascii_word ((digits_toString n).1.2 _ h)).2.2 (by simp)
  have hprepare : prepare (lookup model n).toList = (lookup model n).toList := by
    rw [lookup_eq]
    exact (prepare_single hmodel (by decide) hcomma).2
  simp only [interpret, hprepare, hm, dispatch, hgroup, hnumber, String.ofList_toList]

end Interpreter

end FluentTables
