import FluentTables.Proofs.Query.Selections

/-!
# Values between quotes

What stands between the quotes of an argument reaches the condition, whatever it holds of commas, brackets and white
space. But the quotes are taken off as a run of quotes of both kinds, so a value loses the quotes of the other kind
that it begins or ends with (`stripQuotes_quotedBy_eq`); it arrives as it is iff it has none there
(`ofArgs?_quotedValue`).
-/

namespace FluentTables

open Text

namespace Condition

variable {gap column sign v : List Char} {operator : Operator} {q : Char}

/-- **What stands between quotes is the value of a condition**, but for quotes of the other kind at its two ends: it
arrives as it is iff there are none. -/
theorem ofArgs?_quotedValue (hgap : ∀ c ∈ gap, isBlank c = true) (hq : isQuote q = true) (hne : column ≠ [])
    (hcolumn : ∀ c ∈ column, isQuote c = false ∧ c ≠ '\\') (hsign : operator.IsSign sign)
    (hv : ∀ c ∈ v, c ≠ q ∧ c ≠ '\\') :
    ofArgs? (joined gap [quoted column, quoted sign, quotedBy q v]) =
        some ⟨String.ofList column, operator, .text (String.ofList (trimBy isQuote v))⟩ ∧
      ofArgs? (joined gap [quoted column, quotedBy q v]) =
        some ⟨String.ofList column, .eq, .text (String.ofList (trimBy isQuote v))⟩ ∧
      (trimBy isQuote v = v ↔ (∀ c ∈ v.head?, isQuote c = false) ∧ ∀ c ∈ v.getLast?, isQuote c = false) := by
  have hplain : ∀ {s : List Char}, (∀ c ∈ s, isQuote c = false ∧ c ≠ '\\') → ∀ c ∈ s, c ≠ '\'' ∧ c ≠ '\\' := by
    intro s hs c hc
    refine ⟨?_, (hs c hc).2⟩
    rintro rfl
    exact absurd (hs _ hc).1 (by decide)
  have hcolumnArg := argument_quotedBy rfl (hplain hcolumn)
  have hsignArg := argument_quotedBy rfl (hplain fun c hc => hsign.char hc)
  have hvalueArg := argument_quotedBy hq hv
  have hparts : ∀ o, ofParts? (quoted column) o (quotedBy q v) =
      some ⟨String.ofList column, o, .text (String.ofList (trimBy isQuote v))⟩ := by
    intro o
    have hname : stripQuotes (quoted column) = column := stripQuotes_quotedBy rfl fun c hc => (hcolumn c hc).1
    rw [ofParts?, hname, stripQuotes_quotedBy_eq hq]
    simp [hne]
  refine ⟨?_, ?_, trimBy_eq_self_iff⟩
  · rw [ofArgs?, splitArgs_joined hgap (by simpa using ⟨hcolumnArg, hsignArg, hvalueArg⟩)]
    dsimp only
    rw [hparts, Operator.ofText_of_isSign hsign]
  · rw [ofArgs?, splitArgs_joined hgap (by simpa using ⟨hcolumnArg, hvalueArg⟩)]
    dsimp only
    rw [hparts]

theorem ofArgs?_quotedValue_note :
    let column := "full name".toList
    let v := "it's [odd, ".toList
    ((∀ c ∈ [' '], isBlank c = true) ∧ isQuote '"' = true ∧ column ≠ [] ∧
        (∀ c ∈ column, isQuote c = false ∧ c ≠ '\\') ∧ Operator.like.IsSign "LIKE".toList ∧
        ∀ c ∈ v, c ≠ '"' ∧ c ≠ '\\') ∧
      ofArgs? (joined [' '] [quoted column, quoted "LIKE".toList, quotedBy '"' v]) =
        some ⟨"full name", .like, .text "it's [odd, "⟩ ∧
      ofArgs? (joined [' '] [quoted column, quotedBy '"' v]) = some ⟨"full name", .eq, .text "it's [odd, "⟩ := by
  intro column v
  have hgap : ∀ c ∈ [' '], isBlank c = true := by decide
  have hne : column ≠ [] := by decide
  have hcolumn : ∀ c ∈ column, isQuote c = false ∧ c ≠ '\\' := by decide
  have hsign : Operator.like.IsSign "LIKE".toList := Or.inr ⟨rfl, by decide⟩
  have hv : ∀ c ∈ v, c ≠ '"' ∧ c ≠ '\\' := by decide
  obtain ⟨hthree, htwo, -⟩ := ofArgs?_quotedValue hgap (q := '"') rfl hne hcolumn hsign hv
  have hends : trimBy isQuote v = v := by decide
  rw [hends, String.ofList_toList, String.ofList_toList] at hthree htwo
  exact ⟨⟨hgap, rfl, hne, hcolumn, hsign, hv⟩, hthree, htwo⟩

/-- A value loses the quotes of the other kind that it begins with. -/
theorem outer_quotes_lost :
    let v := "\"Ann\" Lee".toList
    (∀ c ∈ v, c ≠ '\'' ∧ c ≠ '\\') ∧ Operator.eq.IsSign "=".toList ∧
      ofArgs? (joined [' '] [quoted "name".toList, quoted "=".toList, quotedBy '\'' v]) =
        some ⟨"name", .eq, .text "Ann\" Lee"⟩ ∧
      ofArgs? (joined [' '] [quoted "name".toList, quoted "=".toList, quotedBy '\'' v]) ≠
        some ⟨"name", .eq, .text (String.ofList v)⟩ := by
  intro v
  have hread : ofArgs? (joined [' '] [quoted "name".toList, quoted "=".toList, quotedBy '\'' v]) =
      some ⟨"name", .eq, .text "Ann\" Lee"⟩ := by decide +kernel
  exact ⟨by decide, Or.inl (by decide), hread, by rw [hread]; decide⟩

end Condition

end FluentTables
