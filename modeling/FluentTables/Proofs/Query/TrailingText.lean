import Mathlib.Tactic.ByContra
import FluentTables.Proofs.Pattern.Locations
import FluentTables.Proofs.Pattern.LongerTexts
import FluentTables.Query.Interpret

/-!
# Text behind a statement

A shape answers from its groups (`dispatch_congr`). Only several conditions are read from the whole text again, calls
of `where` and `with` behind the statement included. So text behind a statement leaves the answer as it is as long as
no such call ends there (`interpret_append`).
-/

namespace FluentTables

open Pattern

namespace Query

/-- No call of `where`, and no first call of `with`, ends in the text `t` behind `s`. -/
structure CallsWithin (s t : List Char) : Prop where
  whereCalls : ∀ m ∈ whereCall.matchesIn (s ++ t), t.length ≤ m.stop.rest.length
  withCall : ∀ m, withCall.search (s ++ t) = some m → t.length ≤ m.stop.rest.length

theorem local_whereCall : Local whereCall := by
  refine Local.edge (local_of_looksAhead (by decide)) fun b => fails_of_spells fun w rest hempty hw => ?_
  obtain ⟨u, v, rfl, hu, -⟩ := spells_chain_cons.1 hw
  rw [spells_text] at hu
  rw [hu] at hempty
  cases hempty

theorem local_withCall : Local withCall := local_of_looksAhead (by decide)

variable {s t : List Char}

theorem CallsWithin.whereArgs_append (h : CallsWithin s t) : whereArgs (s ++ t) = whereArgs s := by
  have hgroups : ∀ u, whereArgs u = ((whereCall.matchesIn u).map Match.texts).map (textOf 1) := by
    intro u
    rw [List.map_map]
    exact List.map_congr_left fun m _ => m.group_eq 1
  rw [hgroups, hgroups, map_texts_matchesIn_append local_whereCall h.whereCalls]

theorem CallsWithin.withCall_append (h : CallsWithin s t) :
    (Query.withCall.search (s ++ t)).map (·.group 1) = (Query.withCall.search s).map (·.group 1) := by
  have hkept : Kept t (Query.withCall.search s) (Query.withCall.search (s ++ t)) :=
    local_withCall.searchAt ⟨Option.none, s⟩
  have hwithin := h.withCall
  generalize Query.withCall.search s = o at hkept ⊢
  generalize Query.withCall.search (s ++ t) = o' at hkept hwithin ⊢
  cases hkept with
  | none => rfl
  | found m =>
    rw [Option.map_some, Option.map_some, Match.group_eq, Match.texts_append, ← Match.group_eq]
  | beyond o hbeyond => exact absurd (hwithin _ rfl) (Nat.not_le_of_lt hbeyond)

/-- Where no bracket closes behind a statement, no call ends there. -/
theorem callsWithin_of_not_mem (ht : ')' ∉ t) : CallsWithin s t := by
  have hends : ∀ (ps : List Pattern) (m : Match), m ∈ (chain (ps ++ [Shape.argumentGroup 1])).matchesIn (s ++ t) →
      t.length ≤ m.stop.rest.length := by
    intro ps m hm
    obtain ⟨p, w, htext, hw⟩ := exists_spells_of_mem_matchesIn hm
    obtain ⟨u, v, rfl, hv⟩ := exists_suffix_of_spells_chain _ hw
    obtain ⟨v', c, rfl, hc⟩ := exists_suffix_of_spells_chain [group 1 (upTo ')')] hv
    obtain rfl := spells_char.1 hc
    -- A match that ended within `t` would have its bracket there.
    by_contra hbeyond
    have hsuffix : ')' :: m.stop.rest <:+ t := by
      refine List.suffix_of_suffix_length_le ⟨p ++ (u ++ v'), ?_⟩ (List.suffix_append s t) ?_
      · rw [htext]
        simp only [List.append_assoc, List.singleton_append]
      · rw [List.length_cons]
        omega
    exact ht (hsuffix.subset List.mem_cons_self)
  exact ⟨fun m hm => hends [wordEdge, text "where("] m hm,
    fun m hm => hends [text "->", blanks, text "with("] m (mem_matchesIn_of_search hm)⟩

end Query

namespace Interpreter

open Query

variable (i : Interpreter) {shape : Shape} {m m' : Match} {statement statement' : List Char} {data : Dataset}

/-- **A shape answers from its groups**; several conditions also from the calls in the text. Only a text that cannot be
read is repeated in the answer. -/
theorem dispatch_congr (hgroups : ∀ j, m'.group? j = m.group? j)
    (hargs : shape = .multiWhere → whereArgs statement' = whereArgs statement)
    (hrelations : shape = .multiWhere →
      (withCall.search statement').map (·.group 1) = (withCall.search statement).map (·.group 1))
    (hread : ∀ st, i.dispatch shape m statement data ≠ .status st) :
    i.dispatch shape m' statement' data = i.dispatch shape m statement data := by
  have hgroup : ∀ j, m'.group j = m.group j := fun j => congrArg (Option.getD · []) (hgroups j)
  cases shape
  case multiWhere =>
    simp only [dispatch, hgroup, hargs rfl, hrelations rfl] at hread ⊢
    split
    · rfl
    · next hbad =>
      rw [hbad] at hread
      exact absurd rfl (hread _)
  case whereWith | whereGet | whereFirst =>
    simp only [dispatch, hgroup] at hread ⊢
    split
    · rfl
    · next hbad =>
      rw [hbad] at hread
      exact absurd rfl (hread _)
  all_goals simp only [dispatch, hgroup]

/-- **Only the statement counts.** Text behind a statement, with which the same shape is found with the same groups,
leaves the rows or the new row of the answer as they are; behind several conditions, as long as no call of `where` or
`with` ends in it. -/
theorem interpret_append {s t : String} {found : Shape} (hs : prepare s.toList = s.toList)
    (ht : prepare (s ++ t).toList = (s ++ t).toList) (hfound : Shape.recognize? s.toList = some (found, m))
    (hagain : Shape.recognize? (s ++ t).toList = some (found, m')) (hgroups : ∀ j, m'.group? j = m.group? j)
    (hcalls : found = .multiWhere → CallsWithin s.toList t.toList)
    (hread : ∀ st, i.interpret s data ≠ .status st) : i.interpret (s ++ t) data = i.interpret s data := by
  have hshort : i.interpret s data = i.dispatch found m s.toList data := by
    simp only [interpret, hs, hfound]
  have hlong : i.interpret (s ++ t) data = i.dispatch found m' (s ++ t).toList data := by
    simp only [interpret, ht, hagain]
  rw [hshort] at hread ⊢
  rw [hlong]
  refine i.dispatch_congr hgroups (fun hshape => ?_) (fun hshape => ?_) hread
  · rw [String.toList_append, (hcalls hshape).whereArgs_append]
  · rw [String.toList_append, (hcalls hshape).withCall_append]

/-- Two rows that agree in one column. -/
def pairedRows : Dataset :=
  ⟨⟨[("ts", [⟨[("a", .int 1), ("b", .int 2)]⟩, ⟨[("a", .int 1), ("b", .int 3)]⟩])]⟩⟩

theorem interpret_append_remark :
    let i : Interpreter := ⟨Naming.extend .empty .empty, "2024-01-01 00:00:00"⟩
    let s := "T::where('a', 1)->where('b', 2)->get()"
    let t := "; // where(x"
    i.interpret s pairedRows = .rows [⟨[("a", .int 1), ("b", .int 2)]⟩] ∧
      i.interpret (s ++ t) pairedRows = i.interpret s pairedRows := by
  intro i s t
  have hfind : ∀ u texts, (Shape.recognize? u).map (fun f => (f.1, f.2.texts)) = some (.multiWhere, texts) →
      ∃ m, Shape.recognize? u = some (.multiWhere, m) ∧ m.texts = texts := by
    intro u texts hu
    obtain ⟨⟨shape, m⟩, hm, heq⟩ := Option.map_eq_some_iff.1 hu
    obtain ⟨rfl, htexts⟩ := Prod.mk.inj heq
    exact ⟨m, hm, htexts⟩
  obtain ⟨m, hm, htexts⟩ := hfind s.toList [(0, s.toList), (1, "T".toList)] (by decide +kernel)
  obtain ⟨m', hm', htexts'⟩ := hfind (s ++ t).toList [(0, s.toList), (1, "T".toList)] (by decide +kernel)
  have hrows : i.interpret s pairedRows = .rows [⟨[("a", .int 1), ("b", .int 2)]⟩] := by decide +kernel
  refine ⟨hrows, i.interpret_append (by decide +kernel) (by decide +kernel) hm hm' (fun j => ?_)
    (fun _ => callsWithin_of_not_mem (by decide)) fun st hst => ?_⟩
  · rw [Match.group?_eq, Match.group?_eq, htexts, htexts']
  · rw [hrows] at hst
    cases hst

/-- **Calls behind a statement count where several conditions are read**: those of another statement select among the
rows as well, and one in a remark that cannot be read leaves the whole without an answer. -/
theorem trailing_calls_count :
    let i : Interpreter := ⟨Naming.extend .empty .empty, "2024-01-01 00:00:00"⟩
    let s := "T::where('a', 1)->where('b', 2)->get()"
    let next := s ++ "; U::where('c', 3)->get()"
    let remark := s ++ " // where(x)"
    let found := fun u : String => (Shape.recognize? u.toList).map fun f => (f.1, f.2.texts)
    (∀ u ∈ [s, next, remark], prepare u.toList = u.toList ∧
      found u = some (.multiWhere, [(0, s.toList), (1, "T".toList)])) ∧
      i.interpret s pairedRows = .rows [⟨[("a", .int 1), ("b", .int 2)]⟩] ∧
      i.interpret next pairedRows = .rows [] ∧ i.interpret remark pairedRows = .status (.badWhere remark) := by
  decide +kernel

end Interpreter

end FluentTables
