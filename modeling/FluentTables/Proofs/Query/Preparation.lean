import FluentTables.Proofs.Pattern.Locations
import FluentTables.Proofs.Pattern.Openings
import FluentTables.Proofs.Query.Statements
import Mathlib.Data.List.Forall2

/-!
# Statements with decimal commas

Before a statement is recognized, points take the place of its decimal commas, and nothing else changes
(`respelled_withPoints`). So what a prepared statement holds without points is in the query as well
(`infix_of_infix_prepare`).
-/

namespace FluentTables.Query

open Pattern Text

variable {a b s w : List Char}

/-- A character kept, or a point in the place of a comma. -/
def KeptOrPoint (c d : Char) : Prop := d = c ∨ c = ',' ∧ d = '.'

/-- A text with points in the place of some of its commas. -/
abbrev Pointed (s t : List Char) : Prop := List.Forall₂ KeptOrPoint s t

theorem pointed_refl (s : List Char) : Pointed s s := List.forall₂_same.2 fun _ _ => Or.inl rfl

/-- The two groups of a decimal comma are the digits on its two sides. -/
theorem groups_of_matchAt_decimalComma {passed : List Char} {x : Place} {m : Match}
    (h : decimalComma.matchAt passed x = some m) : x.rest = m.group 1 ++ ',' :: (m.group 2 ++ m.stop.rest) ∧
      Spells (some1 isDigit) (m.group 1) ∧ Spells (some1 isDigit) (m.group 2) := by
  obtain ⟨w, u, v, hx, rfl, hu, ⟨c, v', rfl, hc, -⟩, hone⟩ := group_of_matchAt [] (i := 1) (by decide) rfl h
  obtain ⟨w', u', v'', hx', ⟨d, c', rfl, hd, e, e', rfl, he, rfl⟩, hu', rfl, htwo⟩ :=
    group_of_matchAt [group 1 (some1 isDigit), char ','] (i := 2) (by decide) rfl h
  rw [spells_char] at hc he
  subst hc he
  have hsplit : u ++ ',' :: (v' ++ m.stop.rest) = d ++ ',' :: (u' ++ m.stop.rest) := by
    simpa using hx.symm.trans hx'
  obtain ⟨rfl, -, -⟩ := append_cons_inj_of_class (p := fun c => !isDigit c) (fun c hc => by simp [hu.2 c hc])
    (fun c hc => by simp [hd.2 c hc]) (by decide) (by decide) hsplit
  rw [hone, htwo]
  exact ⟨by simpa using hx', hu, hu'⟩

/-- A text with points for decimal commas, one after another. -/
inductive Respelled : List Char → List Char → Prop
  | same (s : List Char) : Respelled s s
  | point (a : List Char) {d e : Char} {s t : List Char} : isDigit d = true → isDigit e = true → Respelled s t →
      Respelled (a ++ d :: ',' :: e :: s) (a ++ d :: '.' :: e :: t)

theorem Respelled.append_left (h : Respelled s w) (a : List Char) : Respelled (a ++ s) (a ++ w) := by
  cases h with
  | same s => exact .same _
  | point b hd he h =>
    rw [← List.append_assoc, ← List.append_assoc]
    exact .point (a ++ b) hd he h

/-- The text behind `b` with points for its decimal commas. -/
def withPoints (b : Option Char) (s : List Char) : List Char :=
  decimalComma.replaced (fun m => m.group 1 ++ '.' :: m.group 2) b s

theorem prepare_eq (s : List Char) : prepare s = withPoints none (trim s) := rfl

/-- **Commas between digits become points, and nothing else changes.** -/
theorem respelled_withPoints (b : Option Char) (s : List Char) : Respelled s (withPoints b s) := by
  refine rel_replaced Respelled.same (fun {passed x m} p t hm ht => ?_) b s
  obtain ⟨hx, hone, htwo⟩ := groups_of_matchAt_decimalComma hm
  obtain ⟨u, d, hu⟩ : ∃ u d, m.group 1 = u ++ [d] := ⟨_, _, (List.dropLast_concat_getLast hone.1).symm⟩
  obtain ⟨e, v, hv⟩ := List.exists_cons_of_ne_nil htwo.1
  rw [hu] at hone
  rw [hv] at htwo
  have hpoint : Respelled (p ++ u ++ d :: ',' :: e :: (v ++ m.stop.rest)) (p ++ u ++ d :: '.' :: e :: (v ++ t)) :=
    .point _ (hone.2 d (by simp)) (htwo.2 e (by simp)) (ht.append_left v)
  rw [hx, hu, hv]
  simpa using hpoint

theorem Respelled.pointed (h : Respelled s w) : Pointed s w := by
  induction h with
  | same s => exact pointed_refl s
  | point a _ _ _ ih =>
    exact List.rel_append (pointed_refl a) (.cons (Or.inl rfl) (.cons (Or.inr ⟨rfl, rfl⟩) (.cons (Or.inl rfl) ih)))

theorem pointed_withPoints (b : Option Char) (s : List Char) : Pointed s (withPoints b s) :=
  (respelled_withPoints b s).pointed

theorem pointed_prepare (s : List Char) : Pointed (trim s) (prepare s) := pointed_withPoints none (trim s)

/-! ## Parts of a prepared statement -/

/-- A text without points was there before. -/
theorem Pointed.eq_of_no_point (h : Pointed s w) (hw : '.' ∉ w) : s = w := by
  induction h with
  | nil => rfl
  | cons hc _ ih =>
    rw [List.mem_cons, not_or] at hw
    rcases hc with rfl | ⟨-, rfl⟩
    · rw [ih hw.2]
    · exact absurd rfl hw.1

/-- A text without commas stays. -/
theorem Pointed.eq_of_no_comma (h : Pointed s w) (hs : ',' ∉ s) : w = s := by
  induction h with
  | nil => rfl
  | cons hc _ ih =>
    rw [List.mem_cons, not_or] at hs
    rcases hc with rfl | ⟨rfl, -⟩
    · rw [ih hs.2]
    · exact absurd rfl hs.1

/-- A character that is no point was there before. -/
theorem Pointed.mem {c : Char} (h : Pointed s w) (hc : c ∈ w) : c = '.' ∨ c ∈ s := by
  induction h with
  | nil => cases hc
  | cons hd _ ih =>
    rcases List.mem_cons.1 hc with rfl | hc
    · rcases hd with rfl | ⟨-, rfl⟩
      · exact Or.inr List.mem_cons_self
      · exact Or.inl rfl
    · exact (ih hc).imp_right (List.mem_cons_of_mem _)

theorem Pointed.of_append (h : Pointed (a ++ b) w) : ∃ a' b', w = a' ++ b' ∧ Pointed a a' ∧ Pointed b b' := by
  induction a generalizing w with
  | nil => exact ⟨[], w, rfl, .nil, h⟩
  | cons c a ih =>
    cases h with
    | cons hc h =>
      obtain ⟨a', b', rfl, ha, hb⟩ := ih h
      exact ⟨_ :: a', b', rfl, .cons hc ha, hb⟩

theorem Pointed.of_append_right (h : Pointed w (a ++ b)) :
    ∃ a' b', w = a' ++ b' ∧ Pointed a' a ∧ Pointed b' b :=
  ⟨_, _, (List.take_append_drop a.length w).symm, List.forall₂_take_append _ a b h, List.forall₂_drop_append _ a b h⟩

/-- What begins without commas begins in the same way. -/
theorem Pointed.of_append_left (h : Pointed (a ++ b) w) (ha : ',' ∉ a) : ∃ b', w = a ++ b' ∧ Pointed b b' := by
  obtain ⟨a', b', rfl, ha', hb'⟩ := h.of_append
  rw [ha'.eq_of_no_comma ha]
  exact ⟨b', rfl, hb'⟩

/-- **What a prepared statement holds without points is in the query.** -/
theorem infix_of_infix_prepare (hw : '.' ∉ w) (h : w <:+: prepare s) : w <:+: s := by
  obtain ⟨p, q, h⟩ := h
  have hpointed := pointed_prepare s
  rw [← h, List.append_assoc] at hpointed
  obtain ⟨p', r', htrim, -, hr'⟩ := hpointed.of_append_right
  obtain ⟨w', q', rfl, hw', -⟩ := hr'.of_append_right
  obtain rfl := hw'.eq_of_no_point hw
  have hinfix : w' <:+: trim s := ⟨p', q', by rw [htrim, List.append_assoc]⟩
  exact hinfix.trans ((trimBy_prefix_dropWhile isBlank s).isInfix.trans (List.dropWhile_suffix _).isInfix)

end FluentTables.Query
