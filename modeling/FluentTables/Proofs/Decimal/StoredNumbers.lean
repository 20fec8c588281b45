import FluentTables.Decimal.Layout
import FluentTables.Proofs.Decimal.Integers

/-!
# Stored numbers

The text of a stored number is a strict numeral (`stored?_eq`): digits before the point, the first of several not a
zero, and digits behind a point and in an exponent.
-/

namespace FluentTables

namespace Numeral

/-- ASCII digits, one at least. -/
def IsDigits (ds : List Char) : Prop := ds ≠ [] ∧ ∀ c ∈ ds, c.isDigit = true

/-- A numeral has digits in all its parts, and no zero in front of others. -/
structure IsStrict (n : Numeral) : Prop where
  whole : IsDigits n.whole
  leading : n.whole.head? = some '0' → n.whole = ['0']
  fraction : ∀ ds ∈ n.fraction, IsDigits ds
  exponent : ∀ e ∈ n.exponent, IsDigits e.2

/-- The sign, the digits, the fraction and the exponent of a numeral, the latter with its sign. -/
def chars (n : Numeral) : List Char :=
  (if n.negative then ['-'] else []) ++ (n.whole ++ (n.fraction.elim [] ('.' :: ·) ++
    n.exponent.elim [] fun e => 'e' :: (if e.1 then '-' else '+') :: e.2))

theorem isDigits_toDigits (n : Nat) : IsDigits (Nat.toDigits 10 n) :=
  ⟨Nat.toDigits_ne_nil, fun _ hc => Nat.isDigit_of_mem_toDigits (by decide) (by decide) hc⟩

theorem IsDigits.append {ds : List Char} (h : IsDigits ds) {es : List Char} (hes : ∀ c ∈ es, c.isDigit = true) :
    IsDigits (ds ++ es) :=
  ⟨List.append_ne_nil_of_left_ne_nil h.1 es, fun c hc => (List.mem_append.1 hc).elim (h.2 c) (hes c)⟩

/-- Only the digits of zero begin with a zero. -/
theorem head_toDigits {n : Nat} (h : 0 < n) : (Nat.toDigits 10 n).head? ≠ some '0' := by
  induction n using Nat.strong_induction_on with
  | _ n ih =>
    rw [Nat.toDigits_eq_if (by decide)]
    split
    · have hdigit : ∀ m < 10, 0 < m → m.digitChar ≠ '0' := by decide
      simpa using hdigit n (by assumption) h
    · have hne : Nat.toDigits 10 (n / 10) ≠ [] := Nat.toDigits_ne_nil
      obtain ⟨c, r, hr⟩ := List.exists_cons_of_ne_nil hne
      have hc := ih (n / 10) (by omega) (by omega)
      rw [hr] at hc ⊢
      simpa using hc

theorem ofInt_isStrict (i : Int) : (ofInt i).IsStrict where
  whole := isDigits_toDigits _
  leading := by
    intro h
    by_cases hi : i.natAbs = 0
    · simp [ofInt, hi]
    · exact absurd h (head_toDigits (Nat.pos_of_ne_zero hi))
  fraction := by rintro ds ⟨⟩
  exponent := by rintro e ⟨⟩

theorem chars_ofInt (i : Int) : (ofInt i).chars = (toString i).toList := by
  rw [toList_toString]
  simp [chars, ofInt]

end Numeral

/-! ## The shortest decimal -/

namespace Decimal

theorem shiftLeft_spareBits_le {units : Nat} (h : units ≠ 0) : 1 <<< Binary64.spareBits units ≤ units := by
  rw [Nat.one_shiftLeft]
  exact Nat.le_trans (Nat.pow_le_pow_right (by decide) (Nat.sub_le _ 52)) (Nat.log2_self_le h)

/-- Zero is not near another number. -/
theorem low_pos {units : Nat} (h : units ≠ 0) : 0 < (Interval.around units).low := by
  have hshift := shiftLeft_spareBits_le h
  rw [Nat.one_shiftLeft] at hshift
  show 0 < 4 * units - _
  simp only [Nat.shiftLeft_eq, Nat.one_mul]
  split <;> omega

theorem coefficient_onGrid? {tie : Tie} {units : Nat} {i : Interval} {e : Int} {d : Decimal} (hi : 0 < i.low)
    (h : onGrid? tie units i e = some d) : 0 < d.coefficient := by
  have hfits : ∀ c,
      i.contains (4 * c * (Binary64.one * Nat.pow 10 e.toNat)) (Nat.pow 10 (-e).toNat) = true → 0 < c := by
    intro c hc
    have hscale : 0 < i.low * Nat.pow 10 (-e).toNat := Nat.mul_pos hi (Nat.pow_pos (by decide))
    rcases Nat.eq_zero_or_pos c with rfl | hpos
    · rw [Nat.mul_zero, Nat.zero_mul] at hc
      simp only [Interval.contains] at hc
      split at hc
      all_goals
        simp only [Bool.and_eq_true, decide_eq_true_eq] at hc
        omega
    · exact hpos
  simp only [onGrid?] at h
  split at h
  · cases h
  · next hl _ =>
    cases h
    exact hfits _ hl
  · cases h
    exact Nat.succ_pos _
  · next hl _ =>
    cases h
    show 0 < ite _ _ _
    split
    · exact Nat.succ_pos _
    · exact hfits _ hl

theorem coefficient_firstGrid {tie : Tie} {units : Nat} {i : Interval} (hunits : 0 < units) (hi : 0 < i.low) (e : Int)
    (n : Nat) : 0 < (firstGrid tie units i e n).coefficient := by
  induction n generalizing e with
  | zero => exact hunits
  | succ n ih =>
    rw [firstGrid]
    cases h : onGrid? tie units i e with
    | none => exact ih (e - 1)
    | some d => exact coefficient_onGrid? hi h

theorem coefficient_strip {d : Decimal} (h : 0 < d.coefficient) (n : Nat) : 0 < (strip n d).coefficient := by
  induction n generalizing d with
  | zero => exact h
  | succ n ih =>
    rw [strip]
    split
    · next hmod =>
      rw [beq_iff_eq] at hmod
      apply ih
      show 0 < d.coefficient / 10
      omega
    · exact h

/-- **The shortest decimal of a number is zero only for zero.** -/
theorem shortest_pos (tie : Tie) (units : Nat) :
    shortest tie units = ⟨0, 0⟩ ∨ 0 < (shortest tie units).coefficient := by
  rw [shortest]
  split
  · exact Or.inl rfl
  · next h => exact Or.inr (coefficient_strip (coefficient_firstGrid (Nat.pos_of_ne_zero h) (low_pos h) _ _) _)

/-! ## Texts -/

/-- The numeral of a stored decimal. -/
def numeral (d : Decimal) (negative : Bool) : Numeral :=
  if -5 ≤ d.order ∧ d.order < 16 then
    if 0 ≤ d.exponent then ⟨negative, d.digits ++ List.replicate d.exponent.toNat '0', some ['0'], none⟩
    else
      let places := (-d.exponent).toNat
      let padded := List.replicate (places + 1 - d.digits.length) '0' ++ d.digits
      ⟨negative, padded.take (padded.length - places), some (padded.drop (padded.length - places)), none⟩
  else ⟨negative, d.digits.take 1, if d.digits.drop 1 = [] then none else some (d.digits.drop 1),
    some (d.order < 0, Nat.toDigits 10 d.order.natAbs)⟩

theorem isDigits_digits (d : Decimal) : Numeral.IsDigits d.digits := Numeral.isDigits_toDigits d.coefficient

section Padded

variable {ds padded : List Char} {places : Nat} (hds : Numeral.IsDigits ds)
  (hpadded : padded = List.replicate (places + 1 - ds.length) '0' ++ ds)

include hpadded

/-- There are zeros in front of short digits only, and then one in front of the last `places`. -/
theorem leading_cut (hhead : ds.head? ≠ some '0') (hzero : (padded.take (padded.length - places)).head? = some '0') :
    padded.take (padded.length - places) = ['0'] := by
  have hlength : padded.length = places + 1 - ds.length + ds.length := by simp [hpadded]
  by_cases hlong : places < ds.length
  · have hsame : padded = ds := by
      rw [hpadded, show places + 1 - ds.length = 0 by omega]
      rfl
    rw [List.head?_take, if_neg (by omega), hsame] at hzero
    exact absurd hzero hhead
  · have hone : padded.length - places = 1 := by omega
    rw [hone] at hzero ⊢
    obtain ⟨c, r, rfl⟩ := List.exists_cons_of_length_pos (l := padded) (by omega)
    simpa using hzero

include hds

theorem isDigit_padded {c : Char} (hc : c ∈ padded) : c.isDigit = true := by
  rw [hpadded] at hc
  rcases List.mem_append.1 hc with hc | hc
  · rw [List.eq_of_mem_replicate hc]
    rfl
  · exact hds.2 c hc

/-- Digits that are padded to have some in front of the last `places`, cut there. -/
theorem isDigits_cut (hplaces : 0 < places) :
    Numeral.IsDigits (padded.take (padded.length - places)) ∧
      Numeral.IsDigits (padded.drop (padded.length - places)) := by
  have hlength : padded.length = places + 1 - ds.length + ds.length := by simp [hpadded]
  constructor
  · constructor
    · apply List.ne_nil_of_length_pos
      rw [List.length_take]
      omega
    · exact fun c hc => isDigit_padded hds hpadded (List.mem_of_mem_take hc)
  · constructor
    · apply List.ne_nil_of_length_pos
      rw [List.length_drop]
      omega
    · exact fun c hc => isDigit_padded hds hpadded (List.mem_of_mem_drop hc)

end Padded

theorem head_digits {d : Decimal} (h : 0 < d.coefficient) : d.digits.head? ≠ some '0' := Numeral.head_toDigits h

/-- The numeral of a whole number. -/
theorem isStrict_whole {d : Decimal} (h : d = ⟨0, 0⟩ ∨ 0 < d.coefficient) (negative : Bool) :
    Numeral.IsStrict ⟨negative, d.digits ++ List.replicate d.exponent.toNat '0', some ['0'], none⟩ where
  whole := by
    apply d.isDigits_digits.append
    intro c hc
    rw [List.eq_of_mem_replicate hc]
    rfl
  leading := by
    intro hzero
    rcases h with rfl | hpos
    · rfl
    · obtain ⟨c, r, hcons⟩ := List.exists_cons_of_ne_nil d.isDigits_digits.1
      have hhead := head_digits hpos
      simp only [hcons] at hhead hzero
      exact absurd hzero hhead
  fraction := by
    rintro ds ⟨⟩
    exact ⟨by simp, by simp⟩
  exponent := by rintro e ⟨⟩

/-- The numeral of a number with a point among its digits, or in front of them. -/
theorem isStrict_cut {d : Decimal} (h : 0 < d.coefficient) {places : Nat} (hplaces : 0 < places) (negative : Bool)
    {padded : List Char} (hpadded : padded = List.replicate (places + 1 - d.digits.length) '0' ++ d.digits) :
    Numeral.IsStrict ⟨negative, padded.take (padded.length - places), some (padded.drop (padded.length - places)), none⟩
    where
  whole := (isDigits_cut d.isDigits_digits hpadded hplaces).1
  leading := leading_cut hpadded (head_digits h)
  fraction := by
    rintro ds ⟨⟩
    exact (isDigits_cut d.isDigits_digits hpadded hplaces).2
  exponent := by rintro e ⟨⟩

/-- The numeral of a number with an exponent. -/
theorem isStrict_scientific (d : Decimal) (negative sign : Bool) (exponent : Nat) :
    Numeral.IsStrict ⟨negative, d.digits.take 1, if d.digits.drop 1 = [] then none else some (d.digits.drop 1),
      some (sign, Nat.toDigits 10 exponent)⟩ := by
  have hdigits := d.isDigits_digits
  obtain ⟨c, r, hcons⟩ := List.exists_cons_of_ne_nil hdigits.1
  constructor
  · exact ⟨by simp [hcons], fun e he => hdigits.2 e (List.mem_of_mem_take he)⟩
  · intro hzero
    rw [hcons] at hzero ⊢
    simpa using hzero
  · intro ds hds
    dsimp only at hds
    split at hds
    · cases hds
    · next hne =>
      cases hds
      exact ⟨hne, fun e he => hdigits.2 e (List.mem_of_mem_drop he)⟩
  · rintro e ⟨⟩
    exact Numeral.isDigits_toDigits _

theorem numeral_isStrict {d : Decimal} (h : d = ⟨0, 0⟩ ∨ 0 < d.coefficient) (negative : Bool) :
    (d.numeral negative).IsStrict := by
  rw [numeral]
  split
  · split
    · exact isStrict_whole h negative
    · next hexponent =>
      have hpos : 0 < d.coefficient := h.resolve_left fun hd => hexponent (by simp [hd])
      exact isStrict_cut hpos (by omega) negative rfl
  · exact d.isStrict_scientific negative _ _

theorem chars_numeral (d : Decimal) (negative : Bool) :
    (d.numeral negative).chars = (if negative then ['-'] else []) ++
      if -5 ≤ d.order ∧ d.order < 16 then
        if 0 ≤ d.exponent then d.positional ++ ['.', '0'] else d.positional
      else d.scientific := by
  rw [numeral]
  split
  · split
    · next hexponent => simp [Numeral.chars, positional, hexponent]
    · next hexponent => simp [Numeral.chars, positional, hexponent]
  · rw [scientific]
    cases hfraction : d.digits.drop 1 with
    | nil => simp [Numeral.chars]
    | cons c r => simp [Numeral.chars]

end Decimal

namespace Binary64

/-- The numeral of a stored number. -/
def numeral? : Binary64 → Option Numeral
  | finite n u => some ((Decimal.shortest .even u).numeral n)
  | infinite _ => none

/-- **The text of a stored number is a strict numeral.** -/
theorem stored?_eq (x : Binary64) : x.stored? = x.numeral?.map Numeral.chars := by
  cases x with
  | infinite n => rfl
  | finite n u =>
    simp only [stored?, numeral?, Option.map_some, Decimal.chars_numeral, Bool.and_eq_true, decide_eq_true_eq]

theorem numeral?_isStrict {x : Binary64} {n : Numeral} (h : x.numeral? = some n) : n.IsStrict := by
  cases x with
  | infinite s => cases h
  | finite s u =>
    cases h
    exact Decimal.numeral_isStrict (Decimal.shortest_pos .even u) s

end Binary64

end FluentTables
