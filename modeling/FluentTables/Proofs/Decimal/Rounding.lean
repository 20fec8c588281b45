import FluentTables.Proofs.Decimal.Integers

/-!
# Rounding

A quotient is rounded to a number of steps, the nearest one (`nearest`), and the step is a power of two that grows with
the quotient. A greater quotient is never rounded to less (`roundQuotient_mono`), and no representable number is nearer
to it than what it is rounded to (`roundQuotient_nearest`). So the floating-point numbers of integers are in the order
of the integers (`rank_ofInt_mono`); two different integers have the same one only if both are `2 ^ 53` or more, or
both `-2 ^ 53` or less (`Alike.far`).
-/

namespace FluentTables.Binary64

/-! ## The nearest number of steps -/

section Nearest

variable {n m step : Nat}

/-- How many steps are nearest to a number; of two equally near the even one. -/
def nearest (n step : Nat) : Nat :=
  if step < 2 * (n % step) || (2 * (n % step) == step && n / step % 2 == 1) then n / step + 1 else n / step

/-- The steps below are taken if the rest is a half at most, and else those above. -/
theorem nearest_cases (n step : Nat) :
    nearest n step = n / step ∧ 2 * (n % step) ≤ step ∨ nearest n step = n / step + 1 ∧ step ≤ 2 * (n % step) := by
  unfold nearest
  split
  · next h =>
    simp only [Bool.or_eq_true, decide_eq_true_eq, Bool.and_eq_true, beq_iff_eq] at h
    exact Or.inr ⟨rfl, by omega⟩
  · next h =>
    simp only [Bool.or_eq_true, decide_eq_true_eq, Bool.and_eq_true, beq_iff_eq, not_or] at h
    exact Or.inl ⟨rfl, by omega⟩

theorem div_le_nearest (n step : Nat) : n / step ≤ nearest n step := by
  rcases nearest_cases n step with ⟨h, -⟩ | ⟨h, -⟩ <;> omega

theorem nearest_le_succ (n step : Nat) : nearest n step ≤ n / step + 1 := by
  rcases nearest_cases n step with ⟨h, -⟩ | ⟨h, -⟩ <;> omega

/-- Between the same steps the rest decides. -/
theorem nearest_mono (h : n ≤ m) : nearest n step ≤ nearest m step := by
  rcases Nat.lt_or_eq_of_le (Nat.div_le_div_right (c := step) h) with hlt | heq
  · have hn := nearest_le_succ n step
    have hm := div_le_nearest m step
    omega
  · have hrest : n % step ≤ m % step := by
      have hn := Nat.div_add_mod n step
      have hm := Nat.div_add_mod m step
      rw [heq] at hn
      omega
    unfold nearest
    rw [heq]
    simp only [Bool.or_eq_true, decide_eq_true_eq, Bool.and_eq_true, beq_iff_eq]
    split <;> split <;> omega

/-- No other number of steps is nearer. -/
theorem natAbs_nearest_le (hstep : 0 < step) (k : Nat) :
    ((nearest n step * step : Nat) - n : Int).natAbs ≤ ((k * step : Nat) - n : Int).natAbs := by
  have hdiv := Nat.div_add_mod' n step
  have hmod := Nat.mod_lt n hstep
  have hsucc : (n / step + 1) * step = n / step * step + step := Nat.succ_mul _ _
  -- `k` steps do not end between the two that come into question
  have hside : k * step ≤ n / step * step ∨ (n / step + 1) * step ≤ k * step := by
    rcases Nat.lt_or_ge (n / step) k with h | h
    · exact Or.inr (Nat.mul_le_mul_right step h)
    · exact Or.inl (Nat.mul_le_mul_right step h)
  rcases nearest_cases n step with ⟨h, hhalf⟩ | ⟨h, hhalf⟩ <;> rw [h] <;> omega

end Nearest

/-! ## Rounding a quotient -/

section Quotient

variable {num num' den units : Nat}

theorem spareBits_mono {u v : Nat} (h : u ≤ v) : spareBits u ≤ spareBits v := by
  refine Nat.sub_le_sub_right ?_ 52
  by_cases hu : u = 0
  · rw [hu, Nat.log2_zero]
    exact Nat.zero_le _
  · exact (Nat.le_log2 (by omega)).2 (Nat.le_trans (Nat.log2_self_le hu) h)

/-- What is left without the spare bits has 53 bits at most. -/
theorem lt_of_spareBits (u : Nat) : u < 2 ^ (53 + spareBits u) := by
  have hlog : u < 2 ^ (u.log2 + 1) := Nat.lt_log2_self
  exact Nat.lt_of_lt_of_le hlog (Nat.pow_le_pow_right (by decide) (by unfold spareBits; omega))

/-- If there are spare bits, exactly 53 are left. -/
theorem le_of_spareBits {u : Nat} (h : spareBits u ≠ 0) : 2 ^ (52 + spareBits u) ≤ u := by
  have hbits : 52 + spareBits u = u.log2 := by unfold spareBits at h ⊢; omega
  rw [hbits]
  refine Nat.log2_self_le ?_
  rintro rfl
  exact h rfl

/-- A quotient is rounded to a number of steps, as long as its spare bits say. -/
theorem roundQuotient_eq (num den : Nat) :
    roundQuotient num den = nearest num (den * 2 ^ spareBits (num / den)) * 2 ^ spareBits (num / den) := by
  rw [← Nat.shiftLeft_eq, ← Nat.shiftLeft_eq]
  rfl

theorem roundQuotient_le (num den : Nat) : roundQuotient num den ≤ 2 ^ (53 + spareBits (num / den)) := by
  have hquotient : num / den / 2 ^ spareBits (num / den) < 2 ^ 53 := by
    rw [Nat.div_lt_iff_lt_mul (Nat.two_pow_pos _), ← Nat.pow_add]
    exact lt_of_spareBits _
  rw [Nat.div_div_eq_div_mul] at hquotient
  rw [roundQuotient_eq, Nat.pow_add]
  exact Nat.mul_le_mul_right _ (Nat.le_trans (nearest_le_succ _ _) hquotient)

theorem le_roundQuotient (h : spareBits (num / den) ≠ 0) :
    2 ^ (52 + spareBits (num / den)) ≤ roundQuotient num den := by
  have hquotient : 2 ^ 52 ≤ num / den / 2 ^ spareBits (num / den) := by
    rw [Nat.le_div_iff_mul_le (Nat.two_pow_pos _), ← Nat.pow_add]
    exact le_of_spareBits h
  rw [Nat.div_div_eq_div_mul] at hquotient
  rw [roundQuotient_eq, Nat.pow_add]
  exact Nat.mul_le_mul_right _ (Nat.le_trans hquotient (div_le_nearest _ _))

/-- **A greater quotient is not rounded to less.** With as many spare bits the steps are the same ones; with more of
them a power of two lies between what the two are rounded to. -/
theorem roundQuotient_mono (h : num ≤ num') : roundQuotient num den ≤ roundQuotient num' den := by
  rcases Nat.lt_or_eq_of_le (spareBits_mono (Nat.div_le_div_right (c := den) h)) with hlt | heq
  · calc roundQuotient num den ≤ 2 ^ (53 + spareBits (num / den)) := roundQuotient_le num den
      _ ≤ 2 ^ (52 + spareBits (num' / den)) := Nat.pow_le_pow_right (by decide) (by omega)
      _ ≤ roundQuotient num' den := le_roundQuotient (by omega)
  · rw [roundQuotient_eq, roundQuotient_eq, heq]
    exact Nat.mul_le_mul_right _ (nearest_mono h)

/-- **No representable number is nearer to a quotient than what it is rounded to.** A number that is no multiple of the
step lies below the quotient and below a multiple of the step. -/
theorem roundQuotient_nearest (num : Nat) (hden : 0 < den) (h : Representable units) :
    ((roundQuotient num den * den : Nat) - num : Int).natAbs ≤ ((units * den : Nat) - num : Int).natAbs := by
  have hstep : 0 < den * 2 ^ spareBits (num / den) := Nat.mul_pos hden (Nat.two_pow_pos _)
  have hround : roundQuotient num den * den =
      nearest num (den * 2 ^ spareBits (num / den)) * (den * 2 ^ spareBits (num / den)) := by
    rw [roundQuotient_eq, Nat.mul_assoc, Nat.mul_comm den]
  rw [hround]
  rcases Nat.lt_or_ge (spareBits units) (spareBits (num / den)) with hlt | hge
  · have hunits : units ≤ 2 ^ 52 * 2 ^ spareBits (num / den) := by
      rw [← Nat.pow_add]
      exact Nat.le_trans (Nat.le_of_lt (lt_of_spareBits units)) (Nat.pow_le_pow_right (by decide) (by omega))
    have hbelow : 2 ^ 52 * (den * 2 ^ spareBits (num / den)) ≤ num := by
      have hquotient := le_of_spareBits (u := num / den) (by omega)
      rw [Nat.pow_add, Nat.le_div_iff_mul_le hden] at hquotient
      rwa [Nat.mul_comm den, ← Nat.mul_assoc]
    have hmul : units * den ≤ 2 ^ 52 * (den * 2 ^ spareBits (num / den)) := by
      rw [Nat.mul_comm den, ← Nat.mul_assoc]
      exact Nat.mul_le_mul_right den hunits
    have hnearest := natAbs_nearest_le (n := num) hstep (2 ^ 52)
    omega
  · have hdvd : 2 ^ spareBits (num / den) ∣ units := by
      have hspare := h.1
      rw [Nat.one_shiftLeft] at hspare
      exact Nat.dvd_trans (Nat.pow_dvd_pow 2 hge) hspare
    obtain ⟨k, hk⟩ := hdvd
    have hmul : units * den = k * (den * 2 ^ spareBits (num / den)) := by
      rw [hk, Nat.mul_comm _ k, Nat.mul_assoc, Nat.mul_comm den]
    rw [hmul]
    exact natAbs_nearest_le hstep k

end Quotient

/-! ## The numbers of integers -/

/-- The units of the number nearest to a natural number, as they are ranked. -/
def unitsOf (n : Nat) : Nat := min (roundQuotient (n * one) 1) limit

theorem unitsOf_mono {n m : Nat} (h : n ≤ m) : unitsOf n ≤ unitsOf m := by
  have hround : roundQuotient (n * one) 1 ≤ roundQuotient (m * one) 1 :=
    roundQuotient_mono (Nat.mul_le_mul_right one h)
  unfold unitsOf
  omega

theorem unitsOf_of_le {n : Nat} (h : n ≤ 2 ^ 53) : unitsOf n = n * one := by
  obtain ⟨hdvd, hlt⟩ := representable_of_le h
  unfold unitsOf
  rw [roundQuotient_of_dvd hdvd]
  omega

/-- A power of two has no bit to lose. -/
theorem representable_two_pow {k : Nat} (h : k < 1024) : Representable (2 ^ k * one) := by
  have hdvd : ∀ j, 1 <<< spareBits (2 ^ k * 1 <<< j) ∣ 2 ^ k * 1 <<< j := by
    intro j
    rw [Nat.one_shiftLeft j, ← Nat.pow_add, spareBits, Nat.log2_two_pow, Nat.one_shiftLeft]
    exact Nat.pow_dvd_pow 2 (Nat.sub_le _ _)
  have hpow : ∀ j, k < j → 2 ^ k < 2 ^ j := fun j hj => Nat.pow_lt_pow_right (by decide) hj
  exact ⟨hdvd 1074, mul_shiftLeft_lt (hpow 1024 h) 1074⟩

/-- Up to `2 ^ 63` nothing is rounded to more than there is. -/
theorem roundQuotient_lt_limit {n : Nat} (h : n ≤ 2 ^ 63) : roundQuotient (n * one) 1 < limit := by
  obtain ⟨hdvd, hlt⟩ := representable_two_pow (k := 63) (by decide)
  have hmono : roundQuotient (n * one) 1 ≤ roundQuotient (2 ^ 63 * one) 1 :=
    roundQuotient_mono (Nat.mul_le_mul_right one h)
  rw [roundQuotient_of_dvd hdvd] at hmono
  exact Nat.lt_of_le_of_lt hmono hlt

theorem unitsOf_nearest {n units : Nat} (hn : n ≤ 2 ^ 63) (h : Representable units) :
    ((unitsOf n : Int) - (n * one : Nat)).natAbs ≤ ((units : Int) - (n * one : Nat)).natAbs := by
  have hnearest := roundQuotient_nearest (n * one) Nat.one_pos h
  rw [Nat.mul_one, Nat.mul_one] at hnearest
  rwa [unitsOf, Nat.min_eq_left (Nat.le_of_lt (roundQuotient_lt_limit hn))]

theorem rank_ofUnitRatio (negative : Bool) (num den : Nat) :
    (ofUnitRatio negative num den).rank =
      if negative then -((min (roundQuotient num den) limit : Nat) : Int)
      else (min (roundQuotient num den) limit : Nat) := by
  unfold ofUnitRatio
  dsimp only
  split
  · next h => cases negative <;> simp [rank, Nat.min_eq_left (Nat.le_of_lt h)]
  · next h => cases negative <;> simp [rank, Nat.min_eq_right (Nat.le_of_not_lt h)]

theorem rank_ofInt_natCast (n : Nat) : (ofInt n).rank = unitsOf n := by
  rw [ofInt, ofRatio, rank_ofUnitRatio, decide_eq_false (by omega), if_neg Bool.false_ne_true, Int.natAbs_natCast,
    unitsOf]

theorem rank_ofInt_neg (n : Nat) : (ofInt (-n)).rank = -(unitsOf n : Int) := by
  rcases Nat.eq_zero_or_pos n with rfl | hpos
  · rw [Int.natCast_zero, Int.neg_zero, ← Int.natCast_zero, rank_ofInt_natCast, unitsOf_of_le (Nat.zero_le _),
      Nat.zero_mul, Int.natCast_zero, Int.neg_zero]
  · rw [ofInt, ofRatio, rank_ofUnitRatio, decide_eq_true (by omega), if_pos rfl, Int.natAbs_neg, Int.natAbs_natCast,
      unitsOf]

/-- **The numbers of integers are in their order.** -/
theorem rank_ofInt_mono {i j : Int} (h : i ≤ j) : (ofInt i).rank ≤ (ofInt j).rank := by
  rcases Int.lt_or_le i 0 with hi | hi
  · obtain ⟨n, rfl⟩ := Int.exists_eq_neg_ofNat (Int.le_of_lt hi)
    rcases Int.lt_or_le j 0 with hj | hj
    · obtain ⟨m, rfl⟩ := Int.exists_eq_neg_ofNat (Int.le_of_lt hj)
      have hunits : unitsOf m ≤ unitsOf n := unitsOf_mono (by omega)
      rw [rank_ofInt_neg, rank_ofInt_neg]
      omega
    · obtain ⟨m, rfl⟩ := Int.eq_ofNat_of_zero_le hj
      rw [rank_ofInt_neg, rank_ofInt_natCast]
      omega
  · obtain ⟨n, rfl⟩ := Int.eq_ofNat_of_zero_le hi
    obtain ⟨m, rfl⟩ := Int.eq_ofNat_of_zero_le (Int.le_trans hi h)
    have hunits : unitsOf n ≤ unitsOf m := unitsOf_mono (by omega)
    rw [rank_ofInt_natCast, rank_ofInt_natCast]
    omega

theorem rank_abs_ofRatio (negative : Bool) (n : Nat) : (ofRatio negative n 1).abs.rank = unitsOf n := by
  unfold ofRatio ofUnitRatio unitsOf
  dsimp only
  split
  · next h => rw [Nat.min_eq_left (Nat.le_of_lt h)]; rfl
  · next h => rw [Nat.min_eq_right (Nat.le_of_not_lt h)]; rfl

/-- Rounded, a number is not less in size than an integer that it is not less than. -/
theorem not_numLt_ofRatio (negative : Bool) {n : Nat} {i : Int} (h : i ≤ n) :
    (ofRatio negative n 1).abs.numLt (ofInt i) = false := by
  rw [numLt, rank_abs_ofRatio, ← rank_ofInt_natCast]
  exact decide_eq_false (Int.not_lt.2 (rank_ofInt_mono h))

/-- Up to `2 ^ 53` an integer is its own number. -/
theorem rank_ofInt_of_le {i : Int} (hlow : -2 ^ 53 ≤ i) (hhigh : i ≤ 2 ^ 53) : (ofInt i).rank = i * one := by
  obtain ⟨n, rfl | rfl⟩ := i.eq_nat_or_neg
  · rw [rank_ofInt_natCast, unitsOf_of_le (by omega), Int.natCast_mul]
  · rw [rank_ofInt_neg, unitsOf_of_le (by omega), Int.natCast_mul, Int.neg_mul]

/-- **Two integers have different numbers**, unless both are `2 ^ 53` or more or both `-2 ^ 53` or less. A step from an
integer to the next that is made among those up to `2 ^ 53` lies between the two. -/
theorem rank_ofInt_lt {i j : Int} (h : i < j) (hi : i < 2 ^ 53) (hj : -2 ^ 53 < j) :
    (ofInt i).rank < (ofInt j).rank := by
  have hone : (0 : Int) < one := Int.natCast_pos.2 one_pos
  have hstep : (ofInt (max i (-2 ^ 53))).rank < (ofInt (max i (-2 ^ 53) + 1)).rank := by
    rw [rank_ofInt_of_le (by omega) (by omega), rank_ofInt_of_le (by omega) (by omega)]
    exact Int.mul_lt_mul_of_pos_right (by omega) hone
  calc (ofInt i).rank ≤ (ofInt (max i (-2 ^ 53))).rank := rank_ofInt_mono (by omega)
    _ < (ofInt (max i (-2 ^ 53) + 1)).rank := hstep
    _ ≤ (ofInt j).rank := rank_ofInt_mono (by omega)

/-- Integers with the same number. -/
def Alike (i j : Int) : Prop := (ofInt i).rank = (ofInt j).rank

instance (i j : Int) : Decidable (Alike i j) := inferInstanceAs (Decidable ((ofInt i).rank = (ofInt j).rank))

/-- Numbers that differ are in the order of their integers. -/
theorem rank_ofInt_lt_iff {i j : Int} (h : ¬ Alike i j) : (ofInt i).rank < (ofInt j).rank ↔ i < j := by
  unfold Alike at h
  rcases Int.lt_trichotomy i j with hlt | rfl | hgt
  · have hle := rank_ofInt_mono (Int.le_of_lt hlt)
    omega
  · exact absurd rfl h
  · have hle := rank_ofInt_mono (Int.le_of_lt hgt)
    omega

/-- Different integers with the same number are far from zero, on one side of it. -/
theorem Alike.far {i j : Int} (h : Alike i j) (hne : i ≠ j) : 2 ^ 53 ≤ min i j ∨ max i j ≤ -2 ^ 53 := by
  unfold Alike at h
  by_contra hnear
  rcases Int.lt_or_gt_of_ne hne with hlt | hgt
  · have hrank := rank_ofInt_lt hlt (by omega) (by omega)
    omega
  · have hrank := rank_ofInt_lt hgt (by omega) (by omega)
    omega

/-- No finite number is nearer to an integer. -/
def IsNearest (x : Binary64) (i : Int) : Prop :=
  ∀ negative units, Representable units → (x.rank - i * one).natAbs ≤ ((finite negative units).rank - i * one).natAbs

/-- **The number of an integer of 64 bits is the nearest one.** -/
theorem isNearest_ofInt (i : Int64) : (ofInt i.toInt).IsNearest i.toInt := by
  have hlow : -2 ^ 63 ≤ i.toInt := i.minValue_le_toInt
  have hhigh : i.toInt ≤ 2 ^ 63 := Int.le_trans i.toInt_le (by decide)
  intro negative units hunits
  have hrank : (finite negative units).rank = units ∨ (finite negative units).rank = -units := by
    cases negative with
    | false => exact Or.inl rfl
    | true => exact Or.inr rfl
  rcases Int.lt_or_le i.toInt 0 with hi | hi
  · obtain ⟨n, hn⟩ := Int.exists_eq_neg_ofNat (Int.le_of_lt hi)
    have hnearest := unitsOf_nearest (n := n) (by omega) hunits
    rw [hn, rank_ofInt_neg, Int.neg_mul, ← Int.natCast_mul]
    omega
  · obtain ⟨n, hn⟩ := Int.eq_ofNat_of_zero_le hi
    have hnearest := unitsOf_nearest (n := n) (by omega) hunits
    rw [hn, rank_ofInt_natCast, ← Int.natCast_mul]
    omega

end FluentTables.Binary64
