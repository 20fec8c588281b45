import FluentTables.Decimal.Binary64

/-!
# Shortest decimal digits

The shortest decimal of a number is the one with the fewest digits among those that round to the number, and of
two with equally few digits the nearer one. `Tie` says which of two equally near ones is taken.
-/

namespace FluentTables

/-- Which of two equally near decimals is taken. -/
inductive Tie where
  | up
  | even
deriving DecidableEq

/-- The decimal number `coefficient * 10 ^ exponent`. -/
structure Decimal where
  coefficient : Nat
  exponent : Int
deriving DecidableEq

namespace Decimal

/-- The numbers of units that round to `units`, in quarters of a unit. -/
structure Interval where
  low : Nat
  high : Nat
  /-- The ends belong to the interval. -/
  closed : Bool

/-- The interval around a number of units. Below a power of two the neighbours are twice as close. -/
def Interval.around (units : Nat) : Interval :=
  let shift := Binary64.spareBits units
  let below := if units == 1 <<< (52 + shift) && shift != 0 then 1 <<< shift else 2 <<< shift
  ⟨4 * units - below, 4 * units + 2 <<< shift, units >>> shift % 2 == 0⟩

/-- `quarters / scale` lies in the interval. -/
def Interval.contains (i : Interval) (quarters scale : Nat) : Bool :=
  if i.closed then i.low * scale ≤ quarters && quarters ≤ i.high * scale
  else i.low * scale < quarters && quarters < i.high * scale

/-- The exponent of the largest power of ten that is not greater than a number of units. -/
def leadingExponent (units : Nat) : Int :=
  let guess := ((units.log2 : Int) - 1074) * 30103 / 100000
  let atLeast (e : Int) : Bool :=
    if 0 ≤ e then Binary64.one * Nat.pow 10 e.toNat ≤ units else Binary64.one ≤ units * Nat.pow 10 (-e).toNat
  if !atLeast guess then guess - 1 else if atLeast (guess + 1) then guess + 1 else guess

/-- The decimal of the grid `10 ^ exponent` that is nearest to a number of units, among the two neighbours that
round to it. -/
def onGrid? (tie : Tie) (units : Nat) (i : Interval) (exponent : Int) : Option Decimal :=
  let scale := Nat.pow 10 (-exponent).toNat
  let step := Binary64.one * Nat.pow 10 exponent.toNat
  let lower := units * scale / step
  let rest := units * scale % step
  let fits (c : Nat) : Bool := i.contains (4 * c * step) scale
  match fits lower, fits (lower + 1) with
  | false, false => none
  | true, false => some ⟨lower, exponent⟩
  | false, true => some ⟨lower + 1, exponent⟩
  | true, true =>
    let takeUpper := step < 2 * rest || (2 * rest == step && (tie = .up || lower % 2 == 1))
    some ⟨if takeUpper then lower + 1 else lower, exponent⟩

/-- The first grid with a hit, among those with `n` or more digits, `left` of them in all. -/
def firstGrid (tie : Tie) (units : Nat) (i : Interval) (exponent : Int) : Nat → Decimal
  | 0 => ⟨units, exponent⟩
  | left + 1 => (onGrid? tie units i exponent).getD (firstGrid tie units i (exponent - 1) left)

/-- A decimal with as many trailing zeros of its coefficient in the exponent, at most `n`. -/
def strip : Nat → Decimal → Decimal
  | 0, d => d
  | n + 1, d => if d.coefficient % 10 == 0 then strip n ⟨d.coefficient / 10, d.exponent + 1⟩ else d

/-- The shortest decimal of a number of units. -/
def shortest (tie : Tie) (units : Nat) : Decimal :=
  if units = 0 then ⟨0, 0⟩
  else strip 17 (firstGrid tie units (Interval.around units) (leadingExponent units) 17)

end Decimal

end FluentTables
