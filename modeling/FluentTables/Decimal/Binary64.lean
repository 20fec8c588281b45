/-!
# Binary floating-point numbers of 64 bits

A finite number is a whole number of units of `2 ^ -1074`, with a sign that zero has too; there is no NaN.
`roundQuotient` rounds a quotient of natural numbers to 53 significant bits, to the nearest and ties to even, and
every operation is its exact result so rounded.
-/

namespace FluentTables

/-- A binary floating-point number of 64 bits. -/
inductive Binary64 where
  /-- A number of units of `2 ^ -1074`. -/
  | finite (negative : Bool) (units : Nat)
  | infinite (negative : Bool)
deriving DecidableEq

namespace Binary64

/-- Units in one. -/
def one : Nat := 1 <<< 1074

/-- Units in the first power of two that is too large. -/
def limit : Nat := 1 <<< 2098

/-- How many low bits a number of units has to lack. -/
def spareBits (units : Nat) : Nat := units.log2 - 52

/-- A quotient rounded to 53 significant bits, ties to even. -/
def roundQuotient (num den : Nat) : Nat :=
  let shift := spareBits (num / den)
  let step := den <<< shift
  let q := num / step
  let r := num % step
  (if step < 2 * r || (2 * r == step && q % 2 == 1) then q + 1 else q) <<< shift

/-- A number of units that a finite number can have. -/
def Representable (units : Nat) : Prop := 1 <<< spareBits units ∣ units ∧ units < limit

/-- The number nearest to `num / den` units. -/
def ofUnitRatio (negative : Bool) (num den : Nat) : Binary64 :=
  let u := roundQuotient num den
  if u < limit then finite negative u else infinite negative

/-- The number nearest to `num / den`. -/
def ofRatio (negative : Bool) (num den : Nat) : Binary64 := ofUnitRatio negative (num * one) den

/-- The number nearest to an integer. -/
def ofInt (i : Int) : Binary64 := ofRatio (i < 0) i.natAbs 1

/-- The number nearest to `digits * 10 ^ exponent`. The two cut-offs only spare work: past them the result is
infinite or zero anyway. -/
def ofDecimal (negative : Bool) (digits : Nat) (exponent : Int) : Binary64 :=
  if digits = 0 then finite negative 0
  else if 400 < exponent then infinite negative
  else if digits.log2 + 3 * exponent < -1100 then finite negative 0
  else if 0 ≤ exponent then ofRatio negative (digits * Nat.pow 10 exponent.toNat) 1
  else ofRatio negative digits (Nat.pow 10 (-exponent).toNat)

/-- The other sign. -/
def neg : Binary64 → Binary64
  | finite n u => finite (!n) u
  | infinite n => infinite (!n)

/-- The number without its sign. -/
def abs : Binary64 → Binary64
  | finite _ u => finite false u
  | infinite _ => infinite false

/-- The signed number of units; an infinite number counts as the first that is too large. -/
def rank : Binary64 → Int
  | finite true u => -u
  | finite false u => u
  | infinite true => -limit
  | infinite false => limit

/-- Equal as numbers: the two zeros are equal. -/
def numEq (a b : Binary64) : Bool := a.rank == b.rank

/-- Less as numbers. -/
def numLt (a b : Binary64) : Bool := a.rank < b.rank

/-- Less or equal as numbers. -/
def numLe (a b : Binary64) : Bool := a.rank ≤ b.rank

/-- Zero of either sign. -/
def isZero (a : Binary64) : Bool := a.rank == 0

/-- A finite number without a fraction. -/
def isWhole : Binary64 → Bool
  | finite _ u => u % one == 0
  | infinite _ => false

/-- The number without its fraction, brought into the range of 64-bit integers. -/
def truncate : Binary64 → Int64
  | finite true u => Int64.ofIntClamp (-(u / one : Nat))
  | finite false u => Int64.ofIntClamp (u / one : Nat)
  | infinite true => Int64.minValue
  | infinite false => Int64.maxValue

/-- The product of two numbers without sign, with the sign given. -/
def mulUnits (negative : Bool) (a b : Nat) : Binary64 := ofUnitRatio negative (a * b) one

/-- The quotient of two numbers without sign, with the sign given. -/
def divUnits (negative : Bool) (a b : Nat) : Binary64 := ofUnitRatio negative (a * one) b

end Binary64

end FluentTables
