import FluentTables.Decimal.Numeral

/-!
# Numbers in JSON texts

An integer of 64 bits stays an integer; minus zero, larger integers and numbers with a fraction or an exponent are
floating-point numbers. Such a number is read from its leading digits, as many as fit 64 bits, which are multiplied
or divided by a power of ten; it may therefore miss the nearest number by a little. A number too large is refused.
-/

namespace FluentTables.Json

/-- Leading digits of a number, and the power of ten that they are short of it. -/
structure Leading where
  digits : Nat
  exponent : Int

namespace Leading

/-- One more digit would not fit 64 bits. -/
def overflows (digits : Nat) (c : Char) : Bool := UInt64.size ≤ 10 * digits + (c.toNat - '0'.toNat)

/-- The digits before the point. After the first that does not fit, each only raises the exponent. -/
def readWhole (digits : Nat) : List Char → Leading
  | [] => ⟨digits, 0⟩
  | c :: r =>
    if overflows digits c then ⟨digits, r.length + 1⟩
    else readWhole (10 * digits + (c.toNat - '0'.toNat)) r

/-- The digits after the point. After the first that does not fit, the rest is passed over. -/
def readFraction (x : Leading) : List Char → Leading
  | [] => x
  | c :: r =>
    if overflows x.digits c then x
    else readFraction ⟨10 * x.digits + (c.toNat - '0'.toNat), x.exponent - 1⟩ r

/-- The nearest number to a power of ten, in units. -/
def powerUnits (n : Nat) : Nat :=
  match Binary64.ofRatio false (Nat.pow 10 n) 1 with
  | .finite _ u => u
  | .infinite _ => Binary64.limit

/-- A number without sign times a power of ten, in at most `n` steps down; none if it is too large. -/
def scale : Nat → Nat → Int → Option Binary64
  | 0, _, _ => some (.finite false 0)
  | n + 1, units, e =>
    if e.natAbs ≤ 308 then
      if 0 ≤ e then
        match Binary64.mulUnits false units (powerUnits e.natAbs) with
        | .finite s u => some (.finite s u)
        | .infinite _ => none
      else some (Binary64.divUnits false units (powerUnits e.natAbs))
    else if units = 0 then some (.finite false 0)
    else if 0 ≤ e then none
    else
      match Binary64.divUnits false units (powerUnits 308) with
      | .finite _ u => scale n u (e + 308)
      | .infinite _ => none

/-- The number without its sign; none if it is too large. -/
def toBinary64? (x : Leading) : Option Binary64 :=
  match Binary64.ofRatio false x.digits 1 with
  | .finite _ u => scale 4 u x.exponent
  | .infinite _ => none

end Leading

/-- The exponents that are told apart; a larger one counts as infinite. -/
def exponentLimit : Nat := Int32.size / 2

/-- The floating-point number of a numeral; none if it is too large. -/
def float? (n : Numeral) : Option Binary64 :=
  let x := (Leading.readWhole 0 n.whole).readFraction n.fractionDigits
  let result :=
    match n.exponent with
    | none => x.toBinary64?
    | some (negative, ds) =>
      let e := Numeral.digitsValue ds
      if exponentLimit ≤ e then
        if x.digits ≠ 0 && !negative then none else some (.finite false 0)
      else Leading.toBinary64? ⟨x.digits, if negative then x.exponent - e else x.exponent + e⟩
  if n.negative then result.map Binary64.neg else result

/-- The integer of a numeral, if it is one of 64 bits; minus zero is none. -/
def int? (n : Numeral) : Option Int64 :=
  if n.isInteger && fitsInt64 n.wholeValue && !(n.negative && n.wholeValue == 0) then some (Int64.ofInt n.wholeValue)
  else none

end FluentTables.Json
