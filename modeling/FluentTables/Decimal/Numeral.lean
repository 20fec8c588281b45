import FluentTables.Decimal.Binary64
import FluentTables.Text.Blank

/-!
# Numerals

A numeral is an optional sign, digits with an optional fraction, and an optional exponent; white space may stand
around it. `Numeral.parse?` takes it apart, and `Numeral.toBinary64` is the nearest number.
-/

namespace FluentTables

/-- A numeral taken apart: a fraction or an exponent may be there without being anything but zero. -/
structure Numeral where
  negative : Bool
  whole : List Char
  fraction : Option (List Char)
  /-- The sign of the exponent, negative or not, and its digits. -/
  exponent : Option (Bool × List Char)
deriving DecidableEq

namespace Numeral

/-- The number that decimal digits denote. -/
def digitsValue (ds : List Char) : Nat := ds.foldl (fun n c => 10 * n + (c.toNat - '0'.toNat)) 0

/-- A sign, if there is one, and what follows it. -/
def splitSign : List Char → Bool × List Char
  | '+' :: r => (false, r)
  | '-' :: r => (true, r)
  | s => (false, s)

/-- Only ASCII digits. -/
def allDigits (s : List Char) : Bool := s.all Char.isDigit

/-- The digits before a point and, if there is one, those after it; not both may be missing. -/
def mantissa? (s : List Char) : Option (List Char × Option (List Char)) :=
  match s.span (· != '.') with
  | (w, []) => if !w.isEmpty && allDigits w then some (w, none) else none
  | (w, _ :: f) => if allDigits w && allDigits f && !(w.isEmpty && f.isEmpty) then some (w, some f) else none

/-- The sign and the digits of an exponent. -/
def exponent? (s : List Char) : Option (Bool × List Char) :=
  let (negative, ds) := splitSign s
  if !ds.isEmpty && allDigits ds then some (negative, ds) else none

/-- The letter before an exponent. -/
def isExponentMark (c : Char) : Bool := c == 'e' || c == 'E'

/-- A numeral without white space taken apart. -/
def ofTrimmed? (s : List Char) : Option Numeral :=
  let (negative, body) := splitSign s
  match body.span (!isExponentMark ·) with
  | (m, []) => (mantissa? m).map fun p => ⟨negative, p.1, p.2, none⟩
  | (m, _ :: e) =>
    match mantissa? m, exponent? e with
    | some p, some x => some ⟨negative, p.1, p.2, some x⟩
    | _, _ => none

/-- A numeral taken apart. -/
def parse? (s : List Char) : Option Numeral := ofTrimmed? (Text.trim s)

/-- Digits only, with or without a sign. -/
def isInteger (n : Numeral) : Bool := n.fraction.isNone && n.exponent.isNone

/-- The value of the digits before the point. -/
def wholeValue (n : Numeral) : Int :=
  if n.negative then -(digitsValue n.whole) else digitsValue n.whole

/-- The value of the exponent. -/
def exponentValue (n : Numeral) : Int :=
  match n.exponent with
  | none => 0
  | some (negative, ds) => if negative then -(digitsValue ds) else digitsValue ds

/-- The digits of the fraction. -/
def fractionDigits (n : Numeral) : List Char := n.fraction.getD []

/-- The nearest number. -/
def toBinary64 (n : Numeral) : Binary64 :=
  Binary64.ofDecimal n.negative (digitsValue (n.whole ++ n.fractionDigits))
    (n.exponentValue - n.fractionDigits.length)

end Numeral

/-- An integer has 64 bits. -/
def fitsInt64 (i : Int) : Bool := Int64.minValue.toInt ≤ i && i ≤ Int64.maxValue.toInt

end FluentTables
