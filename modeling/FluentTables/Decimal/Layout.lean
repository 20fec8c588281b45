import FluentTables.Decimal.Shortest

/-!
# Number texts

Two texts of a number are in use. A displayed number is written out in full and has a fraction only if it needs
one; a stored number has a fraction or an exponent always, so that it reads back as a number of its kind.
-/

namespace FluentTables

namespace Decimal

/-- The digits of the coefficient. -/
def digits (d : Decimal) : List Char := Nat.toDigits 10 d.coefficient

/-- The exponent of the first digit. -/
def order (d : Decimal) : Int := d.exponent + d.digits.length - 1

/-- The number written out in full. -/
def positional (d : Decimal) : List Char :=
  if 0 ≤ d.exponent then d.digits ++ List.replicate d.exponent.toNat '0'
  else
    let places := (-d.exponent).toNat
    let padded := List.replicate (places + 1 - d.digits.length) '0' ++ d.digits
    padded.take (padded.length - places) ++ '.' :: padded.drop (padded.length - places)

/-- The number with one digit before the point and its exponent, which always has a sign. -/
def scientific (d : Decimal) : List Char :=
  let fraction := d.digits.drop 1
  let point := if fraction.isEmpty then [] else '.' :: fraction
  let sign := if d.order < 0 then '-' else '+'
  d.digits.take 1 ++ point ++ 'e' :: sign :: Nat.toDigits 10 d.order.natAbs

end Decimal

namespace Binary64

/-- The text of a displayed number: never an exponent, a fraction only if there is one. -/
def display : Binary64 → List Char
  | finite n u => (if n then ['-'] else []) ++ (Decimal.shortest .up u).positional
  | infinite n => (if n then ['-'] else []) ++ "inf".toList

/-- The text of a stored number: from `1e-5` to below `1e16` in full, with one decimal at least, and otherwise
with an exponent. An infinite number has none. -/
def stored? : Binary64 → Option (List Char)
  | finite n u =>
    let d := Decimal.shortest .even u
    let body :=
      if -5 ≤ d.order && d.order < 16 then
        if 0 ≤ d.exponent then d.positional ++ ['.', '0'] else d.positional
      else d.scientific
    some ((if n then ['-'] else []) ++ body)
  | infinite _ => none

/-- The text of a number that takes part in a comparison of keys: a whole number below `1e15` is written as an
integer. -/
def key (a : Binary64) : List Char :=
  if a.isWhole && a.rank.natAbs < Nat.pow 10 15 * one then (toString a.truncate).toList else a.display

end Binary64

end FluentTables
