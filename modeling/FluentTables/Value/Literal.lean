import FluentTables.Value.Basic
import FluentTables.Text.Quoted

/-!
# Literals

A literal stands for null, a truth value, a number or a text. Quotes around it make no difference, except that null
is null only without them.
-/

namespace FluentTables.Value

/-- The value of a number. What is written as an integer of 64 bits is that integer. Every other number is rounded, and
is brought back to an integer if it was written as one and the rounded one is in range. -/
def ofNumeralText (n : Numeral) : Value :=
  if n.isInteger && fitsInt64 n.wholeValue then int (Int64.ofInt n.wholeValue)
  else
    let x := n.toBinary64
    if n.isInteger && x.isWhole && x.abs.numLt (.ofInt Int64.maxValue.toInt) then int x.truncate else float x

/-- The value of a literal without its quotes. -/
def ofBareLiteral (s : List Char) : Value :=
  if s = "true".toList then bool true
  else if s = "false".toList then bool false
  else match Numeral.parse? s with
    | some n => ofNumeralText n
    | none => text (String.ofList s)

/-- The value of a literal. -/
def ofLiteral (s : List Char) : Value :=
  if Text.trim s = "null".toList then null else ofBareLiteral (Text.stripQuotes s)

end FluentTables.Value
