import FluentTables.Json.Reader

/-!
# Parameters

The part of a request target after a question mark gives names their values, in the form encoding: pairs are kept
apart by ampersands, a plus stands for a blank, and a percent sign with two hexadecimal digits for a byte.
-/

namespace FluentTables.Api

/-- The bytes of a name or value. A percent sign without two digits stands for itself. -/
def decodeForm : List Char → List UInt8
  | '%' :: a :: b :: r =>
    match Json.hexDigit? a, Json.hexDigit? b with
    | some x, some y => UInt8.ofNat (16 * x + y) :: decodeForm r
    | _, _ => String.utf8EncodeChar '%' ++ decodeForm (a :: b :: r)
  | '+' :: r => String.utf8EncodeChar ' ' ++ decodeForm r
  | c :: r => String.utf8EncodeChar c ++ decodeForm r
  | [] => []

/-- The bytes of a text. -/
def bytes (s : String) : List UInt8 := s.toList.flatMap String.utf8EncodeChar

/-- The parts of a text between the characters `c`. -/
def partsAt (c : Char) : List Char → List (List Char)
  | [] => [[]]
  | d :: r =>
    if d == c then [] :: partsAt c r
    else match partsAt c r with
      | p :: ps => (d :: p) :: ps
      | [] => [[d]]

/-- A text cut at its first character `c`, which is left out. -/
def cutAt (c : Char) (s : List Char) : List Char × List Char :=
  (s.takeWhile (· != c), (s.dropWhile (· != c)).drop 1)

/-- The names and values of parameters. -/
def parameters (s : List Char) : List (List UInt8 × List UInt8) :=
  ((partsAt '&' s).filter (!·.isEmpty)).map fun p => ((decodeForm (cutAt '=' p).1), decodeForm (cutAt '=' p).2)

/-- The values given to a name. -/
def valuesOf (name : String) (s : List Char) : List (List UInt8) :=
  ((parameters s).filter (·.1 == bytes name)).map (·.2)

end FluentTables.Api
