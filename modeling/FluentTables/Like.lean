import FluentTables.Text.Case
import FluentTables.Text.Lines

/-!
# Wildcard matching

A pattern is cut at its percent signs; its pieces have to occur in the text one after another, letters in either
case, and what lies between two pieces may hold anything but a line feed. Marks on the places of the text say where
the pieces matched so far may end.
-/

namespace FluentTables.Like

/-- A text begins with a piece, letters in either case. -/
def beginsWith : List Char → List Char → Bool
  | [], _ => true
  | _ :: _, [] => false
  | p :: ps, c :: cs => Text.foldChar p == Text.foldChar c && beginsWith ps cs

/-- What follows each place of a text. -/
def suffixes : List Char → List (List Char)
  | [] => [[]]
  | c :: r => (c :: r) :: suffixes r

/-- Marks moved over a piece: a place is marked if the piece ends there and begins at a marked place. -/
def afterPiece (piece text : List Char) (marks : List Bool) : List Bool :=
  let hits := List.zipWith (fun m s => m && beginsWith piece s) marks (suffixes text)
  (List.replicate piece.length false ++ hits).take marks.length

/-- Marks spread over a gap: a place is marked if one before it is, with no line feed between. -/
def afterGap : (carry : Bool) → List Char → List Bool → List Bool
  | _, _, [] => []
  | carry, [], m :: _ => [carry || m]
  | carry, c :: r, m :: ms => (carry || m) :: afterGap ((carry || m) && c != '\n') r ms

/-- Marks after the pieces that follow a gap each. -/
def afterPieces (text : List Char) (marks : List Bool) : List (List Char) → List Bool
  | [] => marks
  | p :: ps => afterPieces text (afterPiece p text (afterGap false text marks)) ps

/-- The pattern matches somewhere in the text. -/
def isMatch (text pattern : List Char) : Bool :=
  let all := List.replicate (text.length + 1) true
  match Text.splitOn '%' pattern with
  | [] => true
  | p :: ps => (afterPieces text (afterPiece p text all) ps).any id

end FluentTables.Like
