import FluentTables.Text.Blank

/-!
# Quotes, brackets and argument lists

An argument list is cut at the commas outside quotes and brackets. `ArgState` is what a reader of such a list
knows at a place: the open quote, whether the next character is escaped, and the bracket depth.
-/

namespace FluentTables.Text

/-- Single and double quotes. -/
def isQuote (c : Char) : Bool := c == '\'' || c == '"'

/-- Opening brackets. -/
def isOpener (c : Char) : Bool := c == '(' || c == '[' || c == '{'

/-- Closing brackets. -/
def isCloser (c : Char) : Bool := c == ')' || c == ']' || c == '}'

/-- A text without white space and then without quotes at its two ends. -/
def stripQuotes (s : List Char) : List Char := trimBy isQuote (trim s)

/-- What a reader of an argument list knows. The depth has no bound; a counter of 32 bits agrees with it as long as the
list holds fewer than `2 ^ 31` brackets. -/
structure ArgState where
  quote : Option Char := none
  escaped : Bool := false
  depth : Int := 0
deriving DecidableEq

namespace ArgState

/-- The state after one more character. Inside quotes a backslash shields the next character. -/
def step (st : ArgState) (c : Char) : ArgState :=
  match st.quote with
  | some q =>
    if st.escaped then { st with escaped := false }
    else if c == '\\' then { st with escaped := true }
    else if c == q then { st with quote := none }
    else st
  | none =>
    if isQuote c then { st with quote := some c }
    else if isOpener c then { st with depth := st.depth + 1 }
    else if isCloser c then { st with depth := st.depth - 1 }
    else st

/-- A comma here ends an argument. -/
def atTop (st : ArgState) : Bool := st.quote.isNone && st.depth == 0

/-- The state after a text. -/
def run (st : ArgState) (s : List Char) : ArgState := s.foldl step st

theorem run_append (st : ArgState) (s t : List Char) : st.run (s ++ t) = (st.run s).run t := by
  simp [run]

end ArgState

/-- The arguments of `acc.reverse ++ s` when the text so far has led to `st`. -/
def splitArgsFrom (st : ArgState) (acc : List Char) : List Char → List (List Char)
  | [] => if (trim acc.reverse).isEmpty then [] else [trim acc.reverse]
  | c :: r =>
    if c == ',' && st.atTop then trim acc.reverse :: splitArgsFrom st [] r
    else splitArgsFrom (st.step c) (c :: acc) r

/-- The arguments of a list, trimmed; an empty last one is dropped. -/
def splitArgs (s : List Char) : List (List Char) := splitArgsFrom {} [] s

/-- The quoted names of a text that follows `quoted`: the open quote and what it holds so far. -/
def quotedNamesFrom : Option (Char × List Char) → List Char → List (List Char)
  | none, [] => []
  | some (_, acc), [] => if acc.isEmpty then [] else [acc.reverse]
  | none, c :: r => if isQuote c then quotedNamesFrom (some (c, [])) r else quotedNamesFrom none r
  | some (q, acc), c :: r =>
    if c == q then
      if acc.isEmpty then quotedNamesFrom none r else acc.reverse :: quotedNamesFrom none r
    else quotedNamesFrom (some (q, c :: acc)) r

/-- Every name in quotes, in order; the last may lack its closing quote. -/
def quotedNames (s : List Char) : List (List Char) := quotedNamesFrom none s

/-- Open brackets less closed ones, outside quotes; `quote` is the open quote. -/
def bracketBalanceFrom : Option Char → List Char → Int
  | _, [] => 0
  | some q, c :: r => bracketBalanceFrom (if c == q then none else some q) r
  | none, c :: r =>
    if isQuote c then bracketBalanceFrom (some c) r
    else if isOpener c then bracketBalanceFrom none r + 1
    else if isCloser c then bracketBalanceFrom none r - 1
    else bracketBalanceFrom none r

/-- Open brackets of a line less closed ones, outside quotes. The balance has no bound; a counter of 32 bits agrees
with it as long as fewer than `2 ^ 31` brackets are counted. -/
def bracketBalance (s : List Char) : Int := bracketBalanceFrom none s

end FluentTables.Text
