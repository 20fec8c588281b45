import FluentTables.Decimal.Numeral

/-!
# Reading JSON

A text is first taken apart into a `Json.Tree`, which checks its form only: a number keeps its digits, a string
with half a surrogate pair has no text. What a reader of the tree does not look at is not judged any further.
-/

namespace FluentTables.Json

/-- A JSON text taken apart. -/
inductive Tree where
  | null
  | bool (b : Bool)
  | number (n : Numeral)
  /-- A string, or none if an escape names half a surrogate pair. -/
  | string (s : Option String)
  | array (items : List Tree)
  | object (fields : List (Option String × Tree))

/-- The white space between tokens. -/
def isGap (c : Char) : Bool := c == ' ' || c == '\n' || c == '\t' || c == '\r'

/-- A text without the white space it begins with. -/
def skipGap (s : List Char) : List Char := s.dropWhile isGap

/-- A string being read. -/
structure StringBuffer where
  /-- What was read, last character first; none once half a pair stood alone. -/
  done : Option (List Char) := some []
  /-- The first half of a pair, if it was just read. -/
  half : Option Nat := none

namespace StringBuffer

/-- A character was read. -/
def char (b : StringBuffer) (c : Char) : StringBuffer :=
  { done := if b.half.isSome then none else b.done.map (c :: ·) }

/-- An escaped unit of 16 bits was read. -/
def unit (b : StringBuffer) (n : Nat) : StringBuffer :=
  match b.half with
  | some h =>
    if 0xDC00 ≤ n && n < 0xE000 then
      { done := b.done.map (Char.ofNat (0x10000 + (h - 0xD800) * 0x400 + (n - 0xDC00)) :: ·) }
    else { done := none }
  | none =>
    if 0xD800 ≤ n && n < 0xDC00 then { b with half := some n }
    else if 0xDC00 ≤ n && n < 0xE000 then { done := none }
    else b.char (Char.ofNat n)

/-- The string that was read. -/
def finish (b : StringBuffer) : Option String := if b.half.isSome then none else b.done.map (String.ofList ·.reverse)

end StringBuffer

/-- The value of a hexadecimal digit. -/
def hexDigit? (c : Char) : Option Nat :=
  if '0' ≤ c && c ≤ '9' then some (c.toNat - '0'.toNat)
  else if 'a' ≤ c && c ≤ 'f' then some (c.toNat - 'a'.toNat + 10)
  else if 'A' ≤ c && c ≤ 'F' then some (c.toNat - 'A'.toNat + 10)
  else none

/-- The value of four hexadecimal digits. -/
def hex4? (a b c d : Char) : Option Nat := do
  return (((← hexDigit? a) * 16 + (← hexDigit? b)) * 16 + (← hexDigit? c)) * 16 + (← hexDigit? d)

/-- The character that a backslash and a letter stand for. -/
def unescape? (c : Char) : Option Char :=
  if c == '"' || c == '\\' || c == '/' then some c
  else if c == 'b' then some (Char.ofNat 8)
  else if c == 'f' then some (Char.ofNat 12)
  else if c == 'n' then some '\n'
  else if c == 'r' then some '\r'
  else if c == 't' then some '\t'
  else none

/-- A string up to its closing quote, and what follows. -/
def readString (b : StringBuffer) : List Char → Option (Option String × List Char)
  | [] => none
  | '"' :: r => some (b.finish, r)
  | '\\' :: 'u' :: d₁ :: d₂ :: d₃ :: d₄ :: r =>
    match hex4? d₁ d₂ d₃ d₄ with
    | some n => readString (b.unit n) r
    | none => none
  | '\\' :: e :: r =>
    match unescape? e with
    | some c => readString (b.char c) r
    | none => none
  | c :: r => if c.toNat < 0x20 || c == '\\' then none else readString (b.char c) r

/-- Digits, one at least, and what follows. -/
def readDigits (s : List Char) : Option (List Char × List Char) :=
  match s.span Char.isDigit with
  | ([], _) => none
  | (ds, r) => some (ds, r)

/-- The digits before the point: a zero alone, or no zero in front. -/
def readWhole (s : List Char) : Option (List Char × List Char) :=
  match readDigits s with
  | some ('0' :: _ :: _, _) => none
  | x => x

/-- A fraction, if there is one. -/
def readFraction : List Char → Option (Option (List Char) × List Char)
  | '.' :: r => (readDigits r).map fun (ds, r) => (some ds, r)
  | s => some (none, s)

/-- An exponent, if there is one. -/
def readExponent : List Char → Option (Option (Bool × List Char) × List Char)
  | c :: r =>
    if Numeral.isExponentMark c then
      let (negative, r) := Numeral.splitSign r
      (readDigits r).map fun (ds, r) => (some (negative, ds), r)
    else some (none, c :: r)
  | [] => some (none, [])

/-- A number and what follows. -/
def readNumber (s : List Char) : Option (Numeral × List Char) := do
  let (negative, s) := match s with
    | '-' :: r => (true, r)
    | r => (false, r)
  let (whole, s) ← readWhole s
  let (fraction, s) ← readFraction s
  let (exponent, s) ← readExponent s
  return (⟨negative, whole, fraction, exponent⟩, s)

/-- A text that a word begins, without the word. -/
def afterWord? (word s : List Char) : Option (List Char) :=
  if word.isPrefixOf s then some (s.drop word.length) else none

mutual

/-- A value and what follows. Each step of the recursion uses up one of `n`. -/
def readValue : Nat → List Char → Option (Tree × List Char)
  | 0, _ => none
  | n + 1, s =>
    match skipGap s with
    | '"' :: r => (readString {} r).map fun (t, r) => (.string t, r)
    | '[' :: r =>
      match skipGap r with
      | ']' :: r => some (.array [], r)
      | r => readItems n [] r
    | '{' :: r =>
      match skipGap r with
      | '}' :: r => some (.object [], r)
      | r => readFields n [] r
    | 'n' :: r => (afterWord? "ull".toList r).map (Tree.null, ·)
    | 't' :: r => (afterWord? "rue".toList r).map (Tree.bool true, ·)
    | 'f' :: r => (afterWord? "alse".toList r).map (Tree.bool false, ·)
    | r => (readNumber r).map fun (x, r) => (.number x, r)

/-- The elements of an array after those of `acc`, and what follows the array. -/
def readItems : Nat → List Tree → List Char → Option (Tree × List Char)
  | 0, _, _ => none
  | n + 1, acc, s =>
    match readValue n s with
    | none => none
    | some (t, r) =>
      match skipGap r with
      | ',' :: r => readItems n (t :: acc) r
      | ']' :: r => some (.array (t :: acc).reverse, r)
      | _ => none

/-- The fields of an object after those of `acc`, and what follows the object. -/
def readFields : Nat → List (Option String × Tree) → List Char → Option (Tree × List Char)
  | 0, _, _ => none
  | n + 1, acc, s =>
    match skipGap s with
    | '"' :: r =>
      match readString {} r with
      | none => none
      | some (k, r) =>
        match skipGap r with
        | ':' :: r =>
          match readValue n r with
          | none => none
          | some (t, r) =>
            match skipGap r with
            | ',' :: r => readFields n ((k, t) :: acc) r
            | '}' :: r => some (.object ((k, t) :: acc).reverse, r)
            | _ => none
        | _ => none
    | _ => none

end

/-- A whole text taken apart. Every step but every second one takes a character away. -/
def Tree.read? (s : List Char) : Option Tree :=
  match readValue (2 * s.length + 2) s with
  | some (t, r) => if (skipGap r).isEmpty then some t else none
  | none => none

end FluentTables.Json
