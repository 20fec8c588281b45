import FluentTables.Decimal.Numeral
import FluentTables.Json.Reader
import FluentTables.Toml.Basic

/-!
# Reading TOML

A document is read line by line: a header opens a table, and a key with a value adds a field to the table that was
opened last. Any fault refuses the whole document.
-/

namespace FluentTables.Toml

/-- A space or a tab. -/
def isSpace (c : Char) : Bool := c == ' ' || c == '\t'

/-- A text without the spaces it begins with. -/
def skipSpaces (s : List Char) : List Char := s.dropWhile isSpace

/-- A character that a comment or a string may hold as it is. -/
def isPlain (c : Char) : Bool := c == '\t' || (0x20 ≤ c.toNat && c.toNat != 0x7F)

/-- What follows a comment, if there is one. -/
def skipComment : List Char → List Char
  | '#' :: r => r.dropWhile isPlain
  | s => s

/-- What follows the end of a line, which the end of the text is too. -/
def lineEnd? : List Char → Option (List Char)
  | [] => some []
  | '\n' :: r => some r
  | '\r' :: '\n' :: r => some r
  | _ => none

/-- What follows a line of which only spaces and a comment are left. -/
def restOfLine? (s : List Char) : Option (List Char) := lineEnd? (skipComment (skipSpaces s))

/-- What follows spaces, comments and line ends, at most `n` of them. -/
def skipLines : Nat → List Char → List Char
  | 0, s => s
  | n + 1, s =>
    match skipComment (skipSpaces s) with
    | '\n' :: r => skipLines n r
    | '\r' :: '\n' :: r => skipLines n r
    | r => r

/-- What follows spaces and line ends. -/
def skipBlankLines : List Char → List Char
  | '\n' :: r => skipBlankLines r
  | '\r' :: '\n' :: r => skipBlankLines r
  | c :: r => if isSpace c then skipBlankLines r else c :: r
  | [] => []

/-- The character that a letter after a backslash stands for. -/
def unescape? (c : Char) : Option Char :=
  if c == '"' || c == '\\' then some c
  else if c == 'b' then some (Char.ofNat 8)
  else if c == 't' then some '\t'
  else if c == 'n' then some '\n'
  else if c == 'f' then some (Char.ofNat 12)
  else if c == 'r' then some '\r'
  else none

/-- The character of a code point in hexadecimal digits. -/
def hexChar? (ds : List Char) : Option Char :=
  match ds.mapM Json.hexDigit? with
  | some vs =>
    let n := vs.foldl (fun n v => 16 * n + v) 0
    if h : n.isValidChar then some (Char.ofNatAux n h) else none
  | none => none

/-- The character of an escape, after its backslash, and what follows. -/
def readEscape : List Char → Option (Char × List Char)
  | 'u' :: r => if r.length < 4 then none else (hexChar? (r.take 4)).map (·, r.drop 4)
  | 'U' :: r => if r.length < 8 then none else (hexChar? (r.take 8)).map (·, r.drop 8)
  | c :: r => (unescape? c).map (·, r)
  | [] => none

/-- A string in double quotes, after the first, and what follows; at most `n` characters. -/
def readBasic : Nat → List Char → List Char → Option (List Char × List Char)
  | 0, _, _ => none
  | n + 1, acc, s =>
    match s with
    | '"' :: r => some (acc.reverse, r)
    | '\\' :: r =>
      match readEscape r with
      | some (c, r) => readBasic n (c :: acc) r
      | none => none
    | c :: r => if isPlain c then readBasic n (c :: acc) r else none
    | [] => none

/-- A string in single quotes, after the first, and what follows. -/
def readLiteral (s : List Char) : Option (List Char × List Char) :=
  match s.span (fun c => isPlain c && c != '\'') with
  | (t, '\'' :: r) => some (t, r)
  | _ => none

/-- What follows a backslash at the end of a line: the next line that is not blank. -/
def continuation? (s : List Char) : Option (List Char) :=
  match skipSpaces s with
  | '\n' :: r => some (skipBlankLines r)
  | '\r' :: '\n' :: r => some (skipBlankLines r)
  | _ => none

/-- A string over several lines, after the three quotes that open it, and what follows. Two more quotes may stand
before the three that close it. -/
def readLong (q : Char) : Nat → List Char → List Char → Option (List Char × List Char)
  | 0, _, _ => none
  | n + 1, acc, s =>
    match s with
    | '\n' :: r => readLong q n ('\n' :: acc) r
    | '\r' :: '\n' :: r => readLong q n ('\n' :: acc) r
    | c :: r =>
      if c == q then
        match (c :: r).span (· == q) with
        | (qs, rest) =>
          if qs.length < 3 then readLong q n (qs ++ acc) rest
          else some ((List.replicate (min (qs.length - 3) 2) q ++ acc).reverse,
            List.replicate (qs.length - 5) q ++ rest)
      else if c == '\\' && q == '"' then
        match continuation? r with
        | some r => readLong q n acc r
        | none =>
          match readEscape r with
          | some (c, r) => readLong q n (c :: acc) r
          | none => none
      else if isPlain c then readLong q n (c :: acc) r
      else none
    | [] => none

/-- A text without the line end it begins with. -/
def skipLineEnd : List Char → List Char
  | '\n' :: r => r
  | '\r' :: '\n' :: r => r
  | s => s

/-- A string of any kind and what follows. -/
def readString : List Char → Option (List Char × List Char)
  | '"' :: '"' :: '"' :: r => readLong '"' (r.length + 1) [] (skipLineEnd r)
  | '\'' :: '\'' :: '\'' :: r => readLong '\'' (r.length + 1) [] (skipLineEnd r)
  | '"' :: r => readBasic (r.length + 1) [] r
  | '\'' :: r => readLiteral r
  | _ => none

/-- A character of a key without quotes. -/
def isBare (c : Char) : Bool := c.isAlphanum || c == '_' || c == '-'

/-- A part of a key and what follows. -/
def readKeyPart : List Char → Option (String × List Char)
  | '"' :: r => (readBasic (r.length + 1) [] r).map fun (t, r) => (String.ofList t, r)
  | '\'' :: r => (readLiteral r).map fun (t, r) => (String.ofList t, r)
  | s =>
    match s.span isBare with
    | ([], _) => none
    | (t, r) => some (String.ofList t, r)

/-- A key, which is a path and a last name, and what follows; at most `n` parts. -/
def readKey : Nat → List Char → Option ((List String × String) × List Char)
  | 0, _ => none
  | n + 1, s =>
    match readKeyPart (skipSpaces s) with
    | none => none
    | some (part, r) =>
      match skipSpaces r with
      | '.' :: r => (readKey n r).map fun ((path, key), r) => ((part :: path, key), r)
      | r => some (([], part), r)

/-- The parts that a key may have. -/
def maxKeyParts : Nat := 79

/-- The levels of brackets and braces that a value may have. -/
def maxDepth : Nat := 80

/-- Digits of a class with single underscores between them, and what follows. -/
def readDigits (p : Char → Bool) : List Char → Option (List Char × List Char)
  | c :: r =>
    if p c then
      match r with
      | '_' :: d :: r => if p d then (readDigits p (d :: r)).map fun (ds, r) => (c :: ds, r) else none
      | ['_'] => none
      | d :: r => if p d then (readDigits p (d :: r)).map fun (ds, r) => (c :: ds, r) else some ([c], d :: r)
      | [] => some ([c], [])
    else none
  | [] => none

/-- An integer of 64 bits. -/
def integer? (n : Int) : Option Toml := if fitsInt64 n then some (integer n) else none

/-- An integer in another base, after its letter, and what follows. -/
def readBased (base : Nat) (p : Char → Bool) (s : List Char) : Option (Toml × List Char) := do
  let (ds, r) ← readDigits p s
  let vs ← ds.mapM Json.hexDigit?
  return (← integer? (vs.foldl (fun n v => base * n + v) 0 : Nat), r)

/-- The letter of an exponent with its digits, if there is one, and what follows. -/
def readExponent : List Char → Option (Option (Bool × List Char) × List Char)
  | c :: r =>
    if Numeral.isExponentMark c then
      let (negative, r) := Numeral.splitSign r
      (readDigits Char.isDigit r).map fun (ds, r) => (some (negative, ds), r)
    else some (none, c :: r)
  | [] => some (none, [])

/-- A decimal number after its sign, and what follows. A number that is too large is refused, unless it is
negative. -/
def readDecimal (negative : Bool) (s : List Char) : Option (Toml × List Char) := do
  let (whole, r) ← match s with
    | '0' :: r => some (['0'], r)
    | s => readDigits Char.isDigit s
  let (fraction, r) ← match r with
    | '.' :: r => (readDigits Char.isDigit r).map fun (ds, r) => (some ds, r)
    | r => some (none, r)
  let (exponent, r) ← readExponent r
  let n : Numeral := ⟨negative, whole, fraction, exponent⟩
  if n.isInteger then return (← integer? n.wholeValue, r)
  else if n.toBinary64 = .infinite false then none
  else return (float, r)

/-- A number and what follows. -/
def readNumber : List Char → Option (Toml × List Char)
  | '0' :: 'x' :: r => readBased 16 (Json.hexDigit? · |>.isSome) r
  | '0' :: 'o' :: r => readBased 8 (fun c => '0' ≤ c && c ≤ '7') r
  | '0' :: 'b' :: r => readBased 2 (fun c => c == '0' || c == '1') r
  | s =>
    let (negative, r) := Numeral.splitSign s
    match r with
    | 'i' :: 'n' :: 'f' :: r => some (float, r)
    | 'n' :: 'a' :: 'n' :: r => some (float, r)
    | r => readDecimal negative r

mutual

/-- A value that may have `depth` levels, and what follows. Each step of the recursion uses up one of `n`. -/
def readValue (depth : Nat) : Nat → List Char → Option (Toml × List Char)
  | 0, _ => none
  | n + 1, s =>
    match s with
    | '"' :: _ | '\'' :: _ => (readString s).map fun (t, r) => (string (String.ofList t), r)
    | '[' :: r =>
      match depth with
      | 0 => none
      | depth + 1 => readItems depth n [] r
    | '\x7b' :: r =>
      match depth with
      | 0 => none
      | depth + 1 =>
        match skipSpaces r with
        | '\x7d' :: r => some (table .inline [], r)
        | r => readFields depth n [] r
    | 't' :: 'r' :: 'u' :: 'e' :: r => some (boolean true, r)
    | 'f' :: 'a' :: 'l' :: 's' :: 'e' :: r => some (boolean false, r)
    | s => readNumber s

/-- The items of an array after those of `acc`, and what follows the array. -/
def readItems (depth : Nat) : Nat → List Toml → List Char → Option (Toml × List Char)
  | 0, _, _ => none
  | n + 1, acc, s =>
    match skipLines s.length s with
    | ']' :: r => some (array acc.reverse, r)
    | s =>
      match readValue depth n s with
      | none => none
      | some (v, r) =>
        match skipLines r.length r with
        | ',' :: r => readItems depth n (v :: acc) r
        | ']' :: r => some (array (v :: acc).reverse, r)
        | _ => none

/-- The fields of a table in braces after those of `acc`, and what follows the table. -/
def readFields (depth : Nat) : Nat → Fields → List Char → Option (Toml × List Char)
  | 0, _, _ => none
  | n + 1, acc, s =>
    match readKey maxKeyParts s with
    | some ((path, key), '=' :: r) =>
      match readValue depth n (skipSpaces r) with
      | none => none
      | some (v, r) =>
        match addEntry path key v acc with
        | none => none
        | some acc =>
          match skipSpaces r with
          | ',' :: r => readFields depth n acc r
          | '\x7d' :: r => some (table .inline acc, r)
          | _ => none
    | _ => none

end

/-- A document being read: its tables, and the header that was read last. -/
structure Document where
  fields : Fields := []
  header : List String := []

/-- A header between brackets, and what follows. -/
def readHeader (s : List Char) : Option ((List String × String) × List Char) :=
  match readKey maxKeyParts s with
  | some (k, ']' :: r) => some (k, r)
  | _ => none

/-- The lines of a document from here on, at most `n` of them. -/
def readLines : Nat → Document → List Char → Option Fields
  | 0, _, _ => none
  | n + 1, d, s =>
    match skipSpaces s with
    | [] => some d.fields
    | '\n' :: r => readLines n d r
    | '\r' :: '\n' :: r => readLines n d r
    | '#' :: r => (lineEnd? (skipComment ('#' :: r))).bind (readLines n d)
    | '[' :: '[' :: r => do
      let ((path, key), r) ← readHeader r
      let r ← match r with
        | ']' :: r => restOfLine? r
        | _ => none
      readLines n ⟨← openRow path key d.fields, path ++ [key]⟩ r
    | '[' :: r => do
      let ((path, key), r) ← readHeader r
      let r ← restOfLine? r
      readLines n ⟨← openTable path key d.fields, path ++ [key]⟩ r
    | s => do
      let ((path, key), r) ← readKey maxKeyParts s
      let r ← match r with
        | '=' :: r => some (skipSpaces r)
        | _ => none
      let (v, r) ← readValue maxDepth (2 * r.length + 2) r
      let r ← restOfLine? r
      readLines n { d with fields := ← addUnder d.header path key v d.fields } r

/-- The fields of a document. -/
def read? (s : List Char) : Option Fields :=
  let s := match s with
    | '\ufeff' :: r => r
    | s => s
  readLines (s.length + 1) {} s

end FluentTables.Toml
