import FluentTables.Migration.Basic
import FluentTables.Proofs.Literals
import FluentTables.Proofs.Pattern.Admission
import FluentTables.Proofs.Query.WrittenCreations
import FluentTables.Proofs.Query.Calls

/-!
# Lines of migrations as they are written

A declaration is written as calls on one line: the method that declares, then the calls that say more about the column.
Round brackets open behind the methods of the calls only (`mem_of_opens`), so the calls behind a declaration are found
wherever they stand (`isIn_bareCall`, `search_defaultCall`). Written numbers and literals are read back
(`number?_digits`, `ofLiteral_written`).
-/

namespace FluentTables

open Pattern Text Query

/-! ## Literals and numbers -/

namespace Query.Literal

/-- The value of a literal: what is between quotes is read like what is not, only null is a text there. -/
def value : Literal → Value
  | null => .null
  | bool b => .bool b
  | int i => .int i
  | text _ s => .ofBareLiteral s.toList

/-- What a literal stands for. -/
inductive StandsFor : Literal → Value → Prop
  | null : StandsFor null .null
  | bool (b : Bool) : StandsFor (bool b) (.bool b)
  | int (i : Int64) : StandsFor (int i) (.int i)
  | text {q : Char} {s : String} {v : Value} : Value.Denotes s.toList v → StandsFor (text q s) v

theorem standsFor_iff {l : Literal} {v : Value} : l.StandsFor v ↔ v = l.value := by
  constructor
  · rintro (_ | _ | _ | hv)
    case text => exact Value.denotes_iff.1 hv
    all_goals rfl
  · rintro rfl
    cases l with
    | null => exact .null
    | bool b => exact .bool b
    | int i => exact .int i
    | text q s => exact .text (Value.denotes_iff.2 rfl)

/-- The content of a text has no quotes, and nothing that ends a call, a block or a line. -/
def IsInline : Literal → Prop
  | text q s => isQuote q = true ∧ ∀ c ∈ s.toList, isQuote c = false ∧ c ∉ ['(', ')', '}', '\n']
  | _ => True

instance : DecidablePred IsInline
  | text _ _ => inferInstanceAs (Decidable (_ ∧ _))
  | null | bool _ | int _ => inferInstanceAs (Decidable True)

theorem ofLiteral_toString (i : Int64) : Value.ofLiteral (toString i.toInt).toList = .int i := by
  rw [Value.ofLiteral_of_parse? (Numeral.parse?_stripQuotes (Numeral.parse?_toString i.toInt)), Value.ofNumeralText_eq,
    Numeral.wholeValue_ofInt, fitsInt64_toInt, Int64.ofInt_toInt]
  rfl

/-- **A written literal is read as its value.** -/
theorem ofLiteral_written {l : Literal} (h : l.IsInline) : Value.ofLiteral l.written = l.value := by
  cases l with
  | null => rfl
  | bool b => cases b <;> decide
  | int i => exact ofLiteral_toString i
  | text q s =>
    obtain ⟨hq, hs⟩ := h
    have hnull : trim (quotedBy q s.toList) ≠ "null".toList := by
      rw [trim_quotedBy hq]
      intro hnull
      obtain rfl : q = 'n' := (List.cons_eq_cons.1 hnull).1
      cases hq
    rw [written, Value.ofLiteral, if_neg hnull, stripQuotes_quotedBy hq fun c hc => (hs c hc).1, value]

end Query.Literal

namespace Blueprint

/-- A text without anything that ends a call, a block or a line. -/
def IsInline (s : List Char) : Prop := ∀ c ∈ s, c ∉ ['(', ')', '}', '\n']

instance : DecidablePred IsInline := fun _ => inferInstanceAs (Decidable (∀ _ ∈ _, _))

theorem IsInline.append {u v : List Char} (hu : IsInline u) (hv : IsInline v) : IsInline (u ++ v) := fun c hc =>
  (List.mem_append.1 hc).elim (hu c) (hv c)

theorem IsInline.parenFree {s : List Char} (h : IsInline s) : ParenFree s := by
  intro c hc
  have hmarks := h c hc
  simp only [List.mem_cons, not_or] at hmarks
  simp [isParen, hmarks]

theorem isInline_of_word {c : Char} (h : c.toNat < 0x80 ∧ isWord c = true) : c ∉ ['(', ')', '}', '\n'] := by
  obtain ⟨hblank, -, hmarks⟩ := ascii_word h
  have hfeed : c ≠ '\n' := by
    rintro rfl
    exact absurd hblank (by decide)
  simp only [List.mem_cons, List.not_mem_nil, or_false, not_or] at hmarks ⊢
  simp [hmarks, hfeed]

theorem isInline_written {l : Literal} (h : l.IsInline) : IsInline l.written ∧ l.written ≠ [] := by
  by_cases htext : ∃ q s, l = .text q s
  · obtain ⟨q, s, rfl⟩ := htext
    obtain ⟨hq, hs⟩ := h
    refine ⟨fun c hc => ?_, List.cons_ne_nil _ _⟩
    rcases mem_quotedBy.1 hc with rfl | hc
    · intro hmem
      simp only [List.mem_cons, List.not_mem_nil, or_false] at hmem
      rcases hmem with rfl | rfl | rfl | rfl <;> cases hq
    · exact (hs c hc).2
  · obtain ⟨hne, hchar⟩ := Literal.written_bare fun q s heq => htext ⟨q, s, heq⟩
    refine ⟨fun c hc => ?_, hne⟩
    rcases hchar c hc with rfl | hw
    · decide
    · exact isInline_of_word hw

/-- A number of 32 bits as it is written. -/
def digits (n : UInt32) : List Char := (toString n.toNat).toList

theorem digits_eq (n : UInt32) : digits n = Nat.toDigits 10 n.toNat := by
  show (Nat.repr n.toNat).toList = _
  rw [Nat.repr_eq_ofList_toDigits, String.toList_ofList]

theorem isDigit_of_mem_digits {n : UInt32} {c : Char} (h : c ∈ digits n) :
    c.isDigit = true ∧ c.toNat < 0x80 ∧ isWord c = true := by
  rw [digits_eq] at h
  have hd : c.isDigit = true := Nat.isDigit_of_mem_toDigits (by decide) (by decide) h
  exact ⟨hd, ascii_word_of_isDigit hd⟩

theorem digits_ne (n : UInt32) : digits n ≠ [] := by
  rw [digits_eq]
  exact Nat.toDigits_ne_nil

/-- **A written number is read back.** -/
theorem number?_digits {m : Match} {i : Nat} {n : UInt32} (h : m.group? i = some (digits n)) :
    number? m i = some n.toNat := by
  have hdigits : Numeral.allDigits (digits n) = true :=
    List.all_eq_true.2 fun c hc => (isDigit_of_mem_digits hc).1
  have hvalue : Numeral.digitsValue (digits n) = n.toNat := by
    rw [digits_eq, Numeral.digitsValue_toDigits]
  rw [number?, h]
  simp only [hdigits, hvalue, Bool.true_and, decide_eq_true_eq]
  rw [if_pos n.toNat_lt_size]

theorem number?_none {m : Match} {i : Nat} (h : m.group? i = none) : number? m i = none := by
  rw [number?, h]

/-! ## Lines -/

/-- A name of ASCII word characters. -/
structure Name where
  text : String
  isWord : IsAsciiWord text.toList := by decide

theorem Name.isInline_quoted (n : Name) : IsInline (quoted n.text.toList) := by
  intro c hc
  rcases mem_quotedBy.1 hc with rfl | hc
  · decide
  · exact isInline_of_word (n.isWord.2 c hc)

/-- What a call behind a declaration says of the column. -/
inductive Modifier where
  | nullable
  | unique
  | default (l : Literal) (h : l.IsInline := by decide)

namespace Modifier

/-- The call of a modifier. -/
def call : Modifier → Call
  | nullable => .next {} "nullable" []
  | unique => .next {} "unique" []
  | default l _ => .next {} "default" l.written

/-- The default that a modifier gives. -/
def default? : Modifier → Option Literal
  | default l _ => some l
  | _ => none

end Modifier

/-- The methods of columns that have nothing but a name, by their types. -/
def plainMethods : List (String × ColumnType) :=
  [("text", .text), ("integer", .integer), ("bigInteger", .bigint), ("boolean", .boolean), ("timestamp", .timestamp),
    ("foreignId", .foreignId)]

/-- The methods that declare the primary key. -/
def keyMethods : List String := ["id", "increments", "bigIncrements"]

/-- A column of a type as it is written, without modifiers. -/
inductive Typed where
  | plain (method : String × ColumnType) (name : Name) (h : method ∈ plainMethods := by decide)
  | string (name : Name) (length : Option UInt32 := none)
  | decimal (name : Name) (size : Option (UInt32 × UInt32) := none)

namespace Typed

def name : Typed → Name
  | plain _ n _ | string n _ | decimal n _ => n

/-- The method and the type that it is for. -/
def method : Typed → String × ColumnType
  | plain m _ _ => m
  | string _ _ => ("string", .string)
  | decimal _ _ => ("decimal", .decimal)

/-- The numbers behind the name. -/
def numbers : Typed → List UInt32
  | plain _ _ _ => []
  | string _ length => length.toList
  | decimal _ size => size.elim [] fun s => [s.1, s.2]

/-- The arguments of the method. -/
def args (t : Typed) : List Char := quoted t.name.text.toList ++ t.numbers.flatMap fun n => ", ".toList ++ digits n

/-- The column that is declared. -/
def column : Typed → Column
  | plain m n _ => { name := n.text, type := m.2 }
  | string n length => { name := n.text, type := .string, maxLength := length.map UInt32.toNat }
  | decimal n size =>
    { name := n.text, type := .decimal, precision := size.map (·.1.toNat), scale := size.map (·.2.toNat) }

end Typed

/-- A declaration as it is written. -/
inductive Line where
  /-- The primary key, with any of its methods and perhaps a name. -/
  | key (method : String) (name : Option Name := none) (h : method ∈ keyMethods := by decide)
  | typed (column : Typed) (modifiers : List Modifier := [])
  | timestamps
  | softDeletes

namespace Line

/-- The method of a declaration with its arguments. -/
def head : Line → String × List Char
  | key m n _ => (m, n.elim [] fun n => quoted n.text.toList)
  | typed t _ => (t.method.1, t.args)
  | timestamps => ("timestamps", [])
  | softDeletes => ("softDeletes", [])

/-- The calls behind a declaration. -/
def modifiers : Line → List Modifier
  | typed _ ms => ms
  | _ => []

/-- The kind of a declaration. -/
def declaration : Line → Declaration
  | key _ _ _ => .id
  | typed t _ => .typed t.method.2
  | timestamps => .timestamps
  | softDeletes => .softDeletes

/-- The calls of a line. -/
def calls (l : Line) : List Call := ⟨"$table->".toList, l.head.1, l.head.2⟩ :: l.modifiers.map Modifier.call

/-- The text of a line: `$table->method(...)->modifier(...);`. -/
def text (l : Line) : List Char := written l.calls ++ [';']

/-- The columns that a line stands for. The first default counts. -/
def columns : Line → List Column
  | key _ _ _ => [{ name := "id", type := .bigint, autoIncrement := true }]
  | typed t ms =>
    [{ t.column with
      default? := (ms.findSome? Modifier.default?).map Literal.value
      unique := ms.any (· matches .unique)
      nullable := ms.any (· matches .nullable) }]
  | timestamps =>
    [{ name := "created_at", type := .timestamp, autoFill := true },
      { name := "updated_at", type := .timestamp, autoFill := true }]
  | softDeletes => [{ name := "deleted_at", type := .timestamp, nullable := true }]

end Line

/-! ## The calls of a line -/

/-- The names of all methods. -/
def methodNames : List String :=
  keyMethods ++ ["string", "text", "integer", "bigInteger", "boolean", "decimal", "timestamp", "timestamps",
    "softDeletes", "foreignId"] ++ ["nullable", "unique", "default"]

/-- What stands in front of a bracket ends with an arrow and its method, and with no other one. -/
theorem arrow_suffix : ∀ m ∈ methodNames, ∀ n ∈ methodNames,
    "->".toList ++ m.toList <:+ "$table->".toList ++ n.toList → m = n := by
  decide +kernel

/-- A call of a line: its brackets are the only ones, and it is known by its name. -/
structure IsMethodCall (c : Call) : Prop where
  link : c.link <:+ "$table->".toList ++ c.name.toList
  name : c.name ∈ methodNames
  args : IsInline c.args

theorem IsMethodCall.isInline_link {c : Call} (h : IsMethodCall c) : IsInline c.link := by
  have hnames : ∀ n ∈ methodNames, IsInline ("$table->".toList ++ n.toList) := by decide +kernel
  exact fun d hd => hnames _ h.name d (h.link.subset hd)

theorem IsMethodCall.hasOwnParens {c : Call} (h : IsMethodCall c) : c.HasOwnParens :=
  ⟨h.isInline_link.parenFree, h.args.parenFree⟩

theorem isMethodCall_modifier (m : Modifier) : IsMethodCall m.call := by
  cases m with
  | nullable => exact ⟨by decide, by decide, by decide⟩
  | unique => exact ⟨by decide, by decide, by decide⟩
  | default l h =>
    have hlink : ({} : Arrow).text ++ "default".toList <:+ "$table->".toList ++ "default".toList := by decide
    have hname : "default" ∈ methodNames := by decide
    exact ⟨hlink, hname, (isInline_written h).1⟩

theorem Typed.isInline_args (t : Typed) : IsInline t.args := by
  have hcomma : IsInline ", ".toList := by decide
  refine t.name.isInline_quoted.append fun c hc => ?_
  obtain ⟨n, -, hc⟩ := List.mem_flatMap.1 hc
  exact hcomma.append (fun d hd => isInline_of_word (isDigit_of_mem_digits hd).2) c hc

theorem Typed.method_mem (t : Typed) : t.method ∈ ("string", .string) :: ("decimal", .decimal) :: plainMethods := by
  cases t with
  | plain m n h => exact List.mem_cons_of_mem _ (List.mem_cons_of_mem _ h)
  | string n length => exact List.mem_cons_self
  | decimal n size => exact List.mem_cons_of_mem _ List.mem_cons_self

theorem Line.isMethodCall (l : Line) : ∀ c ∈ l.calls, IsMethodCall c := by
  have htyped : ∀ m ∈ ("string", ColumnType.string) :: ("decimal", .decimal) :: plainMethods, m.1 ∈ methodNames := by
    decide
  have hkey : ∀ m ∈ keyMethods, m ∈ methodNames := by decide
  intro c hc
  rcases List.mem_cons.1 hc with rfl | hc
  · cases l with
    | key m n h =>
      refine ⟨List.suffix_refl _, hkey m h, ?_⟩
      cases n with
      | none => exact fun _ hc => absurd hc List.not_mem_nil
      | some n => exact n.isInline_quoted
    | typed t ms => exact ⟨List.suffix_refl _, htyped _ t.method_mem, t.isInline_args⟩
    | timestamps => exact ⟨by decide, by decide, by decide⟩
    | softDeletes => exact ⟨by decide, by decide, by decide⟩
  · obtain ⟨m, -, rfl⟩ := List.mem_map.1 hc
    exact isMethodCall_modifier m

section Calls

variable {calls : List Call} (hcalls : ∀ c ∈ calls, IsMethodCall c)

include hcalls in
/-- A method in front of an opening bracket is the method of a call. -/
theorem mem_of_opens {n : String} (hn : n ∈ methodNames)
    (h : Opens ("->".toList ++ n.toList) (written calls ++ [';'])) : ∃ c ∈ calls, c.name = n := by
  have hfree : ∀ n ∈ methodNames, ParenFree ("->".toList ++ n.toList) := by decide +kernel
  rcases link_of_opens (fun c hc => (hcalls c hc).hasOwnParens) (hfree n hn) h with ⟨c, hc, hlink⟩ | hend
  · exact ⟨c, hc, (arrow_suffix n hn c.name (hcalls c hc).name (hlink.trans (hcalls c hc).link)).symm⟩
  · exact absurd hend (not_opens (by decide))

/-! ## Calls without arguments -/

/-- A method behind an arrow, without arguments. -/
def bareCall (n : String) : Pattern := chain [Pattern.text ("->" ++ n ++ "("), blanks, char ')']

theorem opens_bareCall {n : String} {w : List Char} (h : Spells (bareCall n) w) :
    Opens ("->".toList ++ n.toList) w := by
  obtain ⟨u, v, rfl, hu, -⟩ := h
  rw [spells_text] at hu
  exact ⟨[], v, by simp [hu]⟩

theorem takes_bareCall (n : String) {b : Option Char} {rest : List Char} :
    Takes (bareCall n) b ("->".toList ++ (n.toList ++ ['(', ')'])) rest [] := by
  have h : Takes (bareCall n) b _ rest _ :=
    (takes_text _).chain_cons <| Shape.takes_close.chain_cons takes_chain_nil
  simpa using h

include hcalls in
/-- **A call without arguments is found wherever it stands.** -/
theorem isIn_bareCall {n : String} (hn : n ∈ methodNames) (hbare : ∀ c ∈ calls, c.name = n → c = .next {} n []) :
    (bareCall n).isIn (written calls ++ [';']) = calls.any (·.name == n) := by
  by_cases h : ∃ c ∈ calls, c.name = n
  · obtain ⟨c, hc, hname⟩ := h
    have hany : calls.any (·.name == n) = true := List.any_eq_true.2 ⟨c, hc, by simpa using hname⟩
    obtain rfl := hbare c hc hname
    obtain ⟨before, after, rfl⟩ := List.append_of_mem hc
    have htakes : Takes (bareCall n) (past none (written before)) _ (written after ++ [';']) _ := takes_bareCall n
    have hin := isIn_of_admits htakes.admits
    rw [hany]
    simpa [written, Call.text, Call.link, Call.next, Arrow.text, Arrow.tip] using hin
  · have hany : calls.any (·.name == n) = false := by
      rw [List.any_eq_false]
      exact fun c hc hname => h ⟨c, hc, by simpa using hname⟩
    rw [hany]
    exact isIn_eq_false_of_spells fun w hw hspells => h (mem_of_opens hcalls hn ((opens_bareCall hspells).mono hw))

end Calls

/-! ## The default -/

theorem opening_defaultCall : Opening defaultCall fun x => x = "->default".toList := by
  rintro w ⟨u, v, rfl, hu, -⟩
  rw [spells_text] at hu
  exact ⟨_, v, by rw [hu]; rfl, by decide, rfl⟩

theorem takes_defaultCall {l : Literal} (h : l.IsInline) {b : Option Char} {rest : List Char} :
    Takes defaultCall b ("->default(".toList ++ (l.written ++ [')'])) rest [(1, l.written)] := by
  obtain ⟨hinline, hne⟩ := isInline_written h
  have hargs : ∀ c ∈ l.written, (c != ')') = true := by
    intro c hc
    have hclose : c ≠ ')' := fun hclose => hinline.parenFree.not_mem.2 (hclose ▸ hc)
    simpa using hclose
  have htakes : Takes defaultCall b _ rest _ :=
    (takes_text _).chain_cons <| ((takes_some1 hne hargs (by rfl)).group 1).chain_cons <|
      (takes_char ')').chain_cons takes_chain_nil
  simpa using htakes

section Default

variable {first : Call} (hfirst : IsMethodCall first) (hname : first.name ≠ "default")

include hfirst in
theorem isMethodCall_calls (ms : List Modifier) : ∀ c ∈ first :: ms.map Modifier.call, IsMethodCall c := by
  intro c hc
  rcases List.mem_cons.1 hc with rfl | hc
  · exact hfirst
  · obtain ⟨m, -, rfl⟩ := List.mem_map.1 hc
    exact isMethodCall_modifier m

include hname in
/-- Where no modifier is a default, no call is one. -/
theorem name_ne_default {ms : List Modifier} (hms : ∀ m ∈ ms, m.default? = none) :
    ∀ c ∈ first :: ms.map Modifier.call, c.name ≠ "default" := by
  intro c hc
  rcases List.mem_cons.1 hc with rfl | hc
  · exact hname
  · obtain ⟨m, hm, rfl⟩ := List.mem_map.1 hc
    cases m with
    | nullable | unique => exact fun h => absurd h (by decide)
    | default l h => exact absurd (hms _ hm) (by simp [Modifier.default?])

include hfirst hname in
theorem search_defaultCall_none {ms : List Modifier} (hms : ∀ m ∈ ms, m.default? = none) :
    defaultCall.search (written (first :: ms.map Modifier.call) ++ [';']) = none := by
  refine search_eq_none_of_spells fun w hw hspells => ?_
  obtain ⟨x, y, rfl, -, rfl⟩ := opening_defaultCall w hspells
  have hopens : Opens ("->".toList ++ "default".toList) (written (first :: ms.map Modifier.call) ++ [';']) :=
    List.IsInfix.trans ⟨[], y, by simp⟩ hw
  obtain ⟨c, hc, hcname⟩ := mem_of_opens (isMethodCall_calls hfirst ms) (by decide) hopens
  exact name_ne_default hname hms c hc hcname

include hfirst hname in
/-- A default is found behind modifiers that are none. -/
theorem search_defaultCall_some {before : List Modifier} (hbefore : ∀ m ∈ before, m.default? = none) {l : Literal}
    (hl : l.IsInline) (rest : List Char) :
    (defaultCall.search (written (first :: before.map Modifier.call) ++ ((Modifier.default l hl).call.text ++
      rest))).map (·.group 1) = some l.written := by
  have hskip : ∀ s, Skips defaultCall none (written (first :: before.map Modifier.call)) s := by
    intro s
    have hcalls := isMethodCall_calls hfirst before
    refine skips_written opening_defaultCall (fun c hc => (hcalls c hc).hasOwnParens) fun c hc x hx heq => ?_
    have hlink : "->".toList ++ "default".toList <:+ "$table->".toList ++ c.name.toList :=
      (heq ▸ hx : "->default".toList <:+ c.link).trans (hcalls c hc).link
    exact name_ne_default hname hbefore c hc (arrow_suffix _ (by decide) _ (hcalls c hc).name hlink).symm
  have htakes : ∀ b, Takes defaultCall b _ rest _ := fun b => takes_defaultCall hl
  obtain ⟨m, hm, -, htexts, -⟩ := searchAt_of_takes (hskip _) (htakes _)
  have htext : "->default(".toList ++ (l.written ++ [')']) ++ rest = (Modifier.default l hl).call.text ++ rest := by
    simp [Modifier.call, Call.text, Call.link, Call.next, Arrow.text, Arrow.tip]
  rw [htext] at hm
  rw [search, hm, Option.map_some, m.group_eq, htexts]
  rfl

include hfirst hname in
/-- **The first default is found**, whatever stands around it. -/
theorem search_defaultCall (ms : List Modifier) :
    (defaultCall.search (written (first :: ms.map Modifier.call) ++ [';'])).map (·.group 1) =
      (ms.findSome? Modifier.default?).map Literal.written := by
  cases hfind : ms.findSome? Modifier.default? with
  | none =>
    rw [List.findSome?_eq_none_iff] at hfind
    rw [search_defaultCall_none hfirst hname hfind]
    rfl
  | some l =>
    obtain ⟨before, m, after, rfl, hm, hbefore⟩ := List.findSome?_eq_some_iff.1 hfind
    obtain ⟨hl, rfl⟩ : ∃ hl, m = .default l hl := by
      cases m with
      | nullable | unique => cases hm
      | default l' hl => cases hm; exact ⟨hl, rfl⟩
    have htext : written (first :: (before ++ .default l hl :: after).map Modifier.call) ++ [';'] =
        written (first :: before.map Modifier.call) ++ ((Modifier.default l hl).call.text ++
          (written (after.map Modifier.call) ++ [';'])) := by
      simp [written]
    rw [htext, search_defaultCall_some hfirst hname hbefore hl]
    rfl

end Default

end Blueprint

end FluentTables
