import FluentTables.Migration.Basic
import FluentTables.Proofs.Json.Decoding
import FluentTables.Proofs.Literals
import FluentTables.Proofs.Pattern.Occurrences

/-!
# Tables read from migrations

Whatever the text, the tables that it declares are named by words (`isTableName_of_columns?`), and their columns are
read back from JSON if the numbers among their defaults are (`isReadable_of_columns?`).
-/

namespace FluentTables

open Pattern

/-! ## Names -/

/-- A word. -/
def IsTableName (t : String) : Prop := t.toList ≠ [] ∧ ∀ c ∈ t.toList, Text.isWord c = true

theorem isTableName_group {r : Pattern} {s : List Char} {m : Match} (h : m ∈ r.matchesIn s)
    (halways : always 1 r = true) (hkept : kept 1 r = [some1 Text.isWord]) :
    IsTableName (String.ofList (m.group 1)) := by
  obtain ⟨a, ha, hspells⟩ := spells_group_of_mem h (by decide) halways
  rw [hkept, List.mem_singleton] at ha
  subst ha
  rw [IsTableName, String.toList_ofList]
  exact hspells

/-- A table that is declared is one of a match. -/
theorem mem_of_columns? {declarations : List (String × List Column)} {t : String} {cs : List Column}
    (h : (Schema.ofList declarations).columns? t = some cs) : (t, cs) ∈ declarations := by
  rcases OrderedMap.mem_of_get?_insertAll h with hmem | hnone
  · exact hmem
  · cases hnone

/-- **The columns of a table are those of a block, or of a statement.** -/
theorem columns?_cases {text t : String} {cs : List Column} (h : (migrationSchema text).columns? t = some cs) :
    (∃ m ∈ Blueprint.block.matchesIn text.toList,
      t = String.ofList (m.group 1) ∧ cs = Blueprint.bodyColumns (m.group 2)) ∨
    ∃ m ∈ Sql.table.matchesIn text.toList, t = String.ofList (m.group 1) ∧ cs = Sql.columns (m.group 2) := by
  rw [migrationSchema] at h
  split at h
  · obtain ⟨m, hm, heq⟩ := List.mem_map.1 (mem_of_columns? h)
    cases heq
    exact Or.inr ⟨m, hm, rfl, rfl⟩
  · obtain ⟨m, hm, heq⟩ := List.mem_map.1 (mem_of_columns? h)
    cases heq
    exact Or.inl ⟨m, hm, rfl, rfl⟩

/-- A migration declares each table once. -/
theorem nodup_names_migrationSchema (text : String) : (migrationSchema text).names.Nodup := by
  rw [migrationSchema]
  split
  · exact OrderedMap.keys_nodup_ofList _
  · exact OrderedMap.keys_nodup_ofList _

/-- **Tables are named by words.** -/
theorem isTableName_of_columns? {text t : String} {cs : List Column}
    (h : (migrationSchema text).columns? t = some cs) : IsTableName t := by
  rcases columns?_cases h with ⟨m, hm, rfl, -⟩ | ⟨m, hm, rfl, -⟩
  · exact isTableName_group hm (by decide) rfl
  · exact isTableName_group hm (by decide) rfl

/-! ## Columns -/

/-- What a literal stands for holds no other values. -/
theorem Value.ofLiteral_cases (s : List Char) :
    ofLiteral s = null ∨ (∃ b, ofLiteral s = bool b) ∨ (∃ i, ofLiteral s = int i) ∨ (∃ x, ofLiteral s = float x) ∨
      ∃ t, ofLiteral s = text t := by
  have hnumeral : ∀ n : Numeral, (∃ i, ofNumeralText n = int i) ∨ ∃ x, ofNumeralText n = float x := by
    intro n
    rw [Value.ofNumeralText_eq]
    split
    · exact Or.inl ⟨_, rfl⟩
    · exact Or.inr ⟨_, rfl⟩
  rw [ofLiteral]
  split
  · exact Or.inl rfl
  rw [ofBareLiteral]
  split
  · exact Or.inr (Or.inl ⟨_, rfl⟩)
  split
  · exact Or.inr (Or.inl ⟨_, rfl⟩)
  split
  · next n _ =>
    rcases hnumeral n with hi | hx
    · exact Or.inr (Or.inr (Or.inl hi))
    · exact Or.inr (Or.inr (Or.inr (Or.inl hx)))
  · exact Or.inr (Or.inr (Or.inr (Or.inr ⟨_, rfl⟩)))

/-- A literal is read back, if it is no number that is not. -/
theorem Value.isReadable_ofLiteral {s : List Char}
    (h : ∀ x, Value.ofLiteral s = .float x → (Value.float x).IsReadable) : (Value.ofLiteral s).IsReadable := by
  rcases Value.ofLiteral_cases s with hv | ⟨b, hv⟩ | ⟨i, hv⟩ | ⟨x, hv⟩ | ⟨t, hv⟩
  · exact hv ▸ Value.isReadable_null
  · exact hv ▸ Value.isReadable_bool b
  · exact hv ▸ Value.isReadable_int i
  · exact hv ▸ h x hv
  · exact hv ▸ Value.isReadable_text t

/-- The types with a word of their own are known by it. -/
theorem ColumnType.ofWord_word : ∀ type ∈ ColumnType.known, .ofWord type.word = type := by decide

namespace Blueprint

theorem number?_lt {m : Match} {i n : Nat} (h : n ∈ number? m i) : n < UInt32.size := by
  rw [number?] at h
  split at h
  · split at h
    · next hbound =>
      cases h
      rw [Bool.and_eq_true, decide_eq_true_eq] at hbound
      exact hbound.2
    · cases h
  · cases h

theorem known_of_mem {type : ColumnType} (h : .typed type ∈ declarations.map (·.2)) : type ∈ ColumnType.known := by
  simp only [declarations, List.map_cons, List.map_nil, List.mem_cons, Declaration.typed.injEq, reduceCtorEq,
    List.not_mem_nil, false_or, or_false] at h
  rcases h with rfl | rfl | rfl | rfl | rfl | rfl | rfl | rfl <;> decide

/-- Sizes have 32 bits. -/
theorem sizes_typedColumn (m : Match) (type : ColumnType) :
    (∀ n ∈ (typedColumn m type).maxLength, n < UInt32.size) ∧ (∀ n ∈ (typedColumn m type).precision, n < UInt32.size) ∧
      ∀ n ∈ (typedColumn m type).scale, n < UInt32.size := by
  cases type with
  | string => exact ⟨fun n hn => number?_lt hn, by rintro n ⟨⟩, by rintro n ⟨⟩⟩
  | decimal => exact ⟨by rintro n ⟨⟩, fun n hn => number?_lt hn, fun n hn => number?_lt hn⟩
  | _ => exact ⟨by rintro n ⟨⟩, by rintro n ⟨⟩, by rintro n ⟨⟩⟩

/-- A typed column is read back. -/
theorem isReadable_modified (m : Match) {type : ColumnType} (htype : type ∈ ColumnType.known) (line : List Char)
    (h : ∀ x, (modified line (typedColumn m type)).default? = some (.float x) → (Value.float x).IsReadable) :
    (modified line (typedColumn m type)).IsReadable where
  type := by
    have hsame : (typedColumn m type).type = type := by cases type <;> rfl
    show .ofWord (typedColumn m type).type.word = (typedColumn m type).type
    rw [hsame]
    exact ColumnType.ofWord_word type htype
  maxLength n hn := Nat.lt_trans ((sizes_typedColumn m type).1 n hn) (by decide)
  precision := (sizes_typedColumn m type).2.1
  scale := (sizes_typedColumn m type).2.2
  default := by
    intro v hv
    obtain ⟨m', hm', rfl⟩ := Option.map_eq_some_iff.1 hv
    exact Value.isReadable_ofLiteral fun x hx => h x (by rw [← hx]; exact hv)

/-- A column without sizes and default is read back. -/
theorem isReadable_plain {c : Column} (htype : .ofWord c.type.word = c.type)
    (h : c.maxLength = none ∧ c.precision = none ∧ c.scale = none ∧ c.default? = none) : c.IsReadable where
  type := htype
  maxLength := by simp [h.1]
  precision := by simp [h.2.1]
  scale := by simp [h.2.2.1]
  default := by simp [h.2.2.2]

theorem isReadable_of_mem {line : List Char} {c : Column} (hc : c ∈ lineColumns line)
    (h : ∀ x, c.default? = some (.float x) → (Value.float x).IsReadable) : c.IsReadable := by
  rw [lineColumns] at hc
  split at hc
  · next m d hfind =>
    obtain ⟨⟨p, d'⟩, hmem, hd⟩ := List.exists_of_findSome?_eq_some hfind
    obtain ⟨m', -, heq⟩ := Option.map_eq_some_iff.1 hd
    cases heq
    cases d with
    | id =>
      obtain rfl := List.mem_singleton.1 hc
      exact isReadable_plain (by decide) (by decide)
    | typed type =>
      obtain rfl := List.mem_singleton.1 hc
      exact isReadable_modified m (known_of_mem (List.mem_map_of_mem (f := (·.2)) hmem)) line h
    | timestamps =>
      obtain ⟨name, -, rfl⟩ := List.mem_map.1 hc
      exact isReadable_plain (ColumnType.ofWord_word .timestamp (by decide)) ⟨rfl, rfl, rfl, rfl⟩
    | softDeletes =>
      obtain rfl := List.mem_singleton.1 hc
      exact isReadable_plain (by decide) (by decide)
  · cases hc

end Blueprint

theorem Sql.isReadable_of_mem {s : List Char} {c : Column} (hc : c ∈ Sql.columns s) : c.IsReadable := by
  obtain ⟨f, -, hf⟩ := List.mem_filterMap.1 hc
  rw [Sql.column?] at hf
  split at hf
  · cases hf
  · obtain ⟨m, -, rfl⟩ := Option.map_eq_some_iff.1 hf
    exact Blueprint.isReadable_plain (by rw [ColumnType.word_ofWord]) ⟨rfl, rfl, rfl, rfl⟩

/-- **The columns of a declared table are read back**, if the numbers among their defaults are. -/
theorem isReadable_of_columns? {text t : String} {cs : List Column}
    (h : (migrationSchema text).columns? t = some cs) {c : Column} (hc : c ∈ cs)
    (hfloat : ∀ x, c.default? = some (.float x) → (Value.float x).IsReadable) : c.IsReadable := by
  rcases columns?_cases h with ⟨m, -, -, rfl⟩ | ⟨m, -, -, rfl⟩
  · obtain ⟨line, -, hline⟩ := List.mem_flatMap.1 hc
    exact Blueprint.isReadable_of_mem hline hfloat
  · exact Sql.isReadable_of_mem hc

end FluentTables
