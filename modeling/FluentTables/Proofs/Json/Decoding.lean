import FluentTables.Schema.Column
import FluentTables.Proofs.Json.Reading

/-!
# Columns read back

A column that was written in JSON is read back as it was, but for a declared default of null, which reads as none
(`decode_toJson`). How deep a reader may go makes no difference to values that are less deep (`RoomFree`).
-/

namespace FluentTables

namespace Json

variable {α : Type}

/-! ## Depth -/

mutual

/-- The levels of arrays and objects in a value. -/
def depth : Json → Nat
  | array items => itemsDepth items + 1
  | object fields => fieldsDepth fields + 1
  | _ => 0

def itemsDepth : List Json → Nat
  | [] => 0
  | x :: xs => max (depth x) (itemsDepth xs)

def fieldsDepth : List (String × Json) → Nat
  | [] => 0
  | (_, x) :: xs => max (depth x) (fieldsDepth xs)

end

theorem depth_le_itemsDepth {x : Json} {items : List Json} (h : x ∈ items) : x.depth ≤ itemsDepth items := by
  induction items with
  | nil => cases h
  | cons y items ih =>
    rw [itemsDepth]
    rcases List.mem_cons.1 h with rfl | h
    · exact Nat.le_max_left _ _
    · exact Nat.le_trans (ih h) (Nat.le_max_right _ _)

theorem depth_le_fieldsDepth {f : String × Json} {fields : List (String × Json)} (h : f ∈ fields) :
    f.2.depth ≤ fieldsDepth fields := by
  induction fields with
  | nil => cases h
  | cons e fields ih =>
    obtain ⟨k, y⟩ := e
    rw [fieldsDepth]
    rcases List.mem_cons.1 h with rfl | h
    · exact Nat.le_max_left _ _
    · exact Nat.le_trans (ih h) (Nat.le_max_right _ _)

theorem itemTrees_eq (items : List Json) : itemTrees items = items.map tree := by
  induction items with
  | nil => rfl
  | cons x xs ih => rw [itemTrees, ih, List.map_cons]

theorem fieldTrees_eq (fields : List (String × Json)) :
    fieldTrees fields = fields.map fun f => (some f.1, f.2.tree) := by
  induction fields with
  | nil => rfl
  | cons f fields ih => rw [fieldTrees, ih, List.map_cons]

/-- A value is read alike with room for all its levels. -/
def SameAt (d : Decoder α) (j : Json) : Prop :=
  ∀ room room', j.depth ≤ room → j.depth ≤ room' → d room j.tree = d room' j.tree

/-- Of an array or object it is enough to look below its own level. -/
theorem sameAt_of_succ {d : Decoder α} {j : Json} {n : Nat} (hj : j.depth = n + 1)
    (h : ∀ room room', n ≤ room → n ≤ room' → d (room + 1) j.tree = d (room' + 1) j.tree) : SameAt d j := by
  rintro (_ | room) (_ | room') hroom hroom'
  · rfl
  · omega
  · omega
  · exact h room room' (by omega) (by omega)

/-- What a reader reads of a value does not depend on the room there is, if there is enough. -/
def RoomFree (d : Decoder α) : Prop := ∀ j, SameAt d j

theorem mapM_congr {β γ : Type} {l : List β} {f g : β → Option γ} (h : ∀ b ∈ l, f b = g b) : l.mapM f = l.mapM g := by
  induction l with
  | nil => rfl
  | cons b l ih =>
    rw [List.mapM_cons, List.mapM_cons, h b List.mem_cons_self, ih fun c hc => h c (List.mem_cons_of_mem b hc)]

theorem SameAt.value_items {items : List Json} (h : ∀ x ∈ items, SameAt Value.decode x) {room room' : Nat}
    (hroom : itemsDepth items ≤ room) (hroom' : itemsDepth items ≤ room') :
    Value.decodeItems room (itemTrees items) = Value.decodeItems room' (itemTrees items) := by
  induction items with
  | nil => rfl
  | cons x xs ih =>
    rw [itemsDepth, Nat.max_le] at hroom hroom'
    rw [itemTrees, Value.decodeItems, Value.decodeItems, h x List.mem_cons_self _ _ hroom.1 hroom'.1,
      ih (fun y hy => h y (List.mem_cons_of_mem x hy)) hroom.2 hroom'.2]

theorem SameAt.value_fields {fields : List (String × Json)} (h : ∀ f ∈ fields, SameAt Value.decode f.2)
    {room room' : Nat} (hroom : fieldsDepth fields ≤ room) (hroom' : fieldsDepth fields ≤ room') :
    Value.decodeCells room (fieldTrees fields) = Value.decodeCells room' (fieldTrees fields) := by
  induction fields with
  | nil => rfl
  | cons f fs ih =>
    obtain ⟨k, x⟩ := f
    rw [fieldsDepth, Nat.max_le] at hroom hroom'
    have hx := h (k, x) List.mem_cons_self room room' hroom.1 hroom'.1
    have hfs := ih (fun y hy => h y (List.mem_cons_of_mem (k, x) hy)) hroom.2 hroom'.2
    rw [fieldTrees, Value.decodeCells.eq_def, Value.decodeCells.eq_def]
    simp only at hx ⊢
    rw [hx, hfs]

theorem roomFree_value : RoomFree Value.decode := by
  intro j
  induction j using nested_induction with
  | null => rintro (_ | room) (_ | room') _ _ <;> rfl
  | bool b => rintro (_ | room) (_ | room') _ _ <;> rfl
  | int i => rintro (_ | room) (_ | room') _ _ <;> rfl
  | string s => rintro (_ | room) (_ | room') _ _ <;> rfl
  | float x =>
    rw [SameAt, tree]
    cases x.numeral? <;> rintro (_ | room) (_ | room') _ _ <;> rfl
  | array items ih =>
    refine sameAt_of_succ rfl fun room room' hroom hroom' => ?_
    rw [tree, Value.decode, Value.decode, SameAt.value_items ih hroom hroom']
  | object fields ih =>
    refine sameAt_of_succ rfl fun room room' hroom hroom' => ?_
    rw [tree, Value.decode, Value.decode, SameAt.value_fields ih hroom hroom']

theorem RoomFree.list {d : Decoder α} (h : RoomFree d) : RoomFree (Decoder.list d) := by
  intro j
  cases j with
  | array items =>
    refine sameAt_of_succ rfl fun room room' hroom hroom' => ?_
    rw [tree, Decoder.list, Decoder.list, itemTrees_eq]
    refine mapM_congr fun t ht => ?_
    obtain ⟨x, hx, rfl⟩ := List.mem_map.1 ht
    have hdepth := depth_le_itemsDepth hx
    exact h x _ _ (Nat.le_trans hdepth hroom) (Nat.le_trans hdepth hroom')
  | float x =>
    rw [SameAt, tree]
    cases x.numeral? <;> rintro (_ | room) (_ | room') _ _ <;> rfl
  | _ => rintro (_ | room) (_ | room') _ _ <;> rfl

theorem RoomFree.orderedMap {d : Decoder α} (h : RoomFree d) : RoomFree (Decoder.orderedMap d) := by
  intro j
  cases j with
  | object fields =>
    refine sameAt_of_succ rfl fun room room' hroom hroom' => ?_
    rw [tree, Decoder.orderedMap, Decoder.orderedMap, Decoder.entries, Decoder.entries, fieldTrees_eq]
    congr 1
    refine mapM_congr fun t ht => ?_
    obtain ⟨f, hf, rfl⟩ := List.mem_map.1 ht
    have hdepth := depth_le_fieldsDepth hf
    simp only [h f.2 _ _ (Nat.le_trans hdepth hroom) (Nat.le_trans hdepth hroom')]
  | float x =>
    rw [SameAt, tree]
    cases x.numeral? <;> rintro (_ | room) (_ | room') _ _ <;> rfl
  | _ => rintro (_ | room) (_ | room') _ _ <;> rfl

/-- **Rows are read alike with room for all their levels.** -/
theorem roomFree_rows : RoomFree decodeRows := roomFree_value.orderedMap.list

/-! ## Structures -/

/-- The fields of an object that a structure has, each once. -/
theorem fields_object {names : List String} {fs : List (String × Json)} (hnames : ∀ f ∈ fs, f.1 ∈ names)
    (hnodup : (fs.map (·.1)).Nodup) :
    Decoder.fields names (object fs).tree = some (fs.map fun f => (f.1, f.2.tree)) := by
  have hmap : ((fieldTrees fs).mapM fun e : Option String × Tree => e.1.map (·, e.2)) =
      some (fs.map fun f => (f.1, f.2.tree)) := by
    rw [fieldTrees_eq]
    clear hnames hnodup
    induction fs with
    | nil => rfl
    | cons f fs ih =>
      rw [List.map_cons, List.mapM_cons, ih]
      rfl
  have hfilter : (fs.map fun f => (f.1, f.2.tree)).filter (names.contains ·.1) = fs.map fun f => (f.1, f.2.tree) := by
    rw [List.filter_eq_self]
    intro e he
    obtain ⟨f, hf, rfl⟩ := List.mem_map.1 he
    simpa using hnames f hf
  have hkeys : (fs.map fun f => (f.1, f.2.tree)).map (·.1) = fs.map (·.1) := by
    rw [List.map_map]
    rfl
  have hfields : Decoder.fields names (object fs).tree =
      ((fieldTrees fs).mapM fun e : Option String × Tree => e.1.map (·, e.2)).bind fun es =>
        if ((es.filter (names.contains ·.1)).map (·.1)).Nodup then some (es.filter (names.contains ·.1)) else none := rfl
  rw [hfields, hmap, Option.bind_some, hfilter, hkeys, if_pos hnodup]

theorem lookup_filterMap_of_not_mem {β γ : Type} {es : List (String × Option β)} {k : String}
    (hk : k ∉ es.map (·.1)) (g : β → γ) : (es.filterMap fun f => f.2.map fun b => (f.1, g b)).lookup k = none := by
  rw [List.lookup_eq_none_iff]
  intro e he
  obtain ⟨f, hf, hfe⟩ := List.mem_filterMap.1 he
  obtain ⟨b, -, rfl⟩ := Option.map_eq_some_iff.1 hfe
  rw [bne_iff_ne]
  rintro rfl
  exact hk (List.mem_map_of_mem hf)

/-- Of fields that may be missing, each has what it has. -/
theorem lookup_filterMap {β γ : Type} {es : List (String × Option β)} (hnodup : (es.map (·.1)).Nodup) (g : β → γ)
    {k : String} {v : Option β} (h : (k, v) ∈ es) :
    (es.filterMap fun f => f.2.map fun b => (f.1, g b)).lookup k = v.map g := by
  induction es with
  | nil => cases h
  | cons e es ih =>
    obtain ⟨j, w⟩ := e
    obtain ⟨hj, hes⟩ : j ∉ es.map (·.1) ∧ (es.map (·.1)).Nodup := by simpa using hnodup
    rcases List.mem_cons.1 h with heq | hmem
    · cases heq
      cases v with
      | none =>
        rw [List.filterMap_cons_none rfl]
        exact lookup_filterMap_of_not_mem hj g
      | some b => simp
    · have hne : k ≠ j := by
        rintro rfl
        exact hj (List.mem_map_of_mem (f := (·.1)) hmem)
      cases w with
      | none => exact ih hes hmem
      | some b =>
        have hbeq : (k == j) = false := by simpa using hne
        show ((j, g b) :: es.filterMap fun f => f.2.map fun b => (f.1, g b)).lookup k = v.map g
        rw [List.lookup_cons, hbeq]
        exact ih hes hmem

theorem keys_filterMap {β γ : Type} (es : List (String × Option β)) (g : β → γ) :
    ((es.filterMap fun f => f.2.map fun b => (f.1, g b)).map (·.1)).Sublist (es.map (·.1)) := by
  induction es with
  | nil => exact List.Sublist.refl _
  | cons e es ih =>
    obtain ⟨k, _ | b⟩ := e
    · exact ih.cons k
    · exact ih.cons_cons k

end Json

open Json Json.Decoder

/-! ## Values -/

namespace Value

mutual

/-- Values are told apart by their JSON forms. -/
theorem eq_of_toJson : ∀ v w : Value, v.toJson = w.toJson → v = w
  | null, w, h => by cases w <;> simp_all [toJson]
  | bool b, w, h => by cases w <;> simp_all [toJson]
  | int i, w, h => by cases w <;> simp_all [toJson, Int64.toInt_inj]
  | float x, w, h => by cases w <;> simp_all [toJson]
  | text s, w, h => by cases w <;> simp_all [toJson]
  | list items, w, h => by
    cases w with
    | list items' =>
      rw [toJson, toJson, Json.array.injEq] at h
      rw [eq_of_itemsToJson items items' h]
    | record row => cases row; cases h
    | _ => cases h
  | record ⟨cells⟩, w, h => by
    cases w with
    | record row =>
      obtain ⟨cells'⟩ := row
      rw [toJson, toJson, Json.object.injEq] at h
      rw [eq_of_cellsToJson cells cells' h]
    | _ => cases h

theorem eq_of_itemsToJson : ∀ vs ws : List Value, itemsToJson vs = itemsToJson ws → vs = ws
  | [], [], _ => rfl
  | v :: vs, w :: ws, h => by
    rw [itemsToJson, itemsToJson, List.cons.injEq] at h
    rw [eq_of_toJson v w h.1, eq_of_itemsToJson vs ws h.2]
  | [], _ :: _, h => nomatch h
  | _ :: _, [], h => nomatch h

theorem eq_of_cellsToJson : ∀ es fs : List (String × Value), cellsToJson es = cellsToJson fs → es = fs
  | [], [], _ => rfl
  | (k, v) :: es, (l, w) :: fs, h => by
    rw [cellsToJson, cellsToJson, List.cons.injEq, Prod.mk.injEq] at h
    rw [h.1.1, eq_of_toJson v w h.1.2, eq_of_cellsToJson es fs h.2]
  | [], _ :: _, h => nomatch h
  | _ :: _, [], h => nomatch h

end

end Value

theorem rowsToJson_inj {rows rows' : List Row} : rowsToJson rows = rowsToJson rows' ↔ rows = rows' := by
  have hrow : ∀ r s : Row, r.toJson = s.toJson → r = s := fun _ _ h => Value.record.inj (Value.eq_of_toJson _ _ h)
  rw [rowsToJson, rowsToJson, Json.array.injEq, List.map_inj_right hrow]

/-! ## Values that are read back -/

/-- A value is read back from its JSON form. -/
def Value.IsReadable (v : Value) : Prop := ∀ room, Value.decode room v.toJson.tree = some v

theorem Value.isReadable_null : Value.null.IsReadable := by rintro (_ | room) <;> rfl

theorem Value.isReadable_bool (b : Bool) : (Value.bool b).IsReadable := by rintro (_ | room) <;> rfl

theorem Value.isReadable_text (s : String) : (Value.text s).IsReadable := by rintro (_ | room) <;> rfl

theorem Value.isReadable_int (i : Int64) : (Value.int i).IsReadable := by
  have hint : Json.int? (.ofInt i.toInt) = some i := by
    rw [Json.int?, Numeral.wholeValue_ofInt, fitsInt64_toInt, if_pos, Int64.ofInt_toInt]
    simp [Numeral.isInteger, Numeral.ofInt]
    omega
  have hnumeral : Value.ofNumeral? (.ofInt i.toInt) = some (.int i) := by rw [Value.ofNumeral?, hint]
  rintro (_ | room)
  · exact hnumeral
  · exact hnumeral

/-- A number is read back if its text is. -/
theorem Value.isReadable_float {x : Binary64} (hfinite : x.stored? ≠ none)
    (h : ∀ s, x.stored? = some s → Value.decode.read? s = some (.float x)) : (Value.float x).IsReadable := by
  have htext := compactChars_float x
  rw [x.stored?_eq] at hfinite h
  have htree : (Value.float x).toJson.tree = x.numeral?.elim .null .number := rfl
  cases hx : x.numeral? with
  | none => exact absurd (by rw [hx]; rfl) hfinite
  | some n =>
    rw [hx] at h htext htree
    have hread := h n.chars rfl
    rw [Decoder.read?, ← show (Json.float x).compactChars = n.chars from htext, read?_compactChars] at hread
    have hnumeral : Value.ofNumeral? n = some (.float x) := by
      rw [← hread, Option.bind_some, tree, hx]
      rfl
    rw [IsReadable, htree]
    rintro (_ | room)
    · exact hnumeral
    · exact hnumeral

theorem natural_int {limit n : Nat} (h : n < limit) (room : Nat) :
    natural limit room (Json.int (n : Nat)).tree = some n := by
  have hvalue : Numeral.digitsValue (Nat.toDigits 10 (n : Int).natAbs) = n := Numeral.digitsValue_toDigits n
  rw [tree, natural]
  simp only [Numeral.ofInt, Numeral.isInteger, hvalue]
  simp [h]

/-- A value that may be null, of which null is none. -/
theorem Value.IsReadable.optional {v : Value} (h : v.IsReadable) (room : Nat) :
    optional Value.decode room v.toJson.tree = some ((some v).filter (!·.isNull)) := by
  have hread := h room
  have hnull : ∀ {t : Tree}, Value.decode room t = some v → v.isNull = false →
      Decoder.optional Value.decode room t = some (some v) := by
    intro t ht hv
    cases t with
    | null =>
      have : v = .null := by
        cases room <;> exact (Option.some.inj ht).symm
      rw [this] at hv
      cases hv
    | _ =>
      simp only [Decoder.optional, ht, Option.map_some]
  cases hv : v.isNull with
  | true =>
    have : v = .null := by
      cases v <;> first | rfl | cases hv
    rw [this]
    cases room <;> rfl
  | false =>
    rw [hnull hread hv, Option.filter, hv]
    rfl

/-! ## Fields -/

section Fields

variable {fs : List (String × Tree)} {k : String} (room : Nat)

theorem required_text {s : String} (h : fs.lookup k = some (Json.string s).tree) :
    text.required room fs k = some s := by
  rw [required, h]
  rfl

/-- A number that may be missing. -/
theorem withDefault_natural {limit : Nat} {n? : Option Nat} (hn : ∀ n ∈ n?, n < limit)
    (h : fs.lookup k = (n?.map fun n => Json.int (n : Nat)).map tree) :
    (optional (natural limit)).withDefault room fs k none = some n? := by
  rw [withDefault, h]
  cases n? with
  | none => rfl
  | some n =>
    show (natural limit room (Json.int (n : Nat)).tree).map some = _
    rw [natural_int (hn n rfl) room]
    rfl

/-- A truth value that is missing when it is false. -/
theorem withDefault_flag {b : Bool} (h : fs.lookup k = (if b then some (Json.bool true) else none).map tree) :
    bool.withDefault room fs k false = some b := by
  rw [withDefault, h]
  cases b <;> rfl

/-- A value that may be missing. -/
theorem withDefault_value {v? : Option Value} (hv : ∀ v ∈ v?, v.IsReadable)
    (h : fs.lookup k = (v?.map Value.toJson).map tree) :
    (optional Value.decode).withDefault room fs k none = some (v?.filter (!·.isNull)) := by
  rw [withDefault, h]
  cases v? with
  | none => rfl
  | some v => exact (hv v rfl).optional room

end Fields

/-! ## Columns -/

namespace Column

/-- The fields of a column, those that are not shown too. -/
def fields (c : Column) : List (String × Option Json) := [
  ("name", some (.string c.name)),
  ("type", some (.string c.type.word)),
  ("maxLength", c.maxLength.map fun n => .int (n : Nat)),
  ("precision", c.precision.map fun n => .int (n : Nat)),
  ("scale", c.scale.map fun n => .int (n : Nat)),
  ("autoIncrement", if c.autoIncrement then some (.bool true) else none),
  ("autoFill", if c.autoFill then some (.bool true) else none),
  ("nullable", if c.nullable then some (.bool true) else none),
  ("unique", if c.unique then some (.bool true) else none),
  ("default", c.default?.map Value.toJson)]

theorem toJson_eq (c : Column) : c.toJson = .object (c.fields.filterMap fun f => f.2.map (f.1, ·)) := by
  have hflag : ∀ (name : String) (b : Bool),
      flag name b = ((if b then some (.bool true) else none : Option Json).map (name, ·)).toList := by
    intro name b
    cases b <;> rfl
  have hcons : ∀ (f : String × Option Json) (fs : List (String × Option Json)),
      (f :: fs).filterMap (fun f => f.2.map (f.1, ·)) =
        (f.2.map (f.1, ·)).toList ++ fs.filterMap fun f => f.2.map (f.1, ·) := by
    intro f fs
    obtain ⟨k, _ | j⟩ := f <;> rfl
  rw [toJson, shown, shown, shown, shown, hflag, hflag, hflag, hflag, fields]
  simp only [hcons, List.filterMap_nil, Option.map_some, Option.map_map, List.append_assoc, List.append_nil]
  rfl

/-- What a column has to be like to be read back. -/
structure IsReadable (c : Column) : Prop where
  type : .ofWord c.type.word = c.type
  maxLength : ∀ n ∈ c.maxLength, n < UInt64.size
  precision : ∀ n ∈ c.precision, n < UInt32.size
  scale : ∀ n ∈ c.scale, n < UInt32.size
  default : ∀ v ∈ c.default?, v.IsReadable

/-- A column with a declared default of null left out. -/
def asRead (c : Column) : Column := { c with default? := c.filling? }

/-- **A column is read back**, but for a default of null. -/
theorem decode_toJson {c : Column} (h : c.IsReadable) (room : Nat) :
    decode (room + 1) c.toJson.tree = some c.asRead := by
  have hkeys : c.fields.map (·.1) = fieldNames := rfl
  have hnodup : (c.fields.map (·.1)).Nodup := by rw [hkeys]; decide
  have hsub : ((c.fields.filterMap fun f => f.2.map (f.1, ·)).map (·.1)).Sublist fieldNames :=
    keys_filterMap c.fields fun j => j
  have hfields : Decoder.fields fieldNames c.toJson.tree =
      some (c.fields.filterMap fun f => f.2.map fun j => (f.1, j.tree)) := by
    rw [toJson_eq, fields_object (fun f hf => hsub.subset (List.mem_map_of_mem hf)) (hsub.nodup hnodup),
      List.map_filterMap]
    simp only [Option.map_map]
    rfl
  have hlookup : ∀ {k : String} {v : Option Json}, (k, v) ∈ c.fields →
      (c.fields.filterMap fun f => f.2.map fun j => (f.1, j.tree)).lookup k = v.map tree :=
    lookup_filterMap hnodup tree
  generalize (c.fields.filterMap fun f => f.2.map fun j => (f.1, j.tree)) = fs at hfields hlookup
  have hname := required_text room (hlookup (v := some (.string c.name)) (k := "name") (by simp [fields]))
  have htype := required_text room (hlookup (v := some (.string c.type.word)) (k := "type") (by simp [fields]))
  have hmaxLength := withDefault_natural room h.maxLength (hlookup (k := "maxLength") (by simp [fields]))
  have hprecision := withDefault_natural room h.precision (hlookup (k := "precision") (by simp [fields]))
  have hscale := withDefault_natural room h.scale (hlookup (k := "scale") (by simp [fields]))
  have hautoIncrement :=
    withDefault_flag (b := c.autoIncrement) room (hlookup (k := "autoIncrement") (by simp [fields]))
  have hautoFill := withDefault_flag (b := c.autoFill) room (hlookup (k := "autoFill") (by simp [fields]))
  have hnullable := withDefault_flag (b := c.nullable) room (hlookup (k := "nullable") (by simp [fields]))
  have hunique := withDefault_flag (b := c.unique) room (hlookup (k := "unique") (by simp [fields]))
  have hdefault := withDefault_value room h.default (hlookup (k := "default") (by simp [fields]))
  rw [decode, struct, hfields, Option.bind_some]
  simp only [hname, htype, hmaxLength, hprecision, hscale, hautoIncrement, hautoFill, hnullable, hunique, hdefault]
  show some { c with type := .ofWord c.type.word, default? := c.filling? } = some c.asRead
  rw [h.type, asRead]

end Column

/-- **A list of columns is read back.** -/
theorem decodeColumns_toJson {cs : List Column} (h : ∀ c ∈ cs, c.IsReadable) (room : Nat) :
    decodeColumns (room + 2) (columnsToJson cs).tree = some (cs.map Column.asRead) := by
  show (itemTrees (cs.map Column.toJson)).mapM (Column.decode (room + 1)) = _
  rw [itemTrees_eq]
  induction cs with
  | nil => rfl
  | cons c cs ih =>
    rw [List.map_cons, List.map_cons, List.mapM_cons, Column.decode_toJson (h c List.mem_cons_self),
      ih fun d hd => h d (List.mem_cons_of_mem c hd)]
    rfl

end FluentTables
