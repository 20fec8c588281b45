import FluentTables.Proofs.Query.Creations
import FluentTables.Proofs.Query.Lookups
import FluentTables.Proofs.Query.Provenance
import FluentTables.Proofs.Session.Routing

/-!
# Created rows are read back

A creation is recognized by how it begins, whatever its list holds and whatever stands behind it, and its table is that
of the model in front (`table_of_creation`). So the row is in the table that the lookups of the model read: the next
statement finds it by its id, if no earlier row has that id, and it is the last one of the listing
(`read_back_of_creation`).
-/

namespace FluentTables

open Text Pattern

/-! ## Creations by their brackets -/

namespace Query

variable {model : String} {s : List Char} {m : Match}

/-- A text begins with `Model::create([...])`, with anything between the brackets. -/
def IsCreation (model : String) (s : List Char) : Prop :=
  ∃ gap body gap' rest, (∀ c ∈ gap, isBlank c = true) ∧ (∀ c ∈ gap', isBlank c = true) ∧
    s = model.toList ++ ("::create(".toList ++ (gap ++ ('[' :: (body ++ (']' :: (gap' ++ ')' :: rest))))))

/-- Points in the place of decimal commas leave a creation one. -/
theorem IsCreation.prepare (hmodel : IsAsciiWord model.toList) (h : IsCreation model (trim s)) :
    IsCreation model (Query.prepare s) := by
  obtain ⟨gap, body, gap', rest, hgap, hgap', hs⟩ := h
  have hblank : ∀ {g : List Char}, (∀ c ∈ g, isBlank c = true) → ',' ∉ g := fun hg hc => absurd (hg _ hc) (by decide)
  have hcomma : ',' ∉ model.toList := fun hc => (ascii_word (hmodel.2 _ hc)).2.2 (by simp)
  have htext : trim s = (model.toList ++ ("::create(".toList ++ (gap ++ ['[']))) ++
      (body ++ ((']' :: (gap' ++ [')'])) ++ rest)) := by
    rw [hs]
    simp
  -- Commas stand between the brackets only, or behind them.
  obtain ⟨w, hw, hpointed⟩ := Pointed.of_append_left (htext ▸ pointed_prepare s) (by simp [hcomma, hblank hgap])
  obtain ⟨body', w, rfl, -, hpointed⟩ := hpointed.of_append
  obtain ⟨rest', rfl, -⟩ := hpointed.of_append_left (by simp [hblank hgap'])
  refine ⟨gap, body', gap', rest', hgap, hgap', ?_⟩
  rw [hw]
  simp

/-- **The model of a creation is the word in front.** -/
theorem group_of_creation (hmodel : IsAsciiWord model.toList) (h : IsCreation model s)
    (hm : Shape.create.pattern.search s = some m) : m.group 1 = model.toList := by
  obtain ⟨gap, body, gap', rest, hgap, hgap', rfl⟩ := h
  have hadmits : Admits Shape.create.pattern none _ rest :=
    (Shape.takes_model hmodel (by rfl)).admits.chain_cons <| (Shape.takes_firstCall "create").admits.chain_cons <|
      (admits_span true hgap).chain_cons <| (takes_char '[').admits.chain_cons <|
      ((admits_span false (w := body) fun _ _ => rfl).group 2).chain_cons <| (takes_char ']').admits.chain_cons <|
      Admits.chain_cons ((admits_span true hgap').chain_cons ((takes_char ')').admits.chain_cons admits_chain_nil))
        admits_chain_nil
  obtain ⟨m', hm', hfirst⟩ := search_of_admits hadmits
  simp only [List.append_assoc, List.cons_append, List.nil_append] at hm' hfirst
  obtain rfl : m = m' := Option.some.inj (hm.symm.trans hm')
  -- The model is the word at the place of the match, which two colons end.
  obtain ⟨w, u, v, hrest, hw, ⟨-, hu⟩, ⟨c, v', rfl, hc, -⟩, hgroup⟩ :=
    group_of_matchAt [] (i := 1) (by decide) (by decide) hfirst
  obtain rfl : w = [] := hw
  obtain rfl := spells_firstCall.1 hc
  rw [hgroup]
  have hsplit :
      model.toList ++ ':' :: (":create(".toList ++ (gap ++ ('[' :: (body ++ (']' :: (gap' ++ ')' :: rest)))))) =
      u ++ ':' :: (":create(".toList ++ (v' ++ m.stop.rest)) := by
    simpa using hrest
  exact (append_cons_inj_of_class (p := fun c => !isWord c) (fun c hc => by simp [(hmodel.2 c hc).2])
    (fun c hc => by simp [hu c hc]) (by decide) (by decide) hsplit).1.symm

end Query

/-- A created row is for the table of the model. -/
theorem Interpreter.table_of_creation (i : Interpreter) {model query table : String} {data : Dataset} {row : Row}
    (hmodel : IsAsciiWord model.toList) (h : Query.IsCreation model (trim query.toList))
    (hcreated : i.interpret query data = .created table row) : table = i.naming.tableOf model := by
  obtain ⟨m, hm, -⟩ := interpret_created hcreated
  have hgroup : m.group 1 = model.toList :=
    Query.group_of_creation hmodel (h.prepare hmodel) (Shape.search_of_recognize? hm)
  simp only [interpret, hm, dispatch, hgroup, String.ofList_toList] at hcreated
  injection hcreated with htable
  exact htable.symm

namespace Session

open Query

/-! ## Lookups are queries -/

variable {s t : Session} {model name : String} {args statement : List Char}

/-- Where two colons stand only once, `create` follows them if `Schema::create` occurs. -/
theorem begins_create_of_schemaCreate {u v : List Char} (hu : ':' ∉ u) (hv : ':' ∉ v)
    (h : schemaCreate <:+: u ++ ':' :: ':' :: v) : "create".toList <+: v := by
  obtain ⟨p, q, h⟩ := h
  have hp : ':' ∉ p := by
    have hcount := congrArg (List.count ':') h
    simp only [List.count_append, List.count_cons_self, List.count_eq_zero.2 hu, List.count_eq_zero.2 hv,
      show schemaCreate.count ':' = 2 by decide] at hcount
    exact List.count_eq_zero.1 (by omega)
  have hfirst : ∀ c ∈ p ++ "Schema".toList, (c == ':') = false := by
    intro c hc
    rw [beq_eq_false_iff_ne]
    rintro rfl
    rcases List.mem_append.1 hc with hc | hc
    · exact hp hc
    · exact absurd hc (by decide)
  have hsplit : (p ++ "Schema".toList) ++ ':' :: (':' :: ("create".toList ++ q)) = u ++ ':' :: ':' :: v := by
    rw [← h, show schemaCreate = "Schema".toList ++ ':' :: ':' :: "create".toList by decide]
    simp
  obtain ⟨-, -, hbehind⟩ := append_cons_inj_of_class (p := (· == ':')) hfirst
    (fun c hc => beq_eq_false_iff_ne.2 fun heq => hu (heq ▸ hc)) rfl rfl hsplit
  exact ⟨q, List.tail_eq_of_cons_eq hbehind⟩

/-- A single call of a model that is no creation is a query. -/
theorem kind_single (hmodel : IsAsciiWord model.toList) (hname : ':' ∉ name.toList ∧ ',' ∉ name.toList)
    (hargs : ':' ∉ args ∧ ',' ∉ args) (hcreate : ¬ "create".toList <+: name.toList ++ '(' :: (args ++ [')'])) :
    kind (Call.first model name args).text = .query := by
  have hcolon : ':' ∉ model.toList := fun hc => (ascii_word (hmodel.2 _ hc)).2.2 (by simp)
  have htext : (Call.first model name args).text =
      model.toList ++ ':' :: ':' :: (name.toList ++ '(' :: (args ++ [')'])) := by
    simp [Call.text, Call.link, Call.first]
  have hno : contains schemaCreate (Call.first model name args).text = false := by
    rw [Bool.eq_false_iff, Ne, contains_iff, htext]
    exact fun h => hcreate (begins_create_of_schemaCreate hcolon (by simp [hname.1, hargs.1]) h)
  have htrim := (prepare_single hmodel hname.2 hargs.2).1
  rw [htext] at htrim hno ⊢
  rw [kind_of_model hmodel htrim, hno]
  rfl

/-- **A lookup leaves the session** and gives out what the query answers. -/
theorem execute_listing (s : Session) (n : Nat) (hmodel : IsAsciiWord model.toList) :
    s.execute n (listing model).toList =
      .ok (.result (.rows (s.data.rows (s.interpreter.naming.tableOf model))), s) := by
  have hkind : kind (listing model).toList = .query := by
    rw [listing_eq]
    exact kind_single hmodel (by decide) (by decide) (by decide)
  have htrim : trim (listing model).toList = (listing model).toList := by
    rw [listing_eq]
    exact (prepare_single hmodel (by decide) (by decide)).1
  rw [execute_eq, hkind]
  simp only [runQuery, htrim, String.ofList_toList, Interpreter.interpret_listing _ hmodel]

theorem execute_lookup (s : Session) (n j : Nat) (hmodel : IsAsciiWord model.toList) :
    s.execute n (lookup model j).toList = .ok (.result (.single ((s.data.rows (s.interpreter.naming.tableOf model)).find?
      fun row => (row.get? "id").any (·.key == toString j))), s) := by
  have hmarks : ∀ c ∈ (toString j).toList, c ∉ [',', '(', ')', '[', ']', '{', '}', ':', '>', '.', '\\'] := fun c hc =>
    (ascii_word ((digits_toString j).1.2 c hc)).2.2
  have hargs : ':' ∉ (toString j).toList ∧ ',' ∉ (toString j).toList :=
    ⟨fun h => hmarks _ h (by simp), fun h => hmarks _ h (by simp)⟩
  have hkind : kind (lookup model j).toList = .query := by
    rw [lookup_eq]
    exact kind_single hmodel (by decide) hargs (by simp)
  have htrim : trim (lookup model j).toList = (lookup model j).toList := by
    rw [lookup_eq]
    exact (prepare_single hmodel (by decide) hargs.2).1
  rw [execute_eq, hkind]
  simp only [runQuery, htrim, String.ofList_toList, Interpreter.interpret_lookup _ hmodel]

/-! ## A created row -/

/-- **A created row is read back**: if no earlier row of its table has the text of its id, the next lookup by this id
finds it, and the listing has it behind the rows that were there. -/
theorem read_back_of_creation {n j : Nat} {table : String} {row : Row} {k : Int64} (hmodel : IsAsciiWord model.toList)
    (hstatement : IsCreation model (trim statement))
    (hcreated : s.execute n statement = .ok (.result (.created table row), t)) (hid : row.get? "id" = some (.int k))
    (hk : k.toInt = j) (hfresh : ∀ r ∈ s.data.rows table, ∀ v, r.get? "id" = some v → v.key ≠ (Value.int k).key)
    (n' : Nat) :
    t.execute n' (lookup model j).toList = .ok (.result (.single (some row)), t) ∧
      s.execute n' (listing model).toList = .ok (.result (.rows (s.data.rows table)), s) ∧
      t.execute n' (listing model).toList = .ok (.result (.rows (s.data.rows table ++ [row])), t) := by
  obtain ⟨htable, hnaming, hrows⟩ : table = s.interpreter.naming.tableOf model ∧
      t.interpreter.naming = s.interpreter.naming ∧ t.data.rows table = s.data.rows table ++ [row] := by
    have heffect := effect_of_execute hcreated
    have hrows := heffect.rows_of_created table
    rw [if_pos rfl] at hrows
    cases heffect with
    | created _ hresult =>
      refine ⟨s.interpreter.table_of_creation hmodel ?_ hresult, rfl, hrows⟩
      rwa [String.toList_ofList, trim_trim]
    | shown _ ho => exact absurd rfl (ho _)
    | answered _ _ hr => exact absurd rfl (hr _ _)
  have hkey : (Value.int k).key = toString j := by
    rw [Value.key, hk]
    rfl
  have hfind : (t.data.rows table).find? (fun r => (r.get? "id").any (·.key == toString j)) = some row := by
    have hearlier : (s.data.rows table).find? (fun r => (r.get? "id").any (·.key == toString j)) = none := by
      refine List.find?_eq_none.2 fun r hr => ?_
      cases hv : r.get? "id" with
      | none => simp
      | some v => simpa [← hkey] using hfresh r hr v hv
    rw [hrows, List.find?_append, hearlier, Option.none_or]
    exact List.find?_cons_of_pos (by simp [hid, hkey])
  rw [execute_lookup t n' j hmodel, execute_listing s n' hmodel, execute_listing t n' hmodel, hnaming, ← htable, hfind,
    hrows]
  exact ⟨rfl, rfl, rfl⟩

/-- A creation that states an id, with text behind it, in a table with ids of several types. -/
theorem read_back_of_creation_mixedIds :
    let s := start ⟨.extend .empty .empty, "now"⟩ ⟨⟨[("ts", [⟨[("id", .int 6)]⟩, ⟨[("id", .text "07")]⟩, ⟨[("id", .null)]⟩,
      ⟨[("id", .list [.int 7])]⟩, ⟨[("a", .int 7)]⟩])]⟩⟩
    let statement := " T::create( ['id' => 7, 'a' => 'm 1,5']) // [x]"
    let row : Row := ⟨[("id", .int 7), ("a", .text "m 1.5"), ("created_at", .text "now"), ("updated_at", .text "now")]⟩
    ∃ t, s.execute 1 statement.toList = .ok (.result (.created "ts" row), t) ∧
      t.execute 2 (lookup "T" 7).toList = .ok (.result (.single (some row)), t) ∧
      t.execute 2 (listing "T").toList = .ok (.result (.rows (s.data.rows "ts" ++ [row])), t) := by
  intro s statement row
  have hkind : kind statement.toList = .query := by decide +kernel
  have hresult : s.interpreter.interpret (String.ofList (trim statement.toList)) s.data = .created "ts" row := by
    decide +kernel
  have hcreated : s.execute 1 statement.toList =
      .ok (.result (.created "ts" row), { s with data := s.data.push "ts" row }) := by
    rw [execute_eq, hkind]
    simp only [runQuery, hresult]
  have hstatement : IsCreation "T" (trim statement.toList) :=
    ⟨[' '], "'id' => 7, 'a' => 'm 1,5'".toList, [], " // [x]".toList, by decide, by decide, by decide +kernel⟩
  have hfresh : ∀ r ∈ s.data.rows "ts", ∀ v, r.get? "id" = some v → v.key ≠ (Value.int 7).key := by
    have hkeys : ∀ r ∈ s.data.rows "ts", ((r.get? "id").map Value.key).all (· != (Value.int 7).key) = true := by
      decide +kernel
    intro r hr v hv
    simpa [hv] using hkeys r hr
  obtain ⟨hfind, -, hall⟩ :=
    read_back_of_creation (j := 7) (k := 7) (by decide) hstatement hcreated (by decide) (by decide) hfresh 2
  exact ⟨_, hcreated, hfind, hall⟩

end Session

end FluentTables
