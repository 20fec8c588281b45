import FluentTables.Proofs.Session.Scripts

/-!
# Statements over several lines

Which statements a script consists of is decided by its text alone, and running the script is carrying them out one
after another (`runScript_eq`). The end of a statement is found by counting the brackets of its lines, each line on its
own; a reader of argument lists goes through the whole statement and knows backslashes. The two count the same as long
as no literal goes over the end of a line or holds its own quote behind a backslash (`depth_run`), and then lines
between which a bracket is open are one statement (`runScript_joinLines`).
-/

namespace FluentTables

namespace Text

/-- Lines put together with line feeds. -/
def joinLines (xs : List (List Char)) : List Char := List.intercalate ['\n'] xs

theorem joinLines_cons (x : List Char) (xs : List (List Char)) :
    joinLines (x :: xs) = x ++ xs.flatMap ('\n' :: ·) := by
  induction xs generalizing x with
  | nil => simp [joinLines]
  | cons y xs ih =>
    have hrest : joinLines (x :: y :: xs) = x ++ '\n' :: joinLines (y :: xs) := by
      simp [joinLines, List.intercalate_cons_cons]
    rw [hrest, ih]
    rfl

/-- Trimmed lines that hold something are the lines of the text that they make. -/
theorem map_trim_lines_joinLines {xs : List (List Char)} (hne : xs ≠ [])
    (h : ∀ x ∈ xs, trim x = x ∧ x ≠ [] ∧ '\n' ∉ x) : (lines (joinLines xs)).map trim = xs.map trim := by
  have hended : (lines (joinLines xs ++ ['\n'])).map trim = xs.map trim :=
    map_trim_lines_intercalate hne fun x hx => (h x hx).2.2
  rcases map_trim_lines_append_newline (joinLines xs) with hsame | hblank
  · rw [← hsame, hended]
  · -- Otherwise the last line would be blank.
    rw [hended] at hblank
    obtain ⟨x, hx, hempty⟩ := List.mem_map.1 (hblank ▸ List.mem_append_right _ List.mem_cons_self)
    exact absurd hempty ((h x hx).1.symm ▸ (h x hx).2.1)

/-! ## Two ways to count brackets -/

/-- From a state on, no literal goes over the end of a line or holds its own quote behind a backslash. -/
def plainLiterals (st : ArgState) : List Char → Bool
  | [] => true
  | c :: r => st.quote.all (fun q => c != '\n' && !(st.escaped && c == q)) && plainLiterals (st.step c) r

theorem plainLiterals_append (st : ArgState) (a b : List Char) :
    plainLiterals st (a ++ b) = (plainLiterals st a && plainLiterals (st.run a) b) := by
  induction a generalizing st with
  | nil => rfl
  | cons c a ih => rw [List.cons_append, plainLiterals, ih, plainLiterals, Bool.and_assoc]; rfl

/-- At the end of a line that another one follows, no literal is open. -/
theorem quote_of_plainLiterals_newline {st : ArgState} {r : List Char} (h : plainLiterals st ('\n' :: r) = true) :
    st.quote = none := by
  rw [plainLiterals, Bool.and_eq_true] at h
  cases hq : st.quote with
  | none => rfl
  | some q =>
    rw [hq] at h
    exact absurd h.1 (by simp)

/-- An open quote is a quote. -/
def ArgState.IsSound (st : ArgState) : Prop := ∀ q ∈ st.quote, isQuote q = true

theorem ArgState.IsSound.step {st : ArgState} (h : st.IsSound) (c : Char) : (st.step c).IsSound := by
  obtain ⟨quote, escaped, depth⟩ := st
  cases quote with
  | none =>
    unfold ArgState.step
    dsimp only
    split
    · next hc => exact fun q hq => Option.some.inj hq ▸ hc
    · split
      · exact fun q hq => (nomatch hq)
      · split <;> exact fun q hq => (nomatch hq)
  | some q =>
    unfold ArgState.step
    dsimp only
    split
    · exact h
    · split
      · exact h
      · split
        · exact fun q hq => (nomatch hq)
        · exact h

/-- Outside literals both count the next character, and open a literal at the same quotes. -/
theorem depth_step_outside {st : ArgState} {c : Char} (hquote : st.quote = none) (s : List Char) :
    (st.step c).depth + bracketBalanceFrom (st.step c).quote s = st.depth + bracketBalanceFrom none (c :: s) := by
  rw [ArgState.step, hquote, bracketBalanceFrom]
  dsimp only
  split
  · rfl
  · split
    · dsimp only
      omega
    · split
      · dsimp only
        omega
      · rw [hquote]

/-- Inside a literal both count nothing, and leave it at the same quote unless a backslash stands before that. -/
theorem depth_step_inside {st : ArgState} {c q : Char} (hquote : st.quote = some q) (hq : isQuote q = true)
    (hplain : st.escaped = true → c ≠ q) (s : List Char) :
    (st.step c).depth + bracketBalanceFrom (st.step c).quote s = st.depth + bracketBalanceFrom (some q) (c :: s) := by
  have hslash : ∀ d : Char, d = '\\' → d ≠ q := by
    rintro d rfl rfl
    cases hq
  rw [ArgState.step, hquote, bracketBalanceFrom]
  dsimp only
  split
  · next he => rw [if_neg (by simpa using hplain he)]
  · split
    · next hc => rw [if_neg (by simpa using hslash c (by simpa using hc))]
    · split
      · rfl
      · rw [hquote]

/-- **A reader of argument lists counts the brackets as the lines do**, if the literals are plain. -/
theorem depth_run {st : ArgState} {s : List Char} (hsound : st.IsSound) (h : plainLiterals st s = true) :
    (st.run s).depth = st.depth + bracketBalanceFrom st.quote s := by
  induction s generalizing st with
  | nil => simp [ArgState.run, bracketBalanceFrom]
  | cons c s ih =>
    rw [plainLiterals, Bool.and_eq_true] at h
    have hrest : (st.run (c :: s)).depth = (st.step c).depth + bracketBalanceFrom (st.step c).quote s :=
      ih (hsound.step c) h.2
    cases hquote : st.quote with
    | none => rw [hrest, depth_step_outside hquote]
    | some q =>
      have hplain : st.escaped = true → c ≠ q := by
        rintro he rfl
        exact absurd h.1 (by simp [hquote, he])
      rw [hrest, depth_step_inside hquote (hsound q hquote) hplain]

/-- A line between literals adds its balance. -/
theorem depth_run_line {st : ArgState} {x : List Char} (hquote : st.quote = none)
    (h : plainLiterals st ('\n' :: x) = true) : (st.run ('\n' :: x)).depth = st.depth + bracketBalance x := by
  rw [depth_run (by simp [ArgState.IsSound, hquote]) h, hquote]
  rfl

end Text

namespace Session

open Text

/-! ## The statements of a script -/

/-- The statements of lines from line `number` on, and the one that they leave open. -/
def statements (p : Option Pending) (number : Nat) : List (List Char) → List Pending × Option Pending
  | [] => ([], p)
  | raw :: r =>
    let line := trim raw
    if p.isNone && isSilent line then statements p (number + 1) r
    else
      let q := Pending.next p line number
      if q.isComplete then
        let rest := statements none (number + 1) r
        (q :: rest.1, rest.2)
      else statements (some q) (number + 1) r

/-- The statements of a script. -/
def scriptStatements (script : List Char) : List Pending × Option Pending := statements none 1 (lines script)

/-- Statements carried out one after another up to the first one that fails, with one that is left open. -/
def runAll (s : Session) (p : Option Pending) : List Pending → ScriptResult
  | [] => ⟨[], p.map fun p => ⟨p.start, .fault .unfinished⟩, s⟩
  | q :: qs =>
    match s.execute q.start q.text with
    | .ok (o, t) => (runAll t p qs).after o
    | .error e => ⟨[], some e, s⟩

theorem runLines_eq (s : Session) (p : Option Pending) (n : Nat) (xs : List (List Char)) :
    s.runLines p n xs = s.runAll (statements p n xs).2 (statements p n xs).1 := by
  induction xs generalizing s p n with
  | nil => rfl
  | cons raw r ih =>
    rw [runLines, statements]
    dsimp only
    split
    · exact ih s p (n + 1)
    · split
      · rw [runAll, step_eq]
        cases s.execute (Pending.next p (trim raw) n).start (Pending.next p (trim raw) n).text with
        | ok a => exact congrArg (ScriptResult.after a.1) (ih a.2 none (n + 1))
        | error e => rfl
      · exact ih s _ (n + 1)

/-- **A script is its statements, carried out one after another.** -/
theorem runScript_eq (s : Session) (script : List Char) :
    s.runScript script = s.runAll (scriptStatements script).2 (scriptStatements script).1 :=
  runLines_eq s none 1 _

/-- White space at the ends of lines does not matter. -/
theorem statements_congr {xs ys : List (List Char)} (h : xs.map trim = ys.map trim) (p : Option Pending) (n : Nat) :
    statements p n xs = statements p n ys := by
  induction xs generalizing ys p n with
  | nil =>
    cases ys with
    | nil => rfl
    | cons y ys => cases h
  | cons x xs ih =>
    cases ys with
    | nil => cases h
    | cons y ys =>
      simp only [List.map_cons, List.cons.injEq] at h
      simp only [statements, h.1, ih h.2]

/-! ## One statement -/

/-- A statement goes on as long as a bracket is open, and takes all lines up to there. -/
theorem statements_of_open {q : Pending} {st : ArgState} {xs : List (List Char)} {n : Nat}
    (hxs : ∀ x ∈ xs, trim x = x) (hbalance : q.balance = st.depth) (hquote : st.quote = none)
    (hplain : plainLiterals st (xs.flatMap ('\n' :: ·)) = true)
    (hopen : ∀ k < xs.length, 0 < (st.run ((xs.take k).flatMap ('\n' :: ·))).depth)
    (hend : (st.run (xs.flatMap ('\n' :: ·))).depth = 0)
    (hclosed : (st.run (xs.flatMap ('\n' :: ·))).quote = none) :
    (if q.isComplete then (q :: (statements none n xs).1, (statements none n xs).2) else statements (some q) n xs) =
      ([⟨q.text ++ xs.flatMap ('\n' :: ·), q.start, 0⟩], none) := by
  induction xs generalizing q st n with
  | nil =>
    have hzero : q.balance = 0 := hbalance.trans hend
    rw [if_pos (by simp [Pending.isComplete, hzero])]
    obtain ⟨text, start, balance⟩ := q
    simp only [statements, List.flatMap_nil, List.append_nil]
    rw [show balance = 0 from hzero]
  | cons x xs ih =>
    have hpos : 0 < q.balance := hbalance ▸ hopen 0 (Nat.succ_pos _)
    have hgoesOn : statements (some q) n (x :: xs) =
        if (q.add x).isComplete then
          (q.add x :: (statements none (n + 1) xs).1, (statements none (n + 1) xs).2)
        else statements (some (q.add x)) (n + 1) xs := by
      rw [statements, hxs x List.mem_cons_self]
      rfl
    rw [if_neg (by simpa [Pending.isComplete] using hpos), hgoesOn]
    rw [List.flatMap_cons, plainLiterals_append, Bool.and_eq_true] at hplain
    rw [List.flatMap_cons, ArgState.run_append] at hend hclosed
    have hline : (q.add x).balance = (st.run ('\n' :: x)).depth := by
      rw [depth_run_line hquote hplain.1, ← hbalance]
      rfl
    have hnext : (st.run ('\n' :: x)).quote = none := by
      cases xs with
      | nil => exact hclosed
      | cons y xs => exact quote_of_plainLiterals_newline hplain.2
    have hrest := ih (q := q.add x) (n := n + 1) (fun y hy => hxs y (List.mem_cons_of_mem x hy)) hline hnext hplain.2
      (fun k hk => ?_) hend hclosed
    · rw [hrest]
      simp [Pending.add]
    · have hk' := hopen (k + 1) (Nat.succ_lt_succ hk)
      rwa [List.take_succ_cons, List.flatMap_cons, ArgState.run_append] at hk'

/-- Open brackets less closed ones in the first lines of a text, outside literals. -/
def depthAfter (xs : List (List Char)) (k : Nat) : Int := (ArgState.run {} (joinLines (xs.take k))).depth

/-- Trimmed lines that hold something, the first of them no comment, between which a bracket is open, and which leave
neither a bracket nor a literal open. -/
structure OneStatement (xs : List (List Char)) : Prop where
  ne_nil : xs ≠ []
  line : ∀ x ∈ xs, trim x = x ∧ x ≠ [] ∧ '\n' ∉ x
  head : ∀ x ∈ xs.head?, isSilent x = false
  depth_pos : ∀ k < xs.length, k ≠ 0 → 0 < depthAfter xs k
  depth_end : depthAfter xs xs.length = 0
  closed : (ArgState.run {} (joinLines xs)).quote = none

instance : DecidablePred OneStatement := fun xs => decidable_of_iff
  (xs ≠ [] ∧ (∀ x ∈ xs, trim x = x ∧ x ≠ [] ∧ '\n' ∉ x) ∧ (∀ x ∈ xs.head?, isSilent x = false) ∧
    (∀ k < xs.length, k ≠ 0 → 0 < depthAfter xs k) ∧ depthAfter xs xs.length = 0 ∧
    (ArgState.run {} (joinLines xs)).quote = none)
  ⟨fun ⟨ne_nil, line, head, depth_pos, depth_end, closed⟩ => ⟨ne_nil, line, head, depth_pos, depth_end, closed⟩,
    fun h => ⟨h.ne_nil, h.line, h.head, h.depth_pos, h.depth_end, h.closed⟩⟩

theorem scriptStatements_joinLines {xs : List (List Char)} (h : OneStatement xs)
    (hplain : plainLiterals {} (joinLines xs) = true) :
    scriptStatements (joinLines xs) = ([⟨joinLines xs, 1, 0⟩], none) := by
  obtain ⟨x, xs, rfl⟩ := List.exists_cons_of_ne_nil h.ne_nil
  rw [scriptStatements, statements_congr (map_trim_lines_joinLines h.ne_nil h.line), statements,
    (h.line x List.mem_cons_self).1, h.head x rfl]
  have hend := h.depth_end
  have hclosed := h.closed
  rw [depthAfter, List.take_length, joinLines_cons, ArgState.run_append] at hend
  rw [joinLines_cons, plainLiterals_append, Bool.and_eq_true] at hplain
  rw [joinLines_cons, ArgState.run_append] at hclosed
  have hbalance : (Pending.begin x 1).balance = (ArgState.run {} x).depth := by
    rw [depth_run (by simp [ArgState.IsSound]) hplain.1]
    exact (Int.zero_add _).symm
  have hquote : (ArgState.run {} x).quote = none := by
    cases xs with
    | nil => exact hclosed
    | cons y xs => exact quote_of_plainLiterals_newline hplain.2
  have hrest := statements_of_open (n := 2) (fun y hy => (h.line y (List.mem_cons_of_mem x hy)).1) hbalance hquote
    hplain.2 (fun k hk => ?_) hend hclosed
  · rw [joinLines_cons]
    exact hrest
  · have hk' := h.depth_pos (k + 1) (Nat.succ_lt_succ hk) (Nat.succ_ne_zero k)
    rwa [depthAfter, List.take_succ_cons, joinLines_cons, ArgState.run_append] at hk'

/-- **Lines between which a bracket is open are one statement**: a script of such lines, whose literals are plain,
carries out its whole text as a statement that begins on line 1, and nothing else. -/
theorem runScript_joinLines {xs : List (List Char)} (h : OneStatement xs)
    (hplain : plainLiterals {} (joinLines xs) = true) :
    scriptStatements (joinLines xs) = ([⟨joinLines xs, 1, 0⟩], none) ∧
      ∀ s : Session, s.runScript (joinLines xs) =
        match s.execute 1 (joinLines xs) with
        | .ok (o, t) => ScriptResult.after o ⟨[], none, t⟩
        | .error e => ⟨[], some e, s⟩ := by
  have hstatements := scriptStatements_joinLines h hplain
  refine ⟨hstatements, fun s => ?_⟩
  rw [runScript_eq, hstatements]
  rfl

/-- A creation over four lines, with brackets and the other quote in its literals. -/
def bracketLiterals : List (List Char) :=
  ["T::create([".toList, "'a' => 'x) ]',".toList, "\"b\" => \"it's (\\\\\"".toList, "])".toList]

theorem runScript_joinLines_bracketLiterals :
    (OneStatement bracketLiterals ∧ plainLiterals {} (joinLines bracketLiterals) = true) ∧
      scriptStatements (joinLines bracketLiterals) = ([⟨joinLines bracketLiterals, 1, 0⟩], none) ∧
      ∀ s : Session, s.runScript (joinLines bracketLiterals) =
        match s.execute 1 (joinLines bracketLiterals) with
        | .ok (o, t) => ScriptResult.after o ⟨[], none, t⟩
        | .error e => ⟨[], some e, s⟩ := by
  have hone : OneStatement bracketLiterals := by decide
  have hplain : plainLiterals {} (joinLines bracketLiterals) = true := by decide
  exact ⟨⟨hone, hplain⟩, runScript_joinLines hone hplain⟩

/-- Without plain literals the lines are not read as one statement: a quote behind a backslash ends a literal for them,
and so does the end of a line, and then the quote that closes it opens another one. -/
theorem literals_break_statements :
    let escaped := ["T::create(['a' => 'it\\'s (ok'])".toList]
    let long := ["T::create(['a' => 'one".toList, "two'])".toList]
    (OneStatement escaped ∧ scriptStatements (joinLines escaped) = ([], some ⟨joinLines escaped, 1, 3⟩)) ∧
      (OneStatement long ∧ scriptStatements (joinLines long) = ([], some ⟨joinLines long, 1, 2⟩)) ∧
      ∀ s : Session, s.runScript (joinLines escaped) = ⟨[], some ⟨1, .fault .unfinished⟩, s⟩ ∧
        s.runScript (joinLines long) = ⟨[], some ⟨1, .fault .unfinished⟩, s⟩ := by
  intro escaped long
  have hescaped : OneStatement escaped := by decide
  have hlong : OneStatement long := by decide
  have hescapedOpen : scriptStatements (joinLines escaped) = ([], some ⟨joinLines escaped, 1, 3⟩) := by decide
  have hlongOpen : scriptStatements (joinLines long) = ([], some ⟨joinLines long, 1, 2⟩) := by decide
  refine ⟨⟨hescaped, hescapedOpen⟩, ⟨hlong, hlongOpen⟩, fun s => ⟨?_, ?_⟩⟩
  · rw [runScript_eq, hescapedOpen]
    rfl
  · rw [runScript_eq, hlongOpen]
    rfl

end Session

end FluentTables
