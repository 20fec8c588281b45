import FluentTables.Proofs.Session.Effects
import FluentTables.Proofs.Text.Lines
import FluentTables.Session.Script

/-!
# Scripts in parts

A script is run line by line: a line leaves a statement open, ends one, or fails (`readLine`, `runLines_cons`). What
has begun is forgotten wherever a statement ends. So a script without an error can be followed by another one, which
runs as on its own in the session that the first one left, with the numbers of its lines raised
(`runScript_append`). And a script that fails has done what its lines before the failing statement do
(`runScript_firstLines`): the line of the error is the one on which that statement begins.
-/

namespace FluentTables

/-! ## Results -/

namespace StatementError

/-- An error `k` lines further down. -/
def later (k : Nat) (e : StatementError) : StatementError := { e with line := e.line + k }

end StatementError

namespace ScriptResult

/-- The result of one script followed by that of another. -/
def andThen (a b : ScriptResult) : ScriptResult := ⟨a.outputs ++ b.outputs, b.error, b.session⟩

/-- The result with its error `k` lines further down. -/
def later (k : Nat) (r : ScriptResult) : ScriptResult := { r with error := r.error.map (·.later k) }

variable (o : Output) (r : ScriptResult)

@[simp] theorem error_after : (r.after o).error = r.error := by
  unfold after
  split <;> rfl

@[simp] theorem session_after : (r.after o).session = r.session := by
  unfold after
  split <;> rfl

theorem after_andThen (b : ScriptResult) : (r.after o).andThen b = (r.andThen b).after o := by
  unfold after
  split <;> rfl

theorem later_after (k : Nat) : (r.after o).later k = (r.later k).after o := by
  unfold after
  split <;> rfl

theorem after_without_error : { r.after o with error := none } = ({ r with error := none } : ScriptResult).after o := by
  unfold after
  split <;> rfl

end ScriptResult

/-- An error with another number for its line. -/
def StatementError.renumber (f : Nat → Nat) (e : StatementError) : StatementError := { e with line := f e.line }

/-- A statement that has begun, with another number for its line. -/
def Pending.renumber (f : Nat → Nat) (p : Pending) : Pending := { p with start := f p.start }

/-- A statement that has begun, `k` lines further down. -/
def Pending.later (k : Nat) (p : Pending) : Pending := { p with start := p.start + k }

namespace Session

variable {s : Session} {p q : Option Pending} {n : Nat} {raw : List Char} {xs : List (List Char)} {e : StatementError}

/-! ## One line -/

/-- What a line of a script comes to. -/
inductive LineOutcome where
  /-- No statement ends on the line. -/
  | wait (p : Option Pending)
  | done (o : Output) (s : Session)
  | fail (e : StatementError)

/-- A line of a script read. -/
def readLine (s : Session) (p : Option Pending) (n : Nat) (raw : List Char) : LineOutcome :=
  let line := Text.trim raw
  if p.isNone && isSilent line then .wait p
  else
    let q := Pending.next p line n
    if q.isComplete then
      match s.execute q.start q.text with
      | .ok (o, t) => .done o t
      | .error e => .fail e
    else .wait (some q)

/-- A script goes on as its first line says. -/
theorem runLines_cons (s : Session) (p : Option Pending) (n : Nat) (raw : List Char) (r : List (List Char)) :
    s.runLines p n (raw :: r) =
      match s.readLine p n raw with
      | .wait q => s.runLines q (n + 1) r
      | .done o t => (t.runLines none (n + 1) r).after o
      | .fail e => ⟨[], some e, s⟩ := by
  rw [runLines]
  unfold readLine
  dsimp only
  split
  · rfl
  · split
    · rw [step_eq]
      cases s.execute (Pending.next p (Text.trim raw) n).start (Pending.next p (Text.trim raw) n).text with
      | ok a => rfl
      | error e => rfl
    · rfl

/-- The line on which the statement of a line begins. -/
def startLine (p : Option Pending) (n : Nat) : Nat := (p.map Pending.start).getD n

theorem start_next (p : Option Pending) (line : List Char) (n : Nat) :
    (Pending.next p line n).start = startLine p n := by
  cases p <;> rfl

/-- A line that ends no statement leaves nothing open, or a statement with open brackets that began where it should. -/
theorem readLine_wait (h : s.readLine p n raw = .wait q) :
    q = none ∧ p = none ∨ ∃ a, q = some a ∧ a.start = startLine p n ∧ a.isComplete = false := by
  unfold readLine at h
  dsimp only at h
  split at h
  · next hsilent =>
    cases h
    simp only [Bool.and_eq_true, Option.isNone_iff_eq_none] at hsilent
    exact Or.inl ⟨hsilent.1, hsilent.1⟩
  · split at h
    · split at h <;> cases h
    · next hopen =>
      cases h
      exact Or.inr ⟨_, rfl, start_next p _ n, by simpa using hopen⟩

/-- A line fails by the statement that ends on it. -/
theorem line_of_readLine (h : s.readLine p n raw = .fail e) : e.line = startLine p n := by
  unfold readLine at h
  dsimp only at h
  split at h
  · cases h
  · split at h
    · split at h
      · cases h
      · next herr =>
        cases h
        rw [line_of_execute herr, start_next]
    · cases h

/-! ## Numbers of lines -/

/-- What comes of a line when the lines have other numbers. -/
def LineOutcome.renumber (f : Nat → Nat) : LineOutcome → LineOutcome
  | wait p => .wait (p.map (·.renumber f))
  | done o s => .done o s
  | fail e => .fail (e.renumber f)

theorem execute_renumber (s : Session) (n : Nat) (statement : List Char) (f : Nat → Nat) :
    s.execute (f n) statement = (s.execute n statement).mapError (·.renumber f) := by
  rw [execute_number s (f n), execute_number s n]
  cases s.execute 0 statement <;> rfl

theorem next_renumber (p : Option Pending) (line : List Char) (n : Nat) (f : Nat → Nat) :
    Pending.next (p.map (·.renumber f)) line (f n) = (Pending.next p line n).renumber f := by
  cases p <;> rfl

/-- The numbers of lines only go into open statements and errors. -/
theorem readLine_renumber (s : Session) (p : Option Pending) (n : Nat) (raw : List Char) (f : Nat → Nat) :
    s.readLine (p.map (·.renumber f)) (f n) raw = (s.readLine p n raw).renumber f := by
  unfold readLine
  dsimp only
  rw [Option.isNone_map, next_renumber]
  split
  · rfl
  · change (if (Pending.next p (Text.trim raw) n).isComplete = true then _ else _) = _
    split
    · change (match s.execute (f (Pending.next p (Text.trim raw) n).start) _ with
        | .ok (o, t) => LineOutcome.done o t
        | .error e => .fail e) = _
      rw [execute_renumber]
      change (match (s.execute _ (Pending.next p (Text.trim raw) n).text).mapError _ with
        | .ok (o, t) => LineOutcome.done o t
        | .error e => .fail e) = _
      cases s.execute (Pending.next p (Text.trim raw) n).start (Pending.next p (Text.trim raw) n).text <;> rfl
    · rfl

/-- A script that stands further down only has its error further down. -/
theorem runLines_later (s : Session) (p : Option Pending) (n k : Nat) (xs : List (List Char)) :
    s.runLines (p.map (·.later k)) (n + k) xs = (s.runLines p n xs).later k := by
  induction xs generalizing s p n with
  | nil => cases p <;> rfl
  | cons raw r ih =>
    have hline : s.readLine (p.map (·.later k)) (n + k) raw = (s.readLine p n raw).renumber (· + k) :=
      readLine_renumber s p n raw (· + k)
    rw [runLines_cons, runLines_cons, hline]
    cases s.readLine p n raw with
    | wait q =>
      show s.runLines (q.map (·.later k)) (n + k + 1) r = _
      rw [← ih, Nat.add_right_comm]
    | done o t =>
      simp only [LineOutcome.renumber]
      rw [ScriptResult.later_after, ← ih, Nat.add_right_comm]
      rfl
    | fail e => rfl

/-! ## White space and blank lines -/

/-- White space at the ends of lines does not matter. -/
theorem runLines_congr {xs ys : List (List Char)} (h : xs.map Text.trim = ys.map Text.trim) (s : Session)
    (p : Option Pending) (n : Nat) : s.runLines p n xs = s.runLines p n ys := by
  induction xs generalizing ys s p n with
  | nil =>
    cases ys with
    | nil => rfl
    | cons y ys => cases h
  | cons x xs ih =>
    cases ys with
    | nil => cases h
    | cons y ys =>
      simp only [List.map_cons, List.cons.injEq] at h
      have hline : s.readLine p n x = s.readLine p n y := by
        unfold readLine
        rw [h.1]
      simp only [runLines_cons, hline, ih h.2]

/-- A blank line at the end does not matter. -/
theorem runLines_append_blank (hp : ∀ a, p = some a → a.isComplete = false) (s : Session) (n : Nat)
    (xs : List (List Char)) : s.runLines p n (xs ++ [[]]) = s.runLines p n xs := by
  induction xs generalizing s p n with
  | nil =>
    rw [List.nil_append, runLines_cons]
    cases p with
    | none => rfl
    | some a =>
      -- The blank line becomes part of the statement and leaves its brackets as they are.
      have hopen : (Pending.next (some a) [] n).isComplete = false := by
        simpa [Pending.next, Pending.add, Pending.isComplete, Text.bracketBalance, Text.bracketBalanceFrom]
          using hp a rfl
      have hwait : s.readLine (some a) n [] = .wait (some (Pending.next (some a) [] n)) := by
        show (if (Pending.next (some a) [] n).isComplete = true then _ else _) = _
        rw [hopen]
        rfl
      rw [hwait]
      rfl
  | cons raw r ih =>
    rw [List.cons_append, runLines_cons, runLines_cons]
    cases hline : s.readLine p n raw with
    | wait q =>
      refine ih (fun a ha => ?_) s (n + 1)
      rcases readLine_wait hline with ⟨rfl, -⟩ | ⟨b, rfl, -, hb⟩
      · cases ha
      · cases ha; exact hb
    | done o t => simp only [ih (p := none) (fun _ ha => by cases ha)]
    | fail e => rfl

/-- A line feed at the end does not matter. -/
theorem runScript_append_newline (s : Session) (a : List Char) : s.runScript (a ++ ['\n']) = s.runScript a := by
  unfold runScript
  rcases Text.map_trim_lines_append_newline a with h | h
  · exact runLines_congr h s none 1
  · have hblank : (Text.lines (a ++ ['\n'])).map Text.trim = (Text.lines a ++ [[]]).map Text.trim := by
      rw [h, List.map_append]
      rfl
    rw [runLines_congr hblank s none 1]
    exact runLines_append_blank (fun _ ha => by cases ha) s 1 _

/-- A script put together from lines is run line by line. -/
theorem runScript_intercalate (s : Session) {xs : List (List Char)} (h : ∀ x ∈ xs, '\n' ∉ x) :
    s.runScript (List.intercalate ['\n'] xs) = s.runLines none 1 xs := by
  by_cases hne : xs = []
  · subst hne
    rfl
  · rw [← runScript_append_newline]
    exact runLines_congr (Text.map_trim_lines_intercalate hne h) s none 1

/-! ## One script after another -/

/-- After lines without an error come the next ones, in the session that those left. -/
theorem runLines_append_of_done (ys : List (List Char)) (h : (s.runLines p n xs).error = none) :
    s.runLines p n (xs ++ ys) =
      (s.runLines p n xs).andThen ((s.runLines p n xs).session.runLines none (n + xs.length) ys) := by
  induction xs generalizing s p n with
  | nil =>
    cases p with
    | none => rfl
    | some a => cases h
  | cons raw r ih =>
    rw [runLines_cons] at h
    rw [List.cons_append, runLines_cons, runLines_cons, List.length_cons, Nat.add_comm r.length, ← Nat.add_assoc]
    cases hline : s.readLine p n raw with
    | wait q =>
      rw [hline] at h
      exact ih h
    | done o t =>
      simp only [hline, ScriptResult.error_after] at h
      simp only [ih h, ScriptResult.after_andThen, ScriptResult.session_after]
    | fail e =>
      rw [hline] at h
      cases h

/-- Lines with a statement that fails are the end of a script. -/
theorem runLines_append_of_failed (ys : List (List Char)) (h : (s.runLines p n xs).error = some e)
    (he : e.cause ≠ .fault .unfinished) : s.runLines p n (xs ++ ys) = s.runLines p n xs := by
  induction xs generalizing s p n with
  | nil =>
    cases p with
    | none => cases h
    | some a =>
      cases h
      exact absurd rfl he
  | cons raw r ih =>
    rw [runLines_cons] at h
    rw [List.cons_append, runLines_cons, runLines_cons]
    cases hline : s.readLine p n raw with
    | wait q =>
      rw [hline] at h
      exact ih h
    | done o t =>
      simp only [hline, ScriptResult.error_after] at h
      simp only [ih h]
    | fail e => rfl

/-- **One script after another.** After a script without an error the next one runs as on its own, in the session that
the first one left, and its error is further down by the lines of the first one. After a statement that fails nothing
runs. -/
theorem runScript_append (s : Session) (a b : List Char) :
    ((s.runScript a).error = none →
      s.runScript (a ++ '\n' :: b) =
        (s.runScript a).andThen (((s.runScript a).session.runScript b).later (a.count '\n' + 1))) ∧
      ∀ e, (s.runScript a).error = some e → e.cause ≠ .fault .unfinished →
        s.runScript (a ++ '\n' :: b) = s.runScript a := by
  have hlines : s.runScript (a ++ '\n' :: b) = s.runLines none 1 (Text.lines (a ++ ['\n']) ++ Text.lines b) := by
    rw [runScript, Text.lines_append_newline]
  have hfirst : s.runLines none 1 (Text.lines (a ++ ['\n'])) = s.runScript a := runScript_append_newline s a
  constructor
  · intro h
    rw [hlines, runLines_append_of_done _ (by rw [hfirst]; exact h), hfirst, Text.length_lines_append_newline]
    exact congrArg _ (runLines_later _ none 1 _ _)
  · intro e h he
    rw [hlines, runLines_append_of_failed _ (by rw [hfirst]; exact h) he, hfirst]

/-- A script that saves a row. -/
def savingScript : List Char := "CREATE TABLE ts (id INT);\r\nSAVE ts [\n\x7b\"id\": 1\x7d\n]".toList

/-- A script that fails on its third line. -/
def failingScript : List Char := "T::all()\n\nSHOW [\nu]".toList

theorem runScript_append_saving :
    let s := start ⟨.extend .empty .empty, "<now>"⟩ {}
    (s.runScript savingScript).error = none ∧
      s.runScript (savingScript ++ '\n' :: failingScript) =
        (s.runScript savingScript).andThen
          (((s.runScript savingScript).session.runScript failingScript).later (savingScript.count '\n' + 1)) ∧
      (s.runScript failingScript).error = some ⟨3, .fault (.unknownTable "[\nu]")⟩ ∧
      s.runScript (failingScript ++ '\n' :: savingScript) = s.runScript failingScript := by
  have hsaved : ((start ⟨.extend .empty .empty, "<now>"⟩ {}).runScript savingScript).error = none := by decide +kernel
  have hfailed : ((start ⟨.extend .empty .empty, "<now>"⟩ {}).runScript failingScript).error =
      some ⟨3, .fault (.unknownTable "[\nu]")⟩ := by decide +kernel
  exact ⟨hsaved, (runScript_append _ _ _).1 hsaved, hfailed, (runScript_append _ _ _).2 _ hfailed (by decide)⟩

/-! ## The lines before a failing statement -/

/-- Lines that fail do so by the statement that was open, or have done what the lines before the failing statement
do. -/
theorem runLines_take (h : (s.runLines p n xs).error = some e) :
    (∃ a, p = some a ∧ e.line = a.start ∧ s.runLines p n xs = ⟨[], some e, s⟩) ∨
      n ≤ e.line ∧ e.line < n + xs.length ∧
        s.runLines p n (xs.take (e.line - n)) = { s.runLines p n xs with error := none } := by
  induction xs generalizing s p n with
  | nil =>
    cases p with
    | none => cases h
    | some a =>
      cases h
      exact Or.inl ⟨a, rfl, rfl, rfl⟩
  | cons raw r ih =>
    -- A statement that begins on this line leaves no line before it.
    have hhere : e.line = startLine p n → s.runLines p n (raw :: r) = ⟨[], some e, s⟩ →
        (∃ a, p = some a ∧ e.line = a.start ∧ s.runLines p n (raw :: r) = ⟨[], some e, s⟩) ∨
          n ≤ e.line ∧ e.line < n + (raw :: r).length ∧ s.runLines p n ((raw :: r).take (e.line - n)) =
            { s.runLines p n (raw :: r) with error := none } := by
      intro hstart hresult
      cases p with
      | none =>
        have hline : e.line = n := hstart
        refine Or.inr ⟨by omega, by simp only [List.length_cons]; omega, ?_⟩
        rw [hresult, hline, Nat.sub_self]
        rfl
      | some a => exact Or.inl ⟨a, rfl, hstart, hresult⟩
    have htake : n + 1 ≤ e.line → (raw :: r).take (e.line - n) = raw :: r.take (e.line - (n + 1)) := by
      intro hle
      rw [show e.line - n = e.line - (n + 1) + 1 by omega, List.take_succ_cons]
    rw [runLines_cons] at h
    cases hline : s.readLine p n raw with
    | wait q =>
      rw [hline] at h
      rcases ih h with ⟨a, rfl, hstart, hresult⟩ | ⟨hle, hlt, hresult⟩
      · rcases readLine_wait hline with ⟨hq, -⟩ | ⟨b, hb, hbstart, -⟩
        · cases hq
        · cases hb
          exact hhere (hstart.trans hbstart) (by rw [runLines_cons, hline]; exact hresult)
      · refine Or.inr ⟨by omega, by simp only [List.length_cons]; omega, ?_⟩
        rw [htake hle, runLines_cons, runLines_cons, hline]
        exact hresult
    | done o t =>
      simp only [hline, ScriptResult.error_after] at h
      rcases ih h with ⟨a, hnone, -, -⟩ | ⟨hle, hlt, hresult⟩
      · cases hnone
      · refine Or.inr ⟨by omega, by simp only [List.length_cons]; omega, ?_⟩
        rw [htake hle, runLines_cons, runLines_cons, hline]
        simp only [hresult, ScriptResult.after_without_error]
    | fail e' =>
      rw [hline] at h
      cases h
      exact hhere (line_of_readLine hline) (by rw [runLines_cons, hline])

/-- **A script that fails has done what comes before.** The lines before the one that its error names, run by
themselves, have no error and give out and leave the same. -/
theorem runScript_firstLines {script : List Char} (h : (s.runScript script).error = some e) :
    1 ≤ e.line ∧ e.line ≤ (Text.lines script).length ∧
      s.runScript (Text.firstLines (e.line - 1) script) = { s.runScript script with error := none } := by
  unfold runScript at h ⊢
  rw [Text.lines_firstLines]
  rcases runLines_take h with ⟨a, hnone, -, -⟩ | ⟨hle, hlt, hresult⟩
  · cases hnone
  · exact ⟨hle, by omega, hresult⟩

theorem runScript_firstLines_saving :
    let s := start ⟨.extend .empty .empty, "<now>"⟩ {}
    let script := savingScript ++ '\n' :: failingScript
    (s.runScript script).error = some ⟨7, .fault (.unknownTable "[\nu]")⟩ ∧
      1 ≤ 7 ∧ 7 ≤ (Text.lines script).length ∧
      s.runScript (Text.firstLines 6 script) = { s.runScript script with error := none } := by
  have hfailed : ((start ⟨.extend .empty .empty, "<now>"⟩ {}).runScript (savingScript ++ '\n' :: failingScript)).error =
      some ⟨7, .fault (.unknownTable "[\nu]")⟩ := by decide +kernel
  exact ⟨hfailed, runScript_firstLines hfailed⟩

end Session

end FluentTables
