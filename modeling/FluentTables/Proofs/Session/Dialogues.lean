import FluentTables.Proofs.Session.Scripts
import FluentTables.CommandLine.Report

/-!
# Dialogues and scripts

A dialogue reads a line as a script does (`read_eq`), with two differences. It passes over a blank line within a
statement too, where a script takes the line into the statement. And it takes a comment for a statement, so that a
comment with open brackets swallows the lines after it.

So a dialogue of lines whose comments leave no bracket open gives out and leaves what the script of the same lines
does, the blank ones left out (`agrees_nonblank`). Within a statement a blank line can make a difference
(`blank_line_differs`); between statements it makes none, and then the dialogue agrees with the script of all its lines
(`agrees_runScript`).
-/

namespace FluentTables

/-- A result without the numbers of its lines. -/
def ScriptResult.unnumbered (r : ScriptResult) : ScriptResult :=
  { r with error := r.error.map (·.renumber fun _ => 0) }

theorem ScriptResult.unnumbered_after (o : Output) (r : ScriptResult) :
    (r.after o).unnumbered = r.unnumbered.after o := by
  unfold after
  split <;> rfl

/-- What an event gives out; an output of nothing is left out. -/
def Repl.Event.output? : Repl.Event → Option Output
  | .output o => if o = .nothing then none else some o
  | _ => none

namespace Session

variable {s t : Session} {p q : Option Pending} {n : Nat} {raw : List Char} {o : Output} {xs : List (List Char)}

/-! ## Scripts without line numbers -/

/-- The numbers of its lines only go into the error of a script. -/
theorem unnumbered_runLines (s : Session) (p : Option Pending) (n : Nat) (xs : List (List Char)) :
    (s.runLines p n xs).unnumbered = (s.runLines (p.map (·.renumber fun _ => 0)) 0 xs).unnumbered := by
  induction xs generalizing s p n with
  | nil => cases p <;> rfl
  | cons raw r ih =>
    rw [runLines_cons, runLines_cons, readLine_renumber s p n raw fun _ => 0]
    cases s.readLine p n raw with
    | wait q =>
      simp only [LineOutcome.renumber]
      rw [ih s q (n + 1), ih s (q.map _) (0 + 1), Option.map_map]
      rfl
    | done o t =>
      simp only [LineOutcome.renumber, ScriptResult.unnumbered_after]
      rw [ih t none (n + 1), ih t none (0 + 1)]
    | fail e => rfl

/-- A script that starts at another line gives out and leaves the same. -/
theorem unnumbered_runLines_congr (s : Session) (p : Option Pending) (n m : Nat) (xs : List (List Char)) :
    (s.runLines p n xs).unnumbered = (s.runLines p m xs).unnumbered := by
  rw [unnumbered_runLines s p n, unnumbered_runLines s p m]

/-- The lines that are not blank. -/
def nonblank (xs : List (List Char)) : List (List Char) := xs.filter fun x => !(Text.trim x).isEmpty

theorem nonblank_cons (raw : List Char) (xs : List (List Char)) :
    nonblank (raw :: xs) = if Text.trim raw = [] then nonblank xs else raw :: nonblank xs := by
  unfold nonblank
  by_cases h : Text.trim raw = [] <;> simp [h]

/-! ## Open brackets -/

/-- The brackets that are open within a statement; between statements there are none. -/
def openBrackets (p : Option Pending) : Int := (p.map Pending.balance).getD 0

/-- The brackets that are open after a line, `d` being open before it. -/
def openAfter (d : Int) (raw : List Char) : Int :=
  let line := Text.trim raw
  if d = 0 && isSilent line then 0 else max 0 (d + Text.bracketBalance line)

/-- Something holds of all lines and of the brackets that are open before them. -/
def Throughout (P : Int → List Char → Prop) (d : Int) : List (List Char) → Prop
  | [] => True
  | raw :: r => P d raw ∧ Throughout P (openAfter d raw) r

instance decidableThroughout (P : Int → List Char → Prop) [∀ d raw, Decidable (P d raw)] :
    (d : Int) → (xs : List (List Char)) → Decidable (Throughout P d xs)
  | _, [] => isTrue trivial
  | d, raw :: r =>
    have := decidableThroughout P (openAfter d raw) r
    inferInstanceAs (Decidable (P d raw ∧ Throughout P (openAfter d raw) r))

/-- A line that is no comment between statements, or one that leaves no bracket open. -/
def CommentCloses (d : Int) (raw : List Char) : Prop :=
  d = 0 → isSilent (Text.trim raw) = true → Text.bracketBalance (Text.trim raw) ≤ 0

instance (d : Int) (raw : List Char) : Decidable (CommentCloses d raw) :=
  inferInstanceAs (Decidable (_ → _ → _))

/-- A line that is not blank, or one between statements. -/
def BlankBetween (d : Int) (raw : List Char) : Prop := Text.trim raw = [] → d = 0

instance (d : Int) (raw : List Char) : Decidable (BlankBetween d raw) := inferInstanceAs (Decidable (_ → _))

/-- A statement that has begun has brackets open. -/
def Unfinished (p : Option Pending) : Prop := ∀ a, p = some a → a.isComplete = false

theorem unfinished_of_wait (h : s.readLine p n raw = .wait q) : Unfinished q := by
  intro a ha
  rcases readLine_wait h with ⟨rfl, -⟩ | ⟨b, rfl, -, hb⟩
  · cases ha
  · cases ha; exact hb

theorem openBrackets_nonneg (h : Unfinished p) : 0 ≤ openBrackets p := by
  cases p with
  | none => exact Int.le_refl 0
  | some a =>
    have ha := h a rfl
    simp only [Pending.isComplete, decide_eq_false_iff_not] at ha
    simp only [openBrackets, Option.map_some, Option.getD_some]
    omega

theorem openBrackets_eq_zero (h : Unfinished p) (h0 : openBrackets p = 0) : p = none := by
  cases p with
  | none => rfl
  | some a =>
    have ha := h a rfl
    simp only [Pending.isComplete, decide_eq_false_iff_not] at ha
    simp only [openBrackets, Option.map_some, Option.getD_some] at h0
    omega

/-- A blank line leaves the brackets as they are. -/
theorem openAfter_blank (hp : Unfinished p) (h : Text.trim raw = []) :
    openAfter (openBrackets p) raw = openBrackets p := by
  have hnonneg := openBrackets_nonneg hp
  unfold openAfter
  dsimp only
  rw [h]
  split
  · next h0 =>
    simp only [Bool.and_eq_true, decide_eq_true_eq] at h0
    exact h0.1.symm
  · show max 0 (openBrackets p + 0) = openBrackets p
    omega

/-- Between statements a line that says nothing opens nothing. -/
theorem openAfter_silent (h : isSilent (Text.trim raw) = true) : openAfter (openBrackets none) raw = 0 := by
  unfold openAfter
  dsimp only
  rw [h]
  rfl

theorem readLine_silent (h : isSilent (Text.trim raw) = true) : s.readLine none n raw = .wait none := by
  unfold readLine
  dsimp only
  rw [h]
  rfl

theorem balance_next (p : Option Pending) (line : List Char) (n : Nat) :
    (Pending.next p line n).balance = openBrackets p + Text.bracketBalance line := by
  cases p with
  | none => simp [Pending.next, Pending.begin, openBrackets]
  | some a => rfl

/-- The brackets that are open after a line are told by the brackets before it. -/
theorem openAfter_of_readLine (s : Session) (n : Nat) (raw : List Char) (hp : Unfinished p) :
    (∀ q, s.readLine p n raw = .wait q → openAfter (openBrackets p) raw = openBrackets q) ∧
      ∀ o t, s.readLine p n raw = .done o t → openAfter (openBrackets p) raw = 0 := by
  unfold readLine openAfter
  dsimp only
  have hsilent : (decide (openBrackets p = 0) && isSilent (Text.trim raw)) =
      (p.isNone && isSilent (Text.trim raw)) := by
    cases p with
    | none => rfl
    | some a =>
      have : openBrackets (some a) ≠ 0 := fun h0 => by cases openBrackets_eq_zero hp h0
      simp [this]
  rw [hsilent]
  have hbalance := balance_next p (Text.trim raw) n
  split
  · next h =>
    simp only [Bool.and_eq_true, Option.isNone_iff_eq_none] at h
    obtain ⟨rfl, -⟩ := h
    exact ⟨fun q hq => by cases hq; rfl, fun o t h => by cases h⟩
  · split
    · next hcomplete =>
      simp only [Pending.isComplete, decide_eq_true_eq] at hcomplete
      refine ⟨fun q hq => ?_, fun o t _ => by omega⟩
      split at hq <;> cases hq
    · next hopen =>
      simp only [Pending.isComplete, decide_eq_true_eq] at hopen
      refine ⟨fun q hq => ?_, fun o t h => by cases h⟩
      cases hq
      simp only [openBrackets, Option.map_some, Option.getD_some] at hbalance ⊢
      omega

/-- Between statements blank lines do not matter to a script. -/
theorem unnumbered_runLines_nonblank (hp : Unfinished p) (h : Throughout BlankBetween (openBrackets p) xs) :
    (s.runLines p n (nonblank xs)).unnumbered = (s.runLines p n xs).unnumbered := by
  induction xs generalizing s p n with
  | nil => rfl
  | cons raw xs ih =>
    obtain ⟨hbetween, hrest⟩ := h
    rw [nonblank_cons, runLines_cons s p n raw xs]
    by_cases hblank : Text.trim raw = []
    · have hnone := openBrackets_eq_zero hp (hbetween hblank)
      subst hnone
      have hsilent : isSilent (Text.trim raw) = true := by rw [hblank]; rfl
      rw [openAfter_blank hp hblank] at hrest
      rw [if_pos hblank, readLine_silent hsilent, unnumbered_runLines_congr s none n (n + 1)]
      exact ih hp hrest
    · rw [if_neg hblank, runLines_cons]
      obtain ⟨hwait, hdone⟩ := openAfter_of_readLine s n raw hp
      cases hline : s.readLine p n raw with
      | wait q =>
        rw [hwait q hline] at hrest
        exact ih (unfinished_of_wait hline) hrest
      | done o t =>
        rw [hdone o t hline] at hrest
        simp only [ScriptResult.unnumbered_after]
        rw [ih (p := none) nofun hrest]
      | fail e => rfl

end Session

/-! ## Lines of a dialogue -/

namespace Repl

open Session

variable {r u : Repl} {raw : List Char} {xs : List (List Char)}

/-- What lines of a dialogue give out. -/
def outputs (r : Repl) (xs : List (List Char)) : List Output := (r.readAll xs).1.filterMap Event.output?

/-- The session that lines of a dialogue leave. -/
def sessionAfter (r : Repl) (xs : List (List Char)) : Session := (r.readAll xs).2.session

theorem readAll_cons {e : Event} (h : r.read raw = (e, u)) (he : e ≠ .quit) (xs : List (List Char)) :
    r.readAll (raw :: xs) = (e :: (u.readAll xs).1, (u.readAll xs).2) := by
  rw [readAll, h]
  cases e with
  | quit => exact absurd rfl he
  | _ => rfl

/-- A line that ends no dialogue gives out its own and leads to the next line. -/
theorem outputs_cons {e : Event} (h : r.read raw = (e, u)) (he : e ≠ .quit) (xs : List (List Char)) :
    r.outputs (raw :: xs) = e.output?.toList ++ u.outputs xs ∧
      r.sessionAfter (raw :: xs) = u.sessionAfter xs := by
  unfold outputs sessionAfter
  rw [readAll_cons h he]
  cases ho : e.output? <;> simp [ho]

theorem read_blank (r : Repl) (h : Text.trim raw = []) :
    r.read raw = (.silent, { r with count := r.count + 1 }) := by
  unfold read
  rw [h]
  rfl

theorem read_of_ne_nil (r : Repl) (hne : Text.trim raw ≠ [])
    (hexit : Text.sameAscii (Text.trim raw) "EXIT".toList = false) :
    r.read raw =
      let p := Pending.next r.pending (Text.trim raw) (r.count + 1)
      if p.isComplete then
        match r.session.execute p.start p.text with
        | .ok (o, s) => (.output o, ⟨s, none, r.count + 1⟩)
        | .error e => (.failure e, ⟨r.session, none, r.count + 1⟩)
      else (.silent, ⟨r.session, some p, r.count + 1⟩) := by
  have hempty : (Text.trim raw).isEmpty = false := by simpa using hne
  unfold read
  dsimp only
  rw [hempty, hexit, Bool.and_false, step_eq]
  simp only [Bool.false_eq_true, if_false]
  split
  · cases r.session.execute (Pending.next r.pending (Text.trim raw) (r.count + 1)).start
      (Pending.next r.pending (Text.trim raw) (r.count + 1)).text <;> rfl
  · rfl

/-- Between statements, a comment without open brackets does nothing. -/
theorem read_comment (hp : r.pending = none) (hne : Text.trim raw ≠ [])
    (hexit : Text.sameAscii (Text.trim raw) "EXIT".toList = false)
    (hsilent : Session.isSilent (Text.trim raw) = true) (hclose : Text.bracketBalance (Text.trim raw) ≤ 0) :
    r.read raw = (.output .nothing, { r with count := r.count + 1 }) := by
  have hcomplete : (Pending.begin (Text.trim raw) (r.count + 1)).isComplete = true :=
    decide_eq_true hclose
  have hexecute : r.session.execute (r.count + 1) (Text.trim raw) = .ok (.nothing, r.session) := by
    unfold Session.execute Session.step
    dsimp only
    rw [Text.trim_trim, hsilent]
    rfl
  rw [read_of_ne_nil r hne hexit, hp]
  simp only [Pending.next, hcomplete, if_true]
  simp only [Pending.begin, hexecute]

/-- **Any other line is read as in a script.** -/
theorem read_eq (r : Repl) (hne : Text.trim raw ≠ [])
    (hexit : Text.sameAscii (Text.trim raw) "EXIT".toList = false)
    (hcomment : (r.pending.isNone && Session.isSilent (Text.trim raw)) = false) :
    r.read raw =
      match r.session.readLine r.pending (r.count + 1) raw with
      | .wait p => (.silent, ⟨r.session, p, r.count + 1⟩)
      | .done o t => (.output o, ⟨t, none, r.count + 1⟩)
      | .fail e => (.failure e, ⟨r.session, none, r.count + 1⟩) := by
  rw [read_of_ne_nil r hne hexit]
  unfold Session.readLine
  dsimp only
  rw [hcomment]
  simp only [Bool.false_eq_true, if_false]
  split
  · cases r.session.execute (Pending.next r.pending (Text.trim raw) (r.count + 1)).start
      (Pending.next r.pending (Text.trim raw) (r.count + 1)).text <;> rfl
  · rfl

/-! ## A dialogue and a script -/

/-- Lines of a dialogue give out and leave what a script does, unless that has an error. -/
def Agrees (r : Repl) (xs : List (List Char)) (result : ScriptResult) : Prop :=
  result.error = none → r.outputs xs = result.outputs ∧ r.sessionAfter xs = result.session

variable {a b : ScriptResult}

theorem Agrees.of_unnumbered (h : r.Agrees xs a) (hab : a.unnumbered = b.unnumbered) : r.Agrees xs b := by
  cases a with
  | mk outputs error session =>
    cases b with
    | mk outputs' error' session' =>
      simp only [ScriptResult.unnumbered, ScriptResult.mk.injEq] at hab
      obtain ⟨rfl, herror, rfl⟩ := hab
      intro hb
      have hb : error' = none := hb
      subst hb
      exact h (by simpa using herror)

theorem Agrees.silent (h : u.Agrees xs a) (hread : r.read raw = (.silent, u)) : r.Agrees (raw :: xs) a := by
  intro ha
  obtain ⟨houtputs, hsession⟩ := outputs_cons hread (by simp) xs
  rw [houtputs, hsession]
  exact h ha

theorem Agrees.output {o : Output} (h : u.Agrees xs a) (hread : r.read raw = (.output o, u)) :
    r.Agrees (raw :: xs) (a.after o) := by
  intro ha
  rw [ScriptResult.error_after] at ha
  obtain ⟨houtputs, hsession⟩ := outputs_cons hread (by simp) xs
  rw [houtputs, hsession, ScriptResult.session_after, (h ha).1, (h ha).2]
  refine ⟨?_, rfl⟩
  show (if o = .nothing then none else some o).toList ++ a.outputs = _
  unfold ScriptResult.after
  split <;> rfl

/-- A dialogue agrees with a script of its lines that are not blank. -/
theorem agrees_nonblank (hp : Unfinished r.pending)
    (hexit : ∀ x ∈ xs, Text.sameAscii (Text.trim x) "EXIT".toList = false)
    (hcomment : Throughout CommentCloses (openBrackets r.pending) xs) :
    r.Agrees xs (r.session.runLines r.pending (r.count + 1) (nonblank xs)) := by
  induction xs generalizing r with
  | nil =>
    cases hpending : r.pending with
    | none => exact fun _ => ⟨rfl, rfl⟩
    | some a => exact fun h => by cases h
  | cons raw xs ih =>
    have hexits := fun x hx => hexit x (List.mem_cons_of_mem raw hx)
    have hexit := hexit raw List.mem_cons_self
    obtain ⟨hclose, hcomment⟩ := hcomment
    rw [nonblank_cons]
    by_cases hblank : Text.trim raw = []
    · -- The script lacks the line, so the numbers of its lines fall behind by one.
      rw [if_pos hblank]
      rw [openAfter_blank hp hblank] at hcomment
      exact ((ih (r := { r with count := r.count + 1 }) hp hexits hcomment).of_unnumbered
        (unnumbered_runLines_congr _ _ _ _ _)).silent (read_blank r hblank)
    · rw [if_neg hblank, Session.runLines_cons]
      by_cases hsilent : r.pending = none ∧ isSilent (Text.trim raw) = true
      · obtain ⟨hnone, hsilent⟩ := hsilent
        rw [hnone] at hclose hcomment ⊢
        rw [openAfter_silent hsilent] at hcomment
        rw [readLine_silent hsilent]
        exact (ih (r := ⟨r.session, none, r.count + 1⟩) nofun hexits hcomment).output
          (hnone ▸ read_comment hnone hblank hexit hsilent (hclose rfl hsilent))
      · have hread := read_eq r hblank hexit (by simpa using hsilent)
        obtain ⟨hwait, hdone⟩ := openAfter_of_readLine r.session (r.count + 1) raw hp
        cases hline : r.session.readLine r.pending (r.count + 1) raw with
        | wait q =>
          rw [hline] at hread
          rw [hwait q hline] at hcomment
          exact (ih (r := ⟨r.session, q, r.count + 1⟩) (unfinished_of_wait hline) hexits hcomment).silent hread
        | done o t =>
          rw [hline] at hread
          rw [hdone o t hline] at hcomment
          exact (ih (r := ⟨t, none, r.count + 1⟩) nofun hexits hcomment).output hread
        | fail e => exact fun h => by cases h

/-- **A dialogue agrees with a script of its lines**, as long as no comment between statements leaves a bracket open:
with the script of those that are not blank, and with the script of all of them if no blank line stands within a
statement. -/
theorem agrees_runScript (s : Session) (hlines : ∀ x ∈ xs, '\n' ∉ x)
    (hexit : ∀ x ∈ xs, Text.sameAscii (Text.trim x) "EXIT".toList = false) (hcomment : Throughout CommentCloses 0 xs) :
    Agrees { session := s } xs (s.runScript (List.intercalate ['\n'] (nonblank xs))) ∧
      (Throughout BlankBetween 0 xs → Agrees { session := s } xs (s.runScript (List.intercalate ['\n'] xs))) := by
  have hnonblank : Agrees { session := s } xs (s.runLines none 1 (nonblank xs)) :=
    agrees_nonblank (r := { session := s }) nofun hexit hcomment
  have hkept : ∀ x ∈ nonblank xs, '\n' ∉ x := fun x hx => hlines x (List.mem_filter.1 hx).1
  rw [runScript_intercalate s hlines, runScript_intercalate s hkept]
  exact ⟨hnonblank, fun hblank => hnonblank.of_unnumbered (unnumbered_runLines_nonblank nofun hblank)⟩

/-- Lines that declare a table and save a row. -/
def savingLines : List (List Char) :=
  ["# tables :)", "CREATE TABLE ts (id INT);", "", "SAVE ts [", "\x7b\"id\": 1\x7d", "]", "SHOW ts"].map String.toList

theorem agrees_runScript_saving :
    let s := start ⟨.extend .empty .empty, "<now>"⟩ {}
    let r : Repl := { session := s }
    let result := s.runScript (List.intercalate ['\n'] savingLines)
    ((∀ x ∈ savingLines, '\n' ∉ x) ∧ (∀ x ∈ savingLines, Text.sameAscii (Text.trim x) "EXIT".toList = false) ∧
      Throughout CommentCloses 0 savingLines ∧ Throughout BlankBetween 0 savingLines ∧ result.error = none) ∧
      r.outputs savingLines = result.outputs ∧ r.sessionAfter savingLines = result.session ∧
      result.session.data.rows "ts" = [⟨[("id", .int 1)]⟩] := by
  have hlines : ∀ x ∈ savingLines, '\n' ∉ x := by decide
  have hexit : ∀ x ∈ savingLines, Text.sameAscii (Text.trim x) "EXIT".toList = false := by decide
  have hcomment : Throughout CommentCloses 0 savingLines := by decide
  have hblank : Throughout BlankBetween 0 savingLines := by decide
  have hdone : ((start ⟨.extend .empty .empty, "<now>"⟩ {}).runScript
      (List.intercalate ['\n'] savingLines)).error = none := by decide +kernel
  have h := (agrees_runScript (start ⟨.extend .empty .empty, "<now>"⟩ {}) hlines hexit hcomment).2 hblank hdone
  exact ⟨⟨hlines, hexit, hcomment, hblank, hdone⟩, h.1, h.2, by decide +kernel⟩

/-- A blank line within a statement: the script takes it in, and the dialogue does not. -/
theorem blank_line_differs :
    let s := start ⟨.extend .empty .empty, "<now>"⟩ {}
    let r : Repl := { session := s }
    let xs := ["Foo(", "", ")"].map String.toList
    let result := s.runScript (List.intercalate ['\n'] xs)
    ((∀ x ∈ xs, '\n' ∉ x) ∧ (∀ x ∈ xs, Text.sameAscii (Text.trim x) "EXIT".toList = false) ∧ result.error = none) ∧
      result.outputs = [.result (.status (.executed "Foo(\n\n)"))] ∧
      r.outputs xs = [.result (.status (.executed "Foo(\n)"))] ∧ ¬r.Agrees xs result := by
  intro s r xs result
  have hdone : result.error = none := by decide +kernel
  have hscript : result.outputs = [.result (.status (.executed "Foo(\n\n)"))] := by decide +kernel
  have hdialogue : r.outputs xs = [.result (.status (.executed "Foo(\n)"))] := by decide +kernel
  refine ⟨⟨by decide, by decide, hdone⟩, hscript, hdialogue, fun h => ?_⟩
  have houtputs := (h hdone).1
  rw [hscript, hdialogue] at houtputs
  revert houtputs
  decide

/-- A comment with an open bracket swallows the line after it. -/
example :
    outputs { session := start ⟨.extend .empty .empty, "<now>"⟩ {} } (["# (", "T::all()"].map String.toList) = [] := by
  decide +kernel

/-! ## What a dialogue writes -/

/-- The prompts of a dialogue. -/
def prompts (r : Repl) : List (List Char) → List String
  | [] => [r.prompt]
  | raw :: xs =>
    r.prompt ::
      match r.read raw with
      | (.quit, _) => []
      | (_, u) => u.prompts xs

/-- A dialogue writes its prompts, and after each what the event of the line writes. -/
theorem converse_eq (f : CommandLine.Format) (r : Repl) (xs : List (List Char)) :
    CommandLine.converse f r xs =
      (String.join (List.zipWith (· ++ ·) (r.prompts xs) ((r.readAll xs).1.map (f.writeEvent · |>.1) ++ [""])),
        String.join ((r.readAll xs).1.map (f.writeEvent · |>.2))) := by
  induction xs generalizing r with
  | nil => simp [CommandLine.converse, prompts, readAll]
  | cons raw xs ih =>
    rcases hread : r.read raw with ⟨e, u⟩
    cases e with
    | quit => simp [CommandLine.converse, prompts, readAll, hread, CommandLine.Format.writeEvent]
    | _ => simp [CommandLine.converse, prompts, readAll, hread, ih, CommandLine.Format.writeEvent, String.join_cons]

end Repl

end FluentTables
