import Mathlib.Tactic.ByContra
import FluentTables.Proofs.Pattern.Separators
import FluentTables.Proofs.Query.Preparation

/-!
# Quoted literals of a prepared statement

Decimal commas are read before anything else is, so between quotes as well. But no decimal comma goes on across a
quote (`withPoints_append`), and points for commas open and close no quotes (`isBody_pointed`). So a prepared statement
has the literals of the query, in order, each one prepared on its own (`literals_prepare`): a literal stays as it is iff
it has no comma between digits.
-/

namespace FluentTables

namespace Text

variable {q : Char} {e : Bool} {st st' : ArgState} {acc acc' body s u : List Char}

/-! ## Literals -/

/-- The literals of a text that follows `acc`, which begins with the open quote if there is one. -/
def literalsFrom (st : ArgState) (acc : List Char) : List Char → List (List Char)
  | [] => []
  | c :: r =>
    match st.quote, (st.step c).quote with
    | none, _ => literalsFrom (st.step c) [c] r
    | some _, none => (c :: acc).reverse :: literalsFrom (st.step c) [] r
    | some _, some _ => literalsFrom (st.step c) (c :: acc) r

/-- What a reader of argument lists takes as quoted, from each opening quote to the one that closes it, in order. -/
def literals (s : List Char) : List (List Char) := literalsFrom {} [] s

/-- Brackets make no difference, nor does what was read outside quotes. -/
theorem literalsFrom_congr (hquote : st.quote = st'.quote) (hescaped : st.escaped = st'.escaped)
    (hacc : st.quote ≠ none → acc = acc') (s : List Char) : literalsFrom st acc s = literalsFrom st' acc' s := by
  induction s generalizing st st' acc acc' with
  | nil => rfl
  | cons c s ih =>
    have hstep : (st.step c).quote = (st'.step c).quote ∧ (st.step c).escaped = (st'.step c).escaped := by
      rw [ArgState.step, ArgState.step, ← hquote, ← hescaped]
      constructor <;> repeat' split
      all_goals simp_all
    rw [literalsFrom, literalsFrom, ← hquote, ← hstep.1]
    cases hq : st.quote with
    | none => exact ih hstep.1 hstep.2 fun _ => rfl
    | some q =>
      obtain rfl := hacc (by simp [hq])
      cases hc : (st.step c).quote with
      | none => exact congrArg _ (ih hstep.1 hstep.2 fun _ => rfl)
      | some d => exact ih hstep.1 hstep.2 fun _ => rfl

/-- A text without quotes. -/
abbrev QuoteFree (s : List Char) : Prop := ∀ c ∈ s, isQuote c = false

theorem quoteFree_of_blank (h : ∀ c ∈ s, isBlank c = true) : QuoteFree s := by
  intro c hc
  have hmark := isMark_of_isBlank (h c hc)
  simp only [isMark, Bool.or_eq_false_iff] at hmark
  exact hmark.1.1.2

/-- In front of the first quote there is no literal. -/
theorem literals_append (hu : QuoteFree u) (s : List Char) : literals (u ++ s) = literals s := by
  have hfrom : ∀ (st : ArgState) (acc : List Char), st.quote = none → st.escaped = false →
      literalsFrom st acc (u ++ s) = literals s := by
    induction u with
    | nil => exact fun st acc hquote hescaped => literalsFrom_congr hquote hescaped (fun h => absurd hquote h) s
    | cons c u ih =>
      intro st acc hquote hescaped
      have hstep : (st.step c).quote = none ∧ (st.step c).escaped = false := by
        rw [ArgState.step, hquote]
        simp only [hu c List.mem_cons_self]
        repeat' split
        all_goals simp_all
      rw [List.cons_append, literalsFrom, hquote]
      exact ih (fun d hd => hu d (List.mem_cons_of_mem c hd)) _ _ hstep.1 hstep.2
  exact hfrom {} [] rfl rfl

theorem literals_of_quoteFree (hs : QuoteFree s) : literals s = [] := by
  have hend := literals_append hs []
  rwa [List.append_nil] at hend

/-- A literal begins at the first quote. -/
theorem literals_quote (hu : QuoteFree u) (hq : isQuote q = true) (s : List Char) :
    literals (u ++ q :: s) = literalsFrom { quote := some q } [q] s := by
  have hstep : ArgState.step {} q = { quote := some q } := by simp [ArgState.step, hq]
  rw [literals_append hu, literals, literalsFrom, hstep]

/-- The text stands between quotes `q` and leaves no character escaped. With `e` its first one is. -/
def isBody (q : Char) : Bool → List Char → Bool
  | e, [] => !e
  | true, _ :: r => isBody q false r
  | false, c :: r => if c == '\\' then isBody q true r else c != q && isBody q false r

/-- A literal is a text between quotes, and the others follow it. -/
theorem literalsFrom_body (hq : q ≠ '\\') (h : isBody q e body = true) (acc s : List Char) :
    literalsFrom { quote := some q, escaped := e } acc (body ++ q :: s) =
      (acc.reverse ++ (body ++ [q])) :: literals s := by
  induction body generalizing e acc with
  | nil =>
    cases e with
    | true => cases h
    | false =>
      have hstep : ArgState.step { quote := some q } q = {} := by simp [ArgState.step, hq]
      rw [List.nil_append, literalsFrom, hstep, List.reverse_cons]
      rfl
  | cons c body ih =>
    obtain ⟨e', hstep, hbody⟩ : ∃ e', ArgState.step { quote := some q, escaped := e } c =
        { quote := some q, escaped := e' } ∧ isBody q e' body = true := by
      cases e with
      | true => exact ⟨false, rfl, h⟩
      | false =>
        rw [isBody] at h
        split at h
        · next hc => exact ⟨true, by simp [ArgState.step, hc], h⟩
        · next hc =>
          rw [Bool.and_eq_true, bne_iff_ne] at h
          exact ⟨false, by simp [ArgState.step, hc, h.1], h.2⟩
    rw [List.cons_append, literalsFrom, hstep]
    dsimp only
    rw [ih hbody]
    simp

/-- Between quotes there is a literal only if they are closed. -/
theorem exists_isBody (h : literalsFrom { quote := some q, escaped := e } acc s ≠ []) :
    ∃ body r, isBody q e body = true ∧ s = body ++ q :: r := by
  induction s generalizing e acc with
  | nil => exact absurd rfl h
  | cons c s ih =>
    have hon : ∀ e', ArgState.step { quote := some q, escaped := e } c = { quote := some q, escaped := e' } →
        ∃ body r, isBody q e' body = true ∧ s = body ++ q :: r := by
      intro e' hstep
      rw [literalsFrom, hstep] at h
      exact ih h
    cases e with
    | true =>
      obtain ⟨body, r, hbody, rfl⟩ := hon false rfl
      exact ⟨c :: body, r, hbody, rfl⟩
    | false =>
      by_cases hback : c = '\\'
      · obtain ⟨body, r, hbody, rfl⟩ := hon true (by simp [ArgState.step, hback])
        exact ⟨c :: body, r, by simp [isBody, hback, hbody], rfl⟩
      · by_cases hc : c = q
        · exact ⟨[], s, rfl, by rw [hc]; rfl⟩
        · obtain ⟨body, r, hbody, rfl⟩ := hon false (by simp [ArgState.step, hback, hc])
          exact ⟨c :: body, r, by simp [isBody, hback, hc, hbody], rfl⟩

/-- The quotes of a text, from left to right: these are the closed literals. -/
inductive Quotes : List Char → List (List Char) → Prop
  | plain {s : List Char} : QuoteFree s → Quotes s []
  | unclosed {u : List Char} {q : Char} {r : List Char} : QuoteFree u → isQuote q = true →
      (∀ body t, r = body ++ q :: t → isBody q false body = false) → Quotes (u ++ q :: r) []
  | closed {u : List Char} {q : Char} {body t : List Char} {ls : List (List Char)} : QuoteFree u → isQuote q = true →
      isBody q false body = true → Quotes t ls → Quotes (u ++ (quotedBy q body ++ t)) (quotedBy q body :: ls)

theorem quotedBy_append (q : Char) (body t : List Char) : quotedBy q body ++ t = q :: (body ++ q :: t) := by
  simp [quotedBy]

/-- **The literals of a text are those that its quotes close.** -/
theorem Quotes.literals_eq {ls : List (List Char)} (h : Quotes s ls) : literals s = ls := by
  induction h with
  | plain hs => exact literals_of_quoteFree hs
  | unclosed hu hq hr =>
    rw [literals_quote hu hq]
    by_contra hne
    obtain ⟨body, t, hbody, rfl⟩ := exists_isBody hne
    rw [hr body t rfl] at hbody
    cases hbody
  | @closed u q body t ls hu hq hbody _ ih =>
    have hback : q ≠ '\\' := by rintro rfl; cases hq
    rw [quotedBy_append, literals_quote hu hq, literalsFrom_body hback hbody, ih]
    rfl

theorem exists_quotes (s : List Char) : ∃ ls, Quotes s ls := by
  generalize hn : s.length = n
  induction n using Nat.strongRecOn generalizing s with
  | ind n ih =>
    subst hn
    cases hfind : s.find? isQuote with
    | none => exact ⟨[], .plain (by simpa using List.find?_eq_none.1 hfind)⟩
    | some q =>
      obtain ⟨hq, u, r, rfl, hu⟩ := List.find?_eq_some_iff_append.1 hfind
      replace hu : QuoteFree u := by simpa using hu
      by_cases hclosed : ∃ body t, r = body ++ q :: t ∧ isBody q false body = true
      · obtain ⟨body, t, rfl, hbody⟩ := hclosed
        obtain ⟨ls, ht⟩ := ih t.length (by simp; omega) t rfl
        have hquotes := Quotes.closed hu hq hbody ht
        rw [quotedBy_append] at hquotes
        exact ⟨_, hquotes⟩
      · refine ⟨[], .unclosed hu hq fun body t hr => ?_⟩
        rw [← Bool.not_eq_true]
        exact fun hbody => hclosed ⟨body, t, hr, hbody⟩

theorem quotes_literals (s : List Char) : Quotes s (literals s) := by
  obtain ⟨ls, h⟩ := exists_quotes s
  rwa [h.literals_eq]

theorem exists_of_mem_literals {l : List Char} (h : l ∈ literals s) :
    ∃ q body, isQuote q = true ∧ l = quotedBy q body := by
  have hquotes := quotes_literals s
  generalize literals s = ls at h hquotes
  induction hquotes with
  | plain | unclosed => cases h
  | @closed u q body t ls _ hq _ _ ih =>
    rcases List.mem_cons.1 h with rfl | h
    · exact ⟨q, body, hq, rfl⟩
    · exact ih h

/-- Behind the last quote there is no literal. -/
theorem Quotes.append {ls : List (List Char)} (h : Quotes s ls) {v : List Char} (hv : QuoteFree v) :
    Quotes (s ++ v) ls := by
  induction h with
  | plain hs => exact .plain fun c hc => (List.mem_append.1 hc).elim (hs c) (hv c)
  | @unclosed u q r hu hq hr =>
    rw [List.append_assoc, List.cons_append]
    refine .unclosed hu hq fun body t ht => ?_
    have hnot : q ∉ v := fun hmem => by
      rw [hv q hmem] at hq
      cases hq
    rcases List.append_eq_append_iff.1 ht with ⟨x, -, hx⟩ | ⟨x, rfl, hx⟩
    · exact absurd (hx ▸ by simp) hnot
    · cases x with
      | nil =>
        rw [List.nil_append] at hx
        exact absurd (hx ▸ by simp) hnot
      | cons d x =>
        obtain ⟨rfl, -⟩ := List.cons_eq_cons.1 hx
        exact hr body x rfl
  | closed hu hq hbody _ ih =>
    rw [List.append_assoc, List.append_assoc]
    exact .closed hu hq hbody ih

/-- White space at the two ends is in no literal. -/
theorem literals_trim (s : List Char) : literals (trim s) = literals s := by
  obtain ⟨a, b, hs, ha, hb⟩ := exists_trimBy isBlank s
  calc
    literals (trim s) = literals (trim s ++ b) :=
      ((quotes_literals (trim s)).append (quoteFree_of_blank hb)).literals_eq.symm
    _ = literals (a ++ (trim s ++ b)) := (literals_append (quoteFree_of_blank ha) _).symm
    _ = literals s := by rw [trim, ← hs]

end Text

namespace Query

open Pattern Text

variable {q : Char} {s w : List Char}

/-! ## Rewriting a part -/

theorem decimalComma_ne_nil (w : List Char) (h : Spells decimalComma w) : w ≠ [] := by
  obtain ⟨u, v, rfl, ⟨hu, -⟩, -⟩ := h
  exact List.append_ne_nil_of_left_ne_nil hu v

/-- What a decimal comma reads is no quote. -/
theorem withPoints_append (hq : isQuote q = true) (b : Option Char) (u s : List Char) :
    withPoints b (u ++ q :: s) = withPoints b u ++ q :: withPoints (some q) s := by
  have hrejects : decimalComma.rejects q = true := by
    have hcomma : ¬q = ',' := by rintro rfl; cases hq
    simp [decimalComma, chain, char, rejects, isDigit_of_isQuote hq, hcomma]
  refine replaced_append_cons decimalComma_ne_nil rfl hrejects (fun m m' h => ?_) b u s
  simp only [Match.group_eq, h]

theorem Pointed.quoteFree (h : Pointed s w) (hs : QuoteFree s) : QuoteFree w := by
  intro c hc
  rcases h.mem hc with rfl | hc
  · rfl
  · exact hs c hc

/-- Points for commas close no quote and escape nothing. -/
theorem isBody_pointed (hq : isQuote q = true) (h : Pointed s w) (e : Bool) : isBody q e w = isBody q e s := by
  induction h generalizing e with
  | nil => rfl
  | cons hc _ ih =>
    cases e with
    | true => exact ih false
    | false =>
      rcases hc with rfl | ⟨rfl, rfl⟩
      · simp only [isBody, ih]
      · have hpoint : ('.' != q) = true := bne_iff_ne.2 (by rintro rfl; cases hq)
        have hcomma : (',' != q) = true := bne_iff_ne.2 (by rintro rfl; cases hq)
        simp [isBody, ih, hpoint, hcomma]

/-! ## Literals of a prepared statement -/

/-- **Quotes part a text for the decimal commas in it**: each literal is rewritten on its own. -/
theorem quotes_withPoints {ls : List (List Char)} (h : Quotes s ls) (b : Option Char) :
    Quotes (withPoints b s) (ls.map (withPoints none)) := by
  induction h generalizing b with
  | plain hs => exact .plain ((pointed_withPoints b _).quoteFree hs)
  | @unclosed u q r hu hq hr =>
    rw [withPoints_append hq]
    refine .unclosed ((pointed_withPoints b u).quoteFree hu) hq fun body t ht => ?_
    -- A quote that closes one here stood there before.
    have hpointed := pointed_withPoints (some q) r
    rw [ht] at hpointed
    obtain ⟨body', x, rfl, hbody, hx⟩ := hpointed.of_append_right
    cases hx with
    | cons hc _ =>
      rcases hc with rfl | ⟨-, rfl⟩
      · rw [isBody_pointed hq hbody]
        exact hr body' _ rfl
      · cases hq
  | @closed u q body t ls hu hq hbody _ ih =>
    -- Alone, the literal is rewritten as it is here: its two quotes part it from what is around it.
    have hliteral : withPoints none (quotedBy q body) = quotedBy q (withPoints (some q) body) := by
      have hclose : withPoints (some q) (body ++ [q]) = withPoints (some q) body ++ [q] :=
        withPoints_append hq (some q) body []
      exact (withPoints_append hq none [] (body ++ [q])).trans (congrArg (q :: ·) hclose)
    rw [quotedBy_append, withPoints_append hq, withPoints_append hq, ← quotedBy_append, List.map_cons, hliteral]
    refine .closed ((pointed_withPoints b u).quoteFree hu) hq ?_ (ih (some q))
    rwa [isBody_pointed hq (pointed_withPoints _ _)]

theorem trim_of_mem_literals {l : List Char} (h : l ∈ literals s) : trim l = l := by
  obtain ⟨q, body, hq, rfl⟩ := exists_of_mem_literals h
  exact trim_quotedBy hq body

/-- The literals of a prepared statement are those of the query, each one prepared. -/
theorem literals_prepare_eq (s : List Char) : literals (prepare s) = (literals s).map prepare := by
  rw [prepare_eq, (quotes_withPoints (quotes_literals (trim s)) none).literals_eq, literals_trim]
  refine List.map_congr_left fun l hl => ?_
  rw [prepare_eq, trim_of_mem_literals hl]

theorem exists_of_hasDecimalComma (h : hasDecimalComma s = true) :
    ∃ a d e r, s = a ++ (d :: ',' :: e :: r) ∧ isDigit d = true ∧ isDigit e = true := by
  induction s with
  | nil => cases h
  | cons c s ih =>
    rw [hasDecimalComma, Bool.or_eq_true, Bool.and_eq_true] at h
    rcases h with ⟨hc, hs⟩ | hs
    · rw [startsCommaDigit.eq_def] at hs
      split at hs
      · exact ⟨[], c, _, _, rfl, hc, hs⟩
      · cases hs
    · obtain ⟨a, d, e, r, rfl, hd, he⟩ := ih hs
      exact ⟨c :: a, d, e, r, rfl, hd, he⟩

/-- **A trimmed text is prepared as it is iff it has no comma between digits.** -/
theorem prepare_eq_self_iff (htrim : trim s = s) : prepare s = s ↔ hasDecimalComma s = false := by
  refine ⟨fun h => ?_, prepare_eq_self htrim⟩
  rw [← Bool.not_eq_true]
  intro hcomma
  obtain ⟨a, d, e, r, hs, hd, he⟩ := exists_of_hasDecimalComma hcomma
  have hdigit : ∀ (c : Char) (b : Option Char) (rest : List Char), isDigit c = true →
      Admits (some1 isDigit) b [c] rest := fun c b rest hc => admits_some1 (List.cons_ne_nil c []) (by simpa using hc)
  have hadmits : Admits decimalComma (past none a) [d, ',', e] r :=
    ((hdigit d _ _ hd).group 1).chain_cons
      ((takes_char ',').admits.chain_cons (((hdigit e _ _ he).group 2).chain_cons admits_chain_nil))
  have hin : decimalComma.isIn s = true := hs ▸ isIn_of_admits hadmits
  rw [isIn, search, searchAt_eq_firstMatch] at hin
  obtain ⟨m, hm⟩ := Option.isSome_iff_exists.1 hin
  -- The comma of the first match is a point afterwards.
  obtain ⟨p, x, hx, hmatch⟩ := exists_matchAt_of_firstMatch hm
  have hprepare : prepare s = p ++ (m.group 1 ++ '.' :: (m.group 2 ++ withPoints m.stop.before m.stop.rest)) := by
    rw [prepare_eq, htrim, withPoints, replaced_of_firstMatch decimalComma_ne_nil hm, passed_of_matchAt hmatch]
    simp [withPoints]
  rw [(groups_of_matchAt_decimalComma hmatch).1] at hx
  rw [h] at hprepare
  have hsame := hx.symm.trans hprepare
  rw [List.append_cancel_left_eq, List.append_cancel_left_eq] at hsame
  exact absurd (List.cons_eq_cons.1 hsame).1 (by decide)

/-- **Preparing a statement rewrites its literals and cuts none.** Commas between digits become points wherever they
stand, and nothing else changes but white space at the two ends; so the closed literals of the prepared statement are
those of the query, in order, each with points for its own such commas, and one that has none stays as it is. -/
theorem literals_prepare (s : List Char) :
    Respelled (trim s) (prepare s) ∧ literals (prepare s) = (literals s).map prepare ∧
      ∀ l ∈ literals s, Respelled l (prepare l) ∧ (prepare l = l ↔ hasDecimalComma l = false) := by
  refine ⟨respelled_withPoints none _, literals_prepare_eq s, fun l hl => ?_⟩
  have htrim := trim_of_mem_literals hl
  have hrespelled := respelled_withPoints none (trim l)
  rw [← prepare_eq, htrim] at hrespelled
  exact ⟨hrespelled, prepare_eq_self_iff htrim⟩

theorem literals_prepare_dated :
    let s := " T::where('due', '2,5 or \\'3,4\\', 1,x')->first(1,2) ".toList
    let l := "'2,5 or \\'3,4\\', 1,x'".toList
    prepare s = "T::where('due', '2.5 or \\'3.4\\', 1,x')->first(1.2)".toList ∧
      literals (prepare s) = ["'due'".toList, "'2.5 or \\'3.4\\', 1,x'".toList] ∧
      l ∈ literals s ∧ (prepare l = l ↔ hasDecimalComma l = false) := by
  intro s l
  have hl : l ∈ literals s := by decide
  obtain ⟨-, hliterals, hall⟩ := literals_prepare s
  exact ⟨by decide +kernel, hliterals.trans (by decide +kernel), hl, (hall l hl).2⟩

/-- A literal with a comma between digits is lost. -/
theorem decimal_literals_lost : ¬∀ s, (literals s).Sublist (literals (prepare s)) := by
  intro h
  exact absurd (h "T::where('d', '1,5')->get()".toList) (by decide +kernel)

end Query

end FluentTables
