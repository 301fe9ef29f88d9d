/-
  THE TOKEN STREAM — what the calls of `vms_lexer_next` make of a text, from the first to the last.

  A caller calls until it gets 0 or the end token (`lexCalls`).  The tokens cut the text into pieces: in front of
  each one stands a gap of white space and complete comments, and nothing is lost or read twice (`Covered`).  The
  depth that the lexer keeps is the balance of the parentheses it has returned.  One call does this
  (`vmsLexerNext_step`), and so do all of them (`lexer_progress`).

  The validator walks the same stream, with a look-ahead behind a semicolon.  `loop_iff` says what its loop accepts
  in terms of the stream, and `validate_passed` what the validator accepts.
-/
import VirtualMssql.Lexer

namespace VirtualMssql.Lexer

open TSql Delimited List

/-! ## Tokens with their text -/

/-- A token and the text it was read from. -/
structure Lexed where
  tok : VmsToken
  span : List Nat
  deriving DecidableEq, Repr

/-- What a word token stands for: its text, without the brackets. -/
def Lexed.inner (x : Lexed) : List Nat := if x.span.head? = some 91 then x.span.tail.dropLast else x.span

variable (cls : CharClass)

/-- The text between the blanks in front of a token and the rest behind it. -/
def spanOf (t rest : List Nat) : List Nat :=
  let s := (skipBlank cls .blank t).getD []
  s.take (s.length - rest.length)

variable {depth depth' : Nat} {tok : VmsToken} {t rest : List Nat}

/-- The text of a token that ends where the rest starts. -/
theorem spanOf_eq {span : List Nat} (hskip : skipBlank cls .blank t = some (span ++ rest)) :
    spanOf cls t rest = span := by
  simp [spanOf, hskip]

/-- **A word token** is the copy of what it stands for. -/
theorem text_of_inner (h : vmsLexerNext cls depth t = some (tok, depth', rest)) (hkind : tok.kind = .word) :
    tok = ⟨.word, wordText cls (⟨tok, spanOf cls t rest⟩ : Lexed).inner⟩ := by
  obtain ⟨c, s, hskip, hlex⟩ := vmsLexerNext_token cls h (by simp [hkind])
  cases lexToken_cases cls hlex with
  | @bracket name rest hc hname hs =>
    have hspan : spanOf cls t rest = 91 :: name ++ [93] := spanOf_eq cls (by simp [hskip, hc, hs])
    simp [Lexed.inner, hspan]
  | word hc hn =>
    have hspan : spanOf cls t (s.dropWhile (wordChar cls)) = c :: s.takeWhile (wordChar cls) :=
      spanOf_eq cls (by simp [hskip])
    have hne : c ≠ 91 := by
      rintro rfl
      exact absurd hc (by rw [wordStart, cls.alpha_ascii 91 (by decide)]; decide)
    simp [Lexed.inner, hspan, hne]
  | string hc hs | nstring hc hs hs' | number hc | op2 hc hs | punct hc => simp at hkind

theorem vmsLexerNext_end (h : vmsLexerNext cls depth t = some (tok, depth', rest)) (hend : tok.kind = .end_) :
    skipBlank cls .blank t = some [] ∧ rest = [] ∧ depth' = depth := by
  revert h
  fun_cases vmsLexerNext cls depth t
  case case1 => rintro ⟨⟩
  case case2 hskip =>
    rintro ⟨⟩
    exact ⟨hskip, rfl, rfl⟩
  case case3 =>
    intro h
    cases lexToken_cases cls h <;> simp at hend

/-! ## Gaps -/

/-- White space and complete comments in front of `rest`.  A line comment is closed by its newline, or by the end
    of the text. -/
inductive Gap (cls : CharClass) (rest : List Nat) : List Nat → Prop
  | nil : Gap cls rest []
  | space {c : Nat} {g : List Nat} : cls.space c = true → Gap cls rest g → Gap cls rest (c :: g)
  | line {body g : List Nat} : 10 ∉ body → Gap cls rest g → Gap cls rest (45 :: 45 :: (body ++ 10 :: g))
  | last {body : List Nat} : 10 ∉ body → rest = [] → Gap cls rest (45 :: 45 :: body)
  | block {body g : List Nat} : ¬ [42, 47] <:+: body → Gap cls rest g →
      Gap cls rest (47 :: 42 :: (body ++ 42 :: 47 :: g))

/-- What is skipped from the inside of a comment: the rest of it, and a gap. -/
def SkipsTo (rest : List Nat) : Skip → List Nat → Prop
  | .blank, t => ∃ g, t = g ++ rest ∧ Gap cls rest g
  | .line, t => ∃ body, 10 ∉ body ∧ ((∃ g, t = body ++ 10 :: (g ++ rest) ∧ Gap cls rest g) ∨ (t = body ∧ rest = []))
  | .block, t => ∃ body g, ¬ [42, 47] <:+: body ∧ t = body ++ 42 :: 47 :: (g ++ rest) ∧ Gap cls rest g

/-- **The skipping loop**, by its own recursion. -/
theorem skipBlank_gap (m : Skip) (t : List Nat) : skipBlank cls m t = some rest → SkipsTo cls rest m t := by
  fun_induction skipBlank cls m t
  case case2 c hspace =>
    rintro ⟨⟩
    exact ⟨[c], rfl, .space hspace .nil⟩
  case case4 c d s hspace ih =>
    intro h
    obtain ⟨g, hg, hgap⟩ := ih h
    exact ⟨c :: g, by rw [hg, cons_append], .space hspace hgap⟩
  case case5 c d s _ hdash ih =>
    intro h
    obtain ⟨rfl, rfl⟩ := hdash
    obtain ⟨body, hbody, ⟨g, rfl, hgap⟩ | ⟨rfl, rfl⟩⟩ := ih h
    · exact ⟨_, by simp, .line hbody hgap⟩
    · exact ⟨_, by simp, .last hbody rfl⟩
  case case6 c d s _ _ hstar ih =>
    intro h
    obtain ⟨rfl, rfl⟩ := hstar
    obtain ⟨body, g, hbody, rfl, hgap⟩ := ih h
    exact ⟨_, by simp, .block hbody hgap⟩
  case case8 =>
    rintro ⟨⟩
    exact ⟨[], by simp, .inr ⟨rfl, rfl⟩⟩
  case case9 s ih =>
    intro h
    obtain ⟨g, rfl, hgap⟩ := ih h
    exact ⟨[], by simp, .inl ⟨g, rfl, hgap⟩⟩
  case case10 c s hc ih =>
    intro h
    obtain ⟨body, hbody, hrest⟩ := ih h
    refine ⟨c :: body, by simp [hbody, Ne.symm hc], hrest.imp ?_ ?_⟩
    · rintro ⟨g, rfl, hgap⟩
      exact ⟨g, rfl, hgap⟩
    · rintro ⟨rfl, hnil⟩
      exact ⟨rfl, hnil⟩
  case case13 c d s hclose ih =>
    intro h
    obtain ⟨rfl, rfl⟩ := hclose
    obtain ⟨g, rfl, hgap⟩ := ih h
    exact ⟨[], g, by simp, rfl, hgap⟩
  case case14 c d s hclose ih =>
    intro h
    obtain ⟨body, g, hbody, hs, hgap⟩ := ih h
    refine ⟨c :: body, g, fun hin => ?_, by rw [hs, cons_append], hgap⟩
    rcases infix_cons_iff.mp hin with hfront | hin
    · -- the character behind `c` is the first one of the body
      obtain ⟨hc, hfront⟩ := cons_prefix_cons.mp hfront
      obtain ⟨body, rfl⟩ := hfront
      exact hclose ⟨hc.symm, (List.cons.inj hs).1⟩
    · exact hbody hin
  case case11 | case12 => rintro ⟨⟩
  all_goals
    rintro ⟨⟩
    exact ⟨[], rfl, .nil⟩

/-! ## One call -/

/-- The parentheses among some tokens. -/
def opened (toks : List Lexed) : Nat := toks.countP fun x => x.tok = ⟨.punct, [40]⟩

def closed (toks : List Lexed) : Nat := toks.countP fun x => x.tok = ⟨.punct, [41]⟩

theorem opened_cons (x : Lexed) (toks : List Lexed) : opened (x :: toks) = opened [x] + opened toks := by
  simp [opened, countP_cons, Nat.add_comm]

theorem closed_cons (x : Lexed) (toks : List Lexed) : closed (x :: toks) = closed [x] + closed toks := by
  simp [closed, countP_cons, Nat.add_comm]

/-- Only the two parentheses move the depth. -/
theorem lexToken_depth {c : Nat} {s : List Nat}
    (h : lexToken cls depth c s = some (tok, depth', rest)) (span : List Nat) :
    depth' + closed [⟨tok, span⟩] = depth + opened [⟨tok, span⟩] := by
  revert h
  fun_cases lexToken cls depth c s
  case case3 | case4 =>
    intro h
    obtain ⟨_, _, ⟨⟩⟩ := Option.map_eq_some_iff.mp h
    rfl
  case case10 h41 hdepth =>
    rintro ⟨⟩
    obtain rfl : c = 41 := h41
    show depth - 1 + 1 = depth
    omega
  case case1 | case9 | case12 => rintro ⟨⟩
  all_goals
    rintro ⟨⟩
    simp [opened, closed, *]

/-- **One call**: a gap, the token and the rest are the text, and the depth is kept. -/
theorem vmsLexerNext_step (h : vmsLexerNext cls depth t = some (tok, depth', rest)) (hend : tok.kind ≠ .end_) :
    ∃ gap, t = gap ++ (spanOf cls t rest ++ rest) ∧ Gap cls (spanOf cls t rest ++ rest) gap ∧ spanOf cls t rest ≠ [] ∧
      depth' + closed [⟨tok, spanOf cls t rest⟩] = depth + opened [⟨tok, spanOf cls t rest⟩] := by
  obtain ⟨c, s, hskip, hlex⟩ := vmsLexerNext_token cls h hend
  obtain ⟨body, rfl⟩ := lexToken_suffix cls hlex
  have hspan : spanOf cls t rest = c :: body := spanOf_eq cls hskip
  obtain ⟨gap, ht, hgap⟩ := skipBlank_gap cls .blank t hskip
  rw [hspan]
  exact ⟨gap, ht, hgap, by simp, lexToken_depth cls hlex _⟩

/-! ## All calls -/

/-- The calls up to the one that gives 0 or the end token: each token with the depth behind it, the text that the
    last call had before it, and whether it gave the end.  `none` when there are more than `n` calls. -/
def lexCalls : Nat → Nat → List Nat → Option (List (Lexed × Nat) × List Nat × Bool)
  | 0, _, _ => none
  | n + 1, depth, t =>
    match vmsLexerNext cls depth t with
    | none => some ([], t, false)
    | some (tok, depth', rest) =>
      if tok.kind = .end_ then some ([], t, true)
      else (lexCalls n depth' rest).map fun r => ((⟨tok, spanOf cls t rest⟩, depth') :: r.1, r.2)

variable {n : Nat} {x : Lexed × Nat} {toks : List (Lexed × Nat)} {left : List Nat} {ended : Bool}

theorem lexCalls_next (h : lexCalls cls n depth t = some (toks, left, true)) : vmsLexerNext cls depth t ≠ none := by
  revert h
  fun_cases lexCalls cls n depth t
  case case1 | case2 => rintro ⟨⟩
  case case3 hnext | case4 hnext => simp [hnext]

/-- The last call … -/
theorem lexCalls_nil (h : lexCalls cls n depth t = some ([], left, true)) :
    ∃ k tok depth' rest, n = k + 1 ∧ vmsLexerNext cls depth t = some (tok, depth', rest) ∧ tok.kind = .end_ := by
  revert h
  fun_cases lexCalls cls n depth t
  case case1 | case2 => rintro ⟨⟩
  case case3 hend hnext => exact fun _ => ⟨_, _, _, _, rfl, hnext, hend⟩
  case case4 =>
    intro h
    obtain ⟨_, _, ⟨⟩⟩ := Option.map_eq_some_iff.mp h

/-- … and the others. -/
theorem lexCalls_cons (h : lexCalls cls n depth t = some (x :: toks, left, ended)) :
    ∃ k rest, vmsLexerNext cls depth t = some (x.1.tok, x.2, rest) ∧ x.1.tok.kind ≠ .end_ ∧
      x.1.span = spanOf cls t rest ∧ n = k + 1 ∧ lexCalls cls k x.2 rest = some (toks, left, ended) := by
  revert h
  fun_cases lexCalls cls n depth t
  case case4 hend hnext =>
    intro h
    obtain ⟨⟨toks, left, ended⟩, hrun, ⟨⟩⟩ := Option.map_eq_some_iff.mp h
    exact ⟨_, _, hnext, hend, rfl, rfl, hrun⟩
  all_goals rintro ⟨⟩

/-- A text cut into gaps, tokens that are not empty, and what is left. -/
inductive Covered : List Nat → List Lexed → List Nat → Prop
  | nil (t : List Nat) : Covered t [] t
  | cons {gap t left : List Nat} {toks : List Lexed} (x : Lexed) : Gap cls (x.span ++ t) gap → x.span ≠ [] →
      Covered t toks left → Covered (gap ++ (x.span ++ t)) (x :: toks) left

/-- What the calls have made of a text. -/
structure Stream (depth : Nat) (t : List Nat) (toks : List (Lexed × Nat)) (left : List Nat) (ended : Bool) : Prop where
  covered : Covered cls t (toks.map Prod.fst) left
  depths : ∀ pre x post, toks = pre ++ x :: post →
    x.2 + closed ((pre ++ [x]).map Prod.fst) = depth + opened ((pre ++ [x]).map Prod.fst)
  ended : ended = true → Gap cls [] left
  words : ∀ x ∈ toks, x.1.tok.kind = .word → x.1.tok.text = wordText cls x.1.inner

theorem Stream.words_map (hs : Stream cls depth t toks left ended) :
    ∀ x ∈ toks.map Prod.fst, x.tok.kind = .word → x.tok.text = wordText cls x.inner :=
  forall_mem_map.mpr hs.words

/-- No beginning of the stream closes more than it opens. -/
theorem Stream.never (hs : Stream cls 0 t toks left ended)
    (n : Nat) : closed ((toks.map Prod.fst).take n) ≤ opened ((toks.map Prod.fst).take n) := by
  rw [← map_take]
  rcases eq_nil_or_concat' (toks.take n) with hnil | ⟨pre, x, hpre⟩
  · rw [hnil]
    rfl
  · have hdepth := hs.depths pre x (toks.drop n) (by rw [append_cons, ← hpre, take_append_drop])
    rw [hpre]
    omega

/-- **The calls end**, one for each token and one more, and each does what `vmsLexerNext_step` says. -/
theorem lexCalls_stream : ∀ (n depth : Nat) (t : List Nat), t.length < n →
    ∃ toks left ended, lexCalls cls n depth t = some (toks, left, ended) ∧ Stream cls depth t toks left ended
  | 0, _, _, h => absurd h (by omega)
  | n + 1, depth, t, h => by
    rw [lexCalls]
    cases hnext : vmsLexerNext cls depth t with
    | none => exact ⟨[], t, false, rfl, .nil t, by simp, by simp, by simp⟩
    | some r =>
      obtain ⟨tok, depth', rest⟩ := r
      simp only
      by_cases hend : tok.kind = .end_
      · have hskip := (vmsLexerNext_end cls hnext hend).1
        obtain ⟨gap, ht, hgap⟩ := skipBlank_gap cls .blank t hskip
        rw [append_nil] at ht
        rw [if_pos hend]
        exact ⟨[], t, true, rfl, .nil t, by simp, fun _ => ht ▸ hgap, by simp⟩
      · rw [if_neg hend]
        have hshort := vmsLexerNext_shorter cls hnext hend
        obtain ⟨gap, ht, hgap, hspan, hdepth⟩ := vmsLexerNext_step cls hnext hend
        obtain ⟨toks, left, ended, hrun, hs⟩ := lexCalls_stream n depth' rest (by omega)
        refine ⟨_, left, ended, by rw [hrun]; rfl, ?_, ?_, hs.ended, ?_⟩
        · have hcov := Covered.cons ⟨tok, spanOf cls t rest⟩ hgap hspan hs.covered
          rwa [← ht] at hcov
        · intro pre x post heq
          cases pre with
          | nil =>
            obtain ⟨rfl, -⟩ := List.cons.inj heq
            exact hdepth
          | cons y pre =>
            obtain ⟨rfl, hpost⟩ := List.cons.inj heq
            have hrest := hs.depths pre x post hpost
            rw [cons_append, map_cons, closed_cons, opened_cons]
            dsimp only
            omega
        · refine forall_mem_cons.mpr ⟨fun hkind => ?_, hs.words⟩
          exact congrArg VmsToken.text (text_of_inner cls hnext hkind)

theorem stream_of_calls (h : lexCalls cls (t.length + 1) depth t = some (toks, left, ended)) :
    Stream cls depth t toks left ended := by
  obtain ⟨_, _, _, hrun, hs⟩ := lexCalls_stream cls (t.length + 1) depth t (Nat.lt_succ_self _)
  cases h.symm.trans hrun
  exact hs

/-- What the loop of the validator asks of the tokens behind the first, and what it counts. -/
structure Passed (depth words : Nat) (toks : List Lexed) (r : Nat × Nat) : Prop where
  allowed : ∀ x ∈ toks, refusedWord x.tok = none
  semicolon : ∀ x ∈ toks.dropLast, x.tok ≠ ⟨.punct, [59]⟩
  balance : r.1 + closed toks = depth + opened toks
  count : r.2 = words + toks.length

theorem passed_nil {words : Nat} {r : Nat × Nat} : Passed depth words [] r ↔ (depth, words) = r := by
  constructor
  · rintro ⟨-, -, hd, hc⟩
    exact (Prod.ext hd hc).symm
  · rintro rfl
    exact ⟨by simp, by simp, rfl, rfl⟩

variable {x : Lexed}

/-- One token more. -/
theorem passed_cons {words : Nat} {toks : List Lexed} {r : Nat × Nat}
    (hdepth : depth' + closed [x] = depth + opened [x]) : Passed depth words (x :: toks) r ↔
      refusedWord x.tok = none ∧ (x.tok = ⟨.punct, [59]⟩ → toks = []) ∧ Passed depth' (words + 1) toks r := by
  have hlast : (∀ y ∈ (x :: toks).dropLast, y.tok ≠ ⟨.punct, [59]⟩) ↔
      (x.tok = ⟨.punct, [59]⟩ → toks = []) ∧ ∀ y ∈ toks.dropLast, y.tok ≠ ⟨.punct, [59]⟩ := by
    cases toks <;> simp
  constructor
  · rintro ⟨hwords, hsemi, hd, hc⟩
    rw [closed_cons, opened_cons] at hd
    rw [length_cons] at hc
    obtain ⟨hx, htoks⟩ := forall_mem_cons.mp hwords
    exact ⟨hx, (hlast.mp hsemi).1, htoks, (hlast.mp hsemi).2, by omega, by omega⟩
  · rintro ⟨hx, hx', htoks, hsemi, hd, hc⟩
    refine ⟨forall_mem_cons.mpr ⟨hx, htoks⟩, hlast.mpr ⟨hx', hsemi⟩, ?_, ?_⟩
    · rw [closed_cons, opened_cons]
      omega
    · rw [length_cons]
      omega

/-- The stream ended, and its tokens passed. -/
def Ended (P : List Lexed → Prop) (r : Option (List (Lexed × Nat) × List Nat × Bool)) : Prop :=
  ∃ toks left, r = some (toks, left, true) ∧ P (toks.map Prod.fst)

@[simp] theorem ended_some {P : List Lexed → Prop} {toks : List (Lexed × Nat)} {left : List Nat} {ended : Bool} :
    Ended P (some (toks, left, ended)) ↔ ended = true ∧ P (toks.map Prod.fst) := by
  simp [Ended, and_left_comm]

theorem ended_cons {P : List Lexed → Prop} {r : Option (List (Lexed × Nat) × List Nat × Bool)} (x : Lexed × Nat) :
    Ended P (r.map fun r => (x :: r.1, r.2)) ↔ Ended (fun toks => P (x.1 :: toks)) r := by
  cases r with
  | none => simp [Ended]
  | some r =>
    obtain ⟨toks, left, ended⟩ := r
    rw [Option.map_some, ended_some, ended_some, map_cons]

/-- **The loop of the validator**, by its own recursion. -/
theorem loop_iff : ∀ (n m depth words : Nat) (t : List Nat) (r : Nat × Nat), t.length < n → t.length < m →
    (validateLoop cls n depth words t = some (.ok r) ↔ Ended (Passed depth words · r) (lexCalls cls m depth t))
  | 0, _, _, _, _, _, h, _ => absurd h (by omega)
  | _, 0, _, _, _, _, _, h => absurd h (by omega)
  | n + 1, m + 1, depth, words, t, r, hn, hm => by
    rw [validateLoop, lexCalls]
    cases hnext : vmsLexerNext cls depth t with
    | none => simp
    | some next =>
      obtain ⟨tok, depth', rest⟩ := next
      simp only
      by_cases hend : tok.kind = .end_
      · rw [if_pos hend, if_pos hend, (vmsLexerNext_end cls hnext hend).2.2]
        simp [passed_nil]
      rw [if_neg hend, if_neg hend, ended_cons]
      have hshort := vmsLexerNext_shorter cls hnext hend
      obtain ⟨_, _, _, _, hdepth⟩ := vmsLexerNext_step cls hnext hend
      simp only [passed_cons hdepth]
      cases hpass : refusedWord tok with
      | some kw => simp [Ended]
      | none =>
        have hsemi : (tok.kind = .punct ∧ tok.text = [59]) ↔ tok = ⟨.punct, [59]⟩ := by
          cases tok
          simp
        simp only [hsemi, true_and]
        by_cases htok : tok = ⟨.punct, [59]⟩
        · -- the look-ahead is the next call
          obtain ⟨m, rfl⟩ : ∃ k, m = k + 1 := ⟨m - 1, by omega⟩
          rw [if_pos htok, lexCalls]
          cases hnext' : vmsLexerNext cls depth' rest with
          | none => simp
          | some next =>
            obtain ⟨nxt, depth'', rest'⟩ := next
            simp only
            by_cases hlast : nxt.kind = .end_
            · rw [if_pos hlast, if_neg (not_not.mpr hlast), (vmsLexerNext_end cls hnext' hlast).2.2]
              simp [passed_nil]
            · rw [if_neg hlast, if_pos hlast, ended_cons]
              simp [Ended, htok]
        · simp only [htok, if_false, false_imp_iff, true_and]
          exact loop_iff n m depth' (words + 1) rest r (by omega) (by omega)

/-- **What the validator accepts**: the first token is one of three, and all of them pass. -/
theorem validate_passed {query : List Nat} : vmsTsqlValidateQuery cls query = .ok () ↔
    (1 ≤ query.length ∧ query.length ≤ 32768) ∧ ∃ x toks left words,
      lexCalls cls (query.length + 1) 0 query = some (x :: toks, left, true) ∧ firstOk x.1.tok = true ∧
      Passed 0 0 ((x :: toks).map Prod.fst) (0, words) ∧ 2 ≤ words := by
  rw [vmsTsqlValidateQuery_iff, ← length_pos_iff, ← and_assoc]
  refine and_congr_right fun _ => ?_
  constructor
  · rintro ⟨tok, depth, rest, words, hnext, hok, hloop, hcount⟩
    obtain ⟨hpass, hsemi, hend⟩ := firstOk_pass hok
    have hshort := vmsLexerNext_shorter cls hnext hend
    obtain ⟨_, _, _, _, hdepth⟩ := vmsLexerNext_step cls hnext hend
    obtain ⟨toks, left, hrun, hpassed⟩ := (loop_iff cls _ query.length _ _ _ _ (Nat.lt_succ_self _) hshort).mp hloop
    refine ⟨(⟨tok, spanOf cls query rest⟩, depth), toks, left, words, ?_, hok, ?_, hcount⟩
    · simp [lexCalls, hnext, hend, hrun]
    · exact (passed_cons hdepth).mpr ⟨hpass, fun h => absurd h hsemi, hpassed⟩
  · rintro ⟨⟨⟨tok, span⟩, depth⟩, toks, left, words, hcalls, hok, hpassed, hcount⟩
    obtain ⟨_, rest, hnext, hend, rfl, ⟨⟩, hrun⟩ := lexCalls_cons cls hcalls
    have hshort := vmsLexerNext_shorter cls hnext hend
    obtain ⟨_, _, _, _, hdepth⟩ := vmsLexerNext_step cls hnext hend
    obtain ⟨-, -, hpassed⟩ := (passed_cons hdepth).mp hpassed
    exact ⟨tok, depth, rest, words, hnext, hok,
      (loop_iff cls _ _ _ _ _ _ (Nat.lt_succ_self _) hshort).mpr ⟨toks, left, hrun, hpassed⟩, hcount⟩

end VirtualMssql.Lexer
