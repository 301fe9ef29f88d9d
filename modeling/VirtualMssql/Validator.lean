/-
  THE VALIDATOR AGAINST ITS HEADER — what `vms_lexer.h` promises of an accepted query.

  The promise is about the tokens of `vms_lexer_next`: the first is SELECT or WITH, none is a forbidden word,
  and none is of the families `xp_…` and `sp_execute…`.  A token is taken here with the text it was read from
  (`start` and `len` of `VmsToken`), because the copy that the validator compares is cut to 63 units and does
  not show whether the word stood in brackets.

  The words of the list are all refused, however long the text around them (`clean_of_refused`).  The families
  are not: the list has no entry for them and `word_is` compares whole words.  And the first token may be a
  parenthesis, or SELECT in brackets, which is the name of a procedure.  `contract_iff` is the account; and
  `validate_iff` says what is accepted, no more and no less.
-/
import VirtualMssql.LexerAgrees

namespace VirtualMssql.Lexer

open TSql Delimited List

/-! ## Tokens with their text -/

/-- The word a token is, when it is one and does not stand in brackets. -/
def Lexed.word? (x : Lexed) : Option (List Nat) :=
  if x.tok.kind = .word ∧ x.span.head? ≠ some 91 then some x.span else none

variable {w : List Nat}

theorem Lexed.word?_eq_some {x : Lexed} :
    x.word? = some w ↔ (x.tok.kind = .word ∧ x.span.head? ≠ some 91) ∧ x.span = w := by
  rw [Lexed.word?, Option.ite_none_right_eq_some, Option.some.injEq]

variable (cls : CharClass)

/-- The tokens of a text up to its end; `none` when there is an error in it, or the fuel does not last. -/
def tokens : Nat → Nat → List Nat → Option (List Lexed)
  | 0, _, _ => none
  | n + 1, depth, t =>
    match vmsLexerNext cls depth t with
    | none => none
    | some (tok, depth', rest) =>
      if tok.kind = .end_ then some []
      else (tokens n depth' rest).map (⟨tok, spanOf cls t rest⟩ :: ·)

theorem tokens_of_calls {n depth : Nat} {t left : List Nat} {toks : List (Lexed × Nat)}
    (h : lexCalls cls n depth t = some (toks, left, true)) : tokens cls n depth t = some (toks.map Prod.fst) := by
  induction toks generalizing n depth t with
  | nil =>
    obtain ⟨k, tok, depth', rest, rfl, hnext, hend⟩ := lexCalls_nil cls h
    simp [tokens, hnext, hend]
  | cons x toks ih =>
    obtain ⟨k, rest, hnext, hend, hspan, rfl, hrun⟩ := lexCalls_cons cls h
    simp [tokens, hnext, hend, ih hrun, ← hspan]

/-! ## The promise -/

/-- The words the header forbids. -/
def headerWords : List String :=
  ["insert", "update", "delete", "merge", "exec", "execute", "create", "alter", "drop", "truncate", "grant",
    "deny", "revoke", "openrowset", "openquery", "openjson", "openxml", "bulk", "set", "use", "begin", "commit",
    "rollback", "save", "tran", "transaction", "cursor", "declare", "print", "raiserror", "throw", "waitfor",
    "kill", "shutdown", "reconfigure", "into"]

/-- The beginnings of the families it forbids. -/
def headerFamilies : List String := ["xp_", "sp_execute"]

/-- A word of one of the families. -/
def OfFamily (w : List Nat) : Prop := ∃ f ∈ headerFamilies, wide f <+: w.map cls.lower

instance (w : List Nat) : Decidable (OfFamily cls w) := by unfold OfFamily; infer_instance

/-- **The contract of the header**, for the tokens of a query. -/
structure Contract (toks : List Lexed) : Prop where
  starts : ∃ first rest w, toks = first :: rest ∧ first.word? = some w ∧
    (w.map cls.lower = wide "select" ∨ w.map cls.lower = wide "with")
  words : ∀ x ∈ toks, ∀ w, x.word? = some w → ∀ kw ∈ headerWords, w.map cls.lower ≠ wide kw
  families : ∀ x ∈ toks, ∀ w, x.word? = some w → ¬ OfFamily cls w

/-! ## One token -/

variable {t rest : List Nat}

variable {depth depth' : Nat} {tok : VmsToken}

/-- The span of a token starts with the character the token starts with. -/
theorem head_spanOf {s : List Nat} {c : Nat} (hskip : skipBlank cls .blank t = some (c :: s))
    (h : lexToken cls depth c s = some (tok, depth', rest)) : (spanOf cls t rest).head? = some c := by
  obtain ⟨span, rfl⟩ := lexToken_suffix cls h
  have hspan : spanOf cls t rest = c :: span := spanOf_eq cls hskip
  rw [hspan, head?_cons]

/-- **A word token outside brackets** is the copy of its text. -/
theorem text_of_word {x : Lexed} (hx : x.tok.kind = .word → x.tok.text = wordText cls x.inner) (hw : x.word? = some w) :
    x.tok = ⟨.word, wordText cls w⟩ := by
  obtain ⟨⟨hkind, hhead⟩, rfl⟩ := Lexed.word?_eq_some.mp hw
  have htext := hx hkind
  rw [Lexed.inner, if_neg hhead] at htext
  rw [← hkind, ← htext]

/-- The words of the header are on the list of the validator. -/
theorem headerWords_forbidden : ∀ kw ∈ headerWords, kw ∈ kForbidden ++ ["into"] := by decide

/-- **The words of the header are refused**, however long a word is. -/
theorem clean_of_refused (h : refusedWord ⟨.word, wordText cls w⟩ = none) :
    ∀ kw ∈ headerWords, w.map cls.lower ≠ wide kw := by
  intro kw hkw heq
  have hnone := forbiddenWord_of_refused cls h
  rw [forbiddenWord, List.any_eq_false] at hnone
  exact hnone kw (headerWords_forbidden kw hkw) (by rw [heq]; exact beq_self_eq_true _)

/-- A cut copy that is a keyword was not cut. -/
theorem lower_of_wordText {kw : List Nat} (hkw : kw.length < 63) (h : wordText cls w = kw) :
    w.map cls.lower = kw := by
  have hlen := congrArg List.length h
  rw [wordText, length_take] at hlen
  rw [← h, wordText, take_of_length_le (by omega)]

/-! ## All tokens -/

/-- The first token, read from the text: it is a word outside brackets exactly when the text does not start
    with a parenthesis or a bracket. -/
theorem first_word_iff {query : List Nat}
    (hnext : vmsLexerNext cls 0 query = some (tok, depth, rest)) (hfirst : firstOk tok = true) :
    (∃ w, (⟨tok, spanOf cls query rest⟩ : Lexed).word? = some w ∧
        (w.map cls.lower = wide "select" ∨ w.map cls.lower = wide "with")) ↔
      ∀ c s, skipBlank cls .blank query = some (c :: s) → c ≠ 40 ∧ c ≠ 91 := by
  constructor
  · rintro ⟨w, hw, _⟩ c s hskip
    obtain ⟨⟨hkind, hhead⟩, _⟩ := Lexed.word?_eq_some.mp hw
    have hlex : lexToken cls 0 c s = some (tok, depth, rest) := by
      rw [← hnext, vmsLexerNext, hskip]
    constructor
    · rintro rfl
      cases lexToken_cases cls hlex with
      | bracket hc => cases hc
      | word hc => exact absurd hc (by rw [wordStart, cls.alpha_ascii 40 (by decide)]; decide)
      | string | nstring | number | op2 | punct => cases hkind
    · rintro rfl
      exact hhead (head_spanOf cls hskip hlex)
  · intro hstart
    obtain ⟨c, s, hskip, hlex⟩ := vmsLexerNext_token cls hnext (firstOk_pass hfirst).2.2
    obtain ⟨h40, h91⟩ := hstart c s hskip
    have hkw : tok = ⟨.word, wide "select"⟩ ∨ tok = ⟨.word, wide "with"⟩ := by
      rcases firstOk_cases hfirst with rfl | htok
      · cases lexToken_cases cls hlex with
        | punct => exact absurd rfl h40
      · exact htok
    have hword : (⟨tok, spanOf cls query rest⟩ : Lexed).word? = some (spanOf cls query rest) := by
      refine Lexed.word?_eq_some.mpr ⟨⟨?_, ?_⟩, rfl⟩
      · rcases hkw with rfl | rfl <;> rfl
      · rw [head_spanOf cls hskip hlex]
        exact fun heq => h91 (Option.some.inj heq)
    have htext := text_of_word cls (fun hkind => congrArg VmsToken.text (text_of_inner cls hnext hkind)) hword
    refine ⟨_, hword, hkw.imp (fun h => ?_) fun h => ?_⟩
    all_goals exact lower_of_wordText cls (by decide) (congrArg VmsToken.text (htext.symm.trans h))

/-- **The contract of the header**: an accepted query meets it exactly when it starts with neither a
    parenthesis nor a bracket, and no word in it is of the families `xp_` and `sp_execute`. -/
theorem contract_iff (query : List Nat) (h : vmsTsqlValidateQuery cls query = .ok ()) :
    ∃ toks, tokens cls (query.length + 1) 0 query = some toks ∧
      (Contract cls toks ↔
        (∀ c s, skipBlank cls .blank query = some (c :: s) → c ≠ 40 ∧ c ≠ 91) ∧
          ∀ x ∈ toks, ∀ w, x.word? = some w → ¬ OfFamily cls w) := by
  obtain ⟨-, ⟨⟨tok, span⟩, depth⟩, toks, left, words, hcalls, hfirst, hpassed, -⟩ := (validate_passed cls).mp h
  obtain ⟨_, rest, hnext, -, rfl, -, -⟩ := lexCalls_cons cls hcalls
  have hstart := first_word_iff cls hnext hfirst
  refine ⟨_, tokens_of_calls cls hcalls, ?_⟩
  constructor
  · rintro ⟨⟨first, rest', w, heq, hw, hkw⟩, _, hfam⟩
    cases heq
    exact ⟨hstart.mp ⟨w, hw, hkw⟩, hfam⟩
  · rintro ⟨hs, hfam⟩
    obtain ⟨w, hw, hkw⟩ := hstart.mpr hs
    refine ⟨⟨_, _, w, rfl, hw, hkw⟩, fun x hx v hv => clean_of_refused cls ?_, hfam⟩
    rw [← text_of_word cls ((stream_of_calls cls hcalls).words_map cls x hx) hv]
    exact hpassed.allowed x hx

theorem contract_iff_select : vmsTsqlValidateQuery .ascii (wide "SELECT [xp_a];") = .ok () ∧
    ∃ toks, tokens .ascii 15 0 (wide "SELECT [xp_a];") = some toks ∧ Contract .ascii toks := by
  refine ⟨by decide, ?_⟩
  have hlex : tokens .ascii 15 0 (wide "SELECT [xp_a];") = some
      [⟨⟨.word, wide "select"⟩, wide "SELECT"⟩, ⟨⟨.word, wide "xp_a"⟩, wide "[xp_a]"⟩, ⟨⟨.punct, [59]⟩, [59]⟩] := by
    decide
  obtain ⟨toks, htoks, hiff⟩ := contract_iff .ascii (wide "SELECT [xp_a];") (by decide)
  refine ⟨toks, htoks, hiff.mpr ⟨fun c s hskip => ?_, ?_⟩⟩
  · have hc : c :: s = 83 :: wide "ELECT [xp_a];" := Option.some.inj (hskip.symm.trans (by decide))
    rw [(List.cons.inj hc).1]
    decide
  · rw [← Option.some.inj (hlex.symm.trans htoks)]
    intro x hx w hw
    obtain ⟨_, rfl⟩ := Lexed.word?_eq_some.mp hw
    revert x
    decide

/-- Three accepted texts that the header refuses: a word of a family, a parenthesis in front, and a call of a
    procedure named `select`. -/
theorem accepted_against_contract :
    (vmsTsqlValidateQuery .ascii (wide "SELECT xp_dirtree") = .ok () ∧
      ∃ toks, tokens .ascii 18 0 (wide "SELECT xp_dirtree") = some toks ∧ ¬ Contract .ascii toks) ∧
    (vmsTsqlValidateQuery .ascii (wide "(SELECT 1)") = .ok () ∧
      ∃ toks, tokens .ascii 11 0 (wide "(SELECT 1)") = some toks ∧ ¬ Contract .ascii toks) ∧
    (vmsTsqlValidateQuery .ascii (wide "[select] 1") = .ok () ∧
      ∃ toks, tokens .ascii 11 0 (wide "[select] 1") = some toks ∧ ¬ Contract .ascii toks) := by
  refine ⟨⟨by decide, ?_⟩, ⟨by decide, ?_⟩, by decide, ?_⟩
  · refine ⟨[⟨⟨.word, wide "select"⟩, wide "SELECT"⟩, ⟨⟨.word, wide "xp_dirtree"⟩, wide "xp_dirtree"⟩], by decide,
      fun hc => ?_⟩
    exact hc.families _ (mem_cons_of_mem _ mem_cons_self) (wide "xp_dirtree") (by decide) (by decide)
  · refine ⟨[⟨⟨.punct, [40]⟩, [40]⟩, ⟨⟨.word, wide "select"⟩, wide "SELECT"⟩, ⟨⟨.number, []⟩, [49]⟩,
      ⟨⟨.punct, [41]⟩, [41]⟩], by decide, fun hc => ?_⟩
    obtain ⟨first, rest, w, heq, hw, _⟩ := hc.starts
    rw [← (List.cons.inj heq).1] at hw
    exact absurd (Lexed.word?_eq_some.mp hw).1 (by decide)
  · refine ⟨[⟨⟨.word, wide "select"⟩, wide "[select]"⟩, ⟨⟨.number, []⟩, [49]⟩], by decide, fun hc => ?_⟩
    obtain ⟨first, rest, w, heq, hw, _⟩ := hc.starts
    rw [← (List.cons.inj heq).1] at hw
    exact absurd (Lexed.word?_eq_some.mp hw).1 (by decide)

/-! ## Exact acceptance -/

/-- A token that is a keyword, in brackets or not, in any case. -/
def Lexed.Is (x : Lexed) (kw : String) : Prop := x.tok.kind = .word ∧ x.inner.map cls.lower = wide kw

/-- **The tokens of a query that may run.** -/
structure ReadOnly (toks : List Lexed) : Prop where
  count : 2 ≤ toks.length
  first : ∃ x ∈ toks.head?, x.tok = ⟨.punct, [40]⟩ ∨ x.Is cls "select" ∨ x.Is cls "with"
  allowed : ∀ x ∈ toks.tail, ∀ kw ∈ kForbidden ++ ["into"], ¬ x.Is cls kw
  semicolon : ∀ x ∈ toks.dropLast, x.tok ≠ ⟨.punct, [59]⟩
  balance : opened toks = closed toks
  never : ∀ n, closed (toks.take n) ≤ opened (toks.take n)

variable {x : Lexed}

/-- The comparison of `word_is`, for a token of the stream and a word shorter than the copy. -/
theorem wordIs_iff {kw : String} (hx : x.tok.kind = .word → x.tok.text = wordText cls x.inner)
    (hkw : (wide kw).length < 63) : wordIs x.tok kw = true ↔ x.Is cls kw := by
  rw [wordIs, Bool.and_eq_true, decide_eq_true_eq, beq_iff_eq]
  refine and_congr_right fun hkind => ?_
  rw [hx hkind]
  refine ⟨lower_of_wordText cls hkw, fun heq => ?_⟩
  rw [wordText, heq, take_of_length_le hkw.le]

/-- **The tokens of a stream that may run**, as the validator looks at them. -/
theorem readOnly_cons {toks : List Lexed}
    (htext : ∀ y ∈ x :: toks, y.tok.kind = .word → y.tok.text = wordText cls y.inner)
    (hnever : ∀ n, closed ((x :: toks).take n) ≤ opened ((x :: toks).take n)) :
    ReadOnly cls (x :: toks) ↔ firstOk x.tok = true ∧ ∃ words, Passed 0 0 (x :: toks) (0, words) ∧ 2 ≤ words := by
  have hshort : ∀ kw ∈ kForbidden ++ ["into"], (wide kw).length < 63 := by decide
  have hx := htext x mem_cons_self
  have hfirst : firstOk x.tok = true ↔ x.tok = ⟨.punct, [40]⟩ ∨ x.Is cls "select" ∨ x.Is cls "with" := by
    rw [← wordIs_iff cls hx (by decide), ← wordIs_iff cls hx (by decide), firstOk]
    cases x.tok
    simp [or_assoc]
  have hallowed : ∀ y ∈ toks, refusedWord y.tok = none ↔ ∀ kw ∈ kForbidden ++ ["into"], ¬ y.Is cls kw := by
    intro y hy
    rw [refusedWord, find?_eq_none]
    refine forall₂_congr fun kw hkw => not_congr ?_
    exact wordIs_iff cls (htext y (mem_cons_of_mem x hy)) (hshort kw hkw)
  constructor
  · rintro ⟨hcount, ⟨y, hy, hstart⟩, hwords, hsemi, hbalance, -⟩
    cases hy
    have hok := hfirst.mpr hstart
    refine ⟨hok, _, ⟨forall_mem_cons.mpr ⟨(firstOk_pass hok).1, ?_⟩, hsemi, ?_, rfl⟩, ?_⟩
    · exact fun y hy => (hallowed y hy).mpr (hwords y hy)
    · rw [hbalance]
    · rwa [Nat.zero_add]
  · rintro ⟨hok, words, ⟨hwords, hsemi, hbalance, hlen⟩, hcount⟩
    rw [Nat.zero_add] at hlen
    refine ⟨hlen ▸ hcount, ⟨x, rfl, hfirst.mp hok⟩, fun y hy => ?_, hsemi, ?_, hnever⟩
    · exact (hallowed y hy).mp (hwords y (mem_cons_of_mem x hy))
    · simpa using hbalance.symm

/-- **Exact acceptance.**  Between one and 32768 characters, all of them read, and tokens that may run: nothing else
    is accepted, and nothing of this is refused. -/
theorem validate_iff (query : List Nat) : vmsTsqlValidateQuery cls query = .ok () ↔
    (1 ≤ query.length ∧ query.length ≤ 32768) ∧ Ended (ReadOnly cls) (lexCalls cls (query.length + 1) 0 query) := by
  rw [validate_passed]
  refine and_congr_right fun _ => ?_
  have hiff : ∀ {x toks left}, lexCalls cls (query.length + 1) 0 query = some (x :: toks, left, true) →
      (ReadOnly cls ((x :: toks).map Prod.fst) ↔
        firstOk x.1.tok = true ∧ ∃ words, Passed 0 0 ((x :: toks).map Prod.fst) (0, words) ∧ 2 ≤ words) := by
    intro x toks left hcalls
    have hs := stream_of_calls cls hcalls
    exact readOnly_cons cls (hs.words_map cls) (hs.never cls)
  constructor
  · rintro ⟨x, toks, left, words, hcalls, hok, hpassed⟩
    exact ⟨x :: toks, left, hcalls, (hiff hcalls).mpr ⟨hok, words, hpassed⟩⟩
  · rintro ⟨_ | ⟨x, toks⟩, left, hcalls, hread⟩
    · cases hread.count
    · obtain ⟨hok, words, hpassed⟩ := (hiff hcalls).mp hread
      exact ⟨x, toks, left, words, hcalls, hok, hpassed⟩

end VirtualMssql.Lexer
