/-
  THE VALIDATOR AGAINST T-SQL — which accepted texts the server reads as the validator did.

  `vms_tsql_validate_query` walks its own tokens; the server reads the text by T-SQL rules
  (`TSql.lex`).  Two lexers that agree on where every token ends see the same words and semicolons.
  They part in three places, all visible in the T-SQL reading of the text (`parts`):

  * a block comment opens inside a block comment (T-SQL nests, the validator does not);
  * a letter or a `.` follows a numeric literal it cannot continue (the validator's number runs over
    letters, digits and dots);
  * a `-` follows the sign of an exponent (`1e--`: a number and a minus for T-SQL, a number and a line
    comment for the validator).

  The law (`accepted_harmless`): an accepted text in which none of the three happens has no forbidden
  word, no `INTO`, and no `;` but a trailing one.  The proof is a simulation, one validator token at a
  time.  At the boundary between two of its tokens the T-SQL reader is between tokens too, or holds a
  `.` or a numeric literal that may still go on (`Boundary`); each validator token is matched by a run
  of T-SQL tokens that shows nothing the validator did not see (`next_simulated`).
-/
import VirtualMssql.LexerStream

namespace VirtualMssql.Lexer

open TSql Delimited List

variable (cls : CharClass)

/-! ## Where the lexers part, and what must not be seen -/

/-- In this mode of the T-SQL reader, this character is where the lexers part. -/
def parts : Mode → Nat → Bool
  | .blockSlash _, c => c == 42
  | .num k s, c =>
    ((numNext cls k c).isNone && (cls.alpha c || c == 46)) || (c == 45 && s.getLast? == some 45)
  | _, _ => false

/-- Read from `m`, the text never comes to such a place. -/
def agrees (m : Mode) : List Nat → Bool
  | [] => true
  | c :: cs => !parts cls m c && agrees (step cls m c).2 cs

/-- A word whose lower-casing is a forbidden keyword or `into`. -/
def forbiddenWord (w : List Nat) : Bool :=
  (kForbidden ++ ["into"]).any fun kw => w.map cls.lower == wide kw

variable {m : Mode} {c depth depth' : Nat} {s rest w t : List Nat} {ts : List Tok} {tok : VmsToken}

/-- **No forbidden word, and `;` only as the last token.** -/
def Harmless : List Tok → Prop
  | [] => True
  | x :: xs =>
    (∀ w, x = .word w → forbiddenWord cls w = false) ∧ (x = .sym 59 → xs = []) ∧ Harmless xs

/-! ## Running with agreement -/

theorem agrees_cons {cs : List Nat} : agrees cls m (c :: cs) = true ↔
      parts cls m c = false ∧ agrees cls (step cls m c).2 cs = true := by
  rw [agrees, Bool.and_eq_true, Bool.not_eq_true']

theorem agrees_append (a b : List Nat) (m : Mode) (h : agrees cls m (a ++ b) = true) :
    agrees cls (runPrefix cls m a).2 b = true := by
  induction a generalizing m with
  | nil => exact h
  | cons c a ih =>
    rw [cons_append, agrees_cons] at h
    rw [runPrefix]
    exact ih _ h.2

/-- A character that only closes the mode: agreement goes on from between tokens. -/
theorem agrees_closing {tok : Tok} (h : step cls m c = closing cls tok c) (ha : agrees cls m (c :: s) = true) :
    agrees cls .start (c :: s) = true := by
  rw [agrees_cons, h] at ha
  rw [agrees_cons]
  exact ⟨rfl, ha.2⟩

/-- One character, with the tokens it completes. -/
theorem advance {n : Mode} (h : step cls m c = (ts, n)) (ha : agrees cls m (c :: s) = true) :
    lexFrom cls m (c :: s) = ts ++ lexFrom cls n s ∧ agrees cls n s = true := by
  rw [agrees_cons, h] at ha
  rw [lexFrom_cons, h]
  exact ⟨rfl, ha.2⟩

/-- With agreement, these tokens are read up to the rest, and agreement goes on. -/
def Reads (m : Mode) (t : List Nat) (ts : List Tok) (n : Mode) (rest : List Nat) : Prop :=
  agrees cls m t = true → lexFrom cls m t = ts ++ lexFrom cls n rest ∧ agrees cls n rest = true

variable {n n' : Mode}

theorem Reads.cons (hstep : step cls m c = ([], n)) (h : Reads cls n s ts n' rest) :
    Reads cls m (c :: s) ts n' rest := by
  intro ha
  obtain ⟨hlex, ha⟩ := advance cls hstep ha
  rw [hlex]
  exact h ha

theorem Reads.ascii (hc : c < 128) (hnone : (step .ascii m c).1 = []) (h : Reads cls (step .ascii m c).2 s ts n rest) :
    Reads cls m (c :: s) ts n rest :=
  .cons cls ((step_ascii cls hc m).trans (Prod.ext hnone rfl)) h

theorem Reads.run {a : List Nat} (hrun : runPrefix cls m a = ([], n)) (h : Reads cls n s ts n' rest) :
    Reads cls m (a ++ s) ts n' rest := by
  intro ha
  have ha := agrees_append cls _ _ _ ha
  rw [hrun] at ha
  rw [lexFrom_of_run cls hrun]
  exact h ha

/-- A mode that the rest of the text can only close. -/
theorem Reads.settle {x : Tok} (hfin : finish m = [x])
    (hstep : ∀ d, rest.head? = some d → step cls m d = closing cls x d) : Reads cls m rest [x] .start rest := by
  intro ha
  cases rest with
  | nil => exact ⟨hfin, rfl⟩
  | cons d rest =>
    exact ⟨lexFrom_closing cls (hstep d rfl) rest, agrees_closing cls (hstep d rfl) ha⟩

/-! ## Blanks and comments -/

theorem opening_space (h : cls.space c = true) : opening cls c = ([], .start) := by
  rw [opening, if_pos h]

/-- The T-SQL modes that go with the place of the skipping loop. -/
def SkipMode : Skip → Mode → List Nat → Prop
  | .blank, m, _ => m = .start
  | .line, m, _ => m = .line
  | .block, m, t => m = .block 0 ∨ m = .blockSlash 0 ∨ (m = .blockStar 0 ∧ t.head? ≠ some 47)

variable {d : Nat}

/-- One more character of a block comment, not the `*` of its end. -/
theorem block_advance (hm : SkipMode .block m (c :: d :: s)) (hcd : ¬ (c = 42 ∧ d = 47))
    (ha : agrees cls m (c :: d :: s) = true) : ∃ m', step cls m c = ([], m') ∧ SkipMode .block m' (d :: s) := by
  by_cases hstar : c = 42
  · refine ⟨.blockStar 0, ?_, .inr (.inr ⟨rfl, by simpa [hstar] using hcd⟩)⟩
    rcases hm with rfl | rfl | ⟨rfl, -⟩
    · simp [step, hstar]
    · have hone := ((agrees_cons cls).mp ha).1
      simp [parts, hstar] at hone
    · simp [step, hstar]
  by_cases hslash : c = 47
  · refine ⟨.blockSlash 0, ?_, .inr (.inl rfl)⟩
    rcases hm with rfl | rfl | ⟨rfl, h47⟩
    · simp [step, hslash]
    · simp [step, hslash]
    · simp [hslash] at h47
  · refine ⟨.block 0, ?_, .inl rfl⟩
    rcases hm with rfl | rfl | ⟨rfl, -⟩ <;> simp [step, hstar, hslash]

/-- The end of a block comment. -/
theorem block_end (hm : SkipMode .block m (42 :: 47 :: s))
    (ha : agrees cls m (42 :: 47 :: s) = true) : step cls m 42 = ([], .blockStar 0) := by
  rcases hm with rfl | rfl | ⟨rfl, _⟩
  · rfl
  · have := ((agrees_cons cls).mp ha).1
    simp [parts] at this
  · rfl

/-- **Blanks and comments are skipped alike**: T-SQL reads no token in them and is between tokens
    after them.  Induction along the loop; in a block comment, agreement is what rules out nesting. -/
theorem skipBlank_simulated (sk : Skip) (t t' : List Nat) (m : Mode) (h : skipBlank cls sk t = some t')
    (hm : SkipMode sk m t) : Reads cls m t [] .start t' := by
  fun_induction skipBlank cls sk t generalizing m
  case case1 | case3 | case7 =>
    obtain rfl : m = .start := hm
    cases h
    exact fun ha => ⟨rfl, ha⟩
  case case2 c hc =>
    obtain rfl : m = .start := hm
    cases h
    exact advance cls (m := .start) (opening_space cls hc)
  case case4 c d s hc ih =>
    obtain rfl : m = .start := hm
    exact .cons cls (opening_space cls hc) (ih .start h rfl)
  case case5 c d s _ hline ih =>
    obtain rfl : m = .start := hm
    obtain ⟨rfl, rfl⟩ := hline
    exact .ascii cls (by decide) rfl (.cons cls rfl (ih .line h rfl))
  case case6 c d s _ _ hblock ih =>
    obtain rfl : m = .start := hm
    obtain ⟨rfl, rfl⟩ := hblock
    exact .ascii cls (by decide) rfl (.cons cls rfl (ih (.block 0) h (.inl rfl)))
  case case8 =>
    obtain rfl : m = .line := hm
    cases h
    exact fun _ => ⟨rfl, rfl⟩
  case case9 s ih =>
    obtain rfl : m = .line := hm
    exact .cons cls rfl (ih .start h rfl)
  case case10 c s hc ih =>
    obtain rfl : m = .line := hm
    exact .cons cls (by simp [step, hc]) (ih .line h rfl)
  case case11 | case12 => cases h
  case case13 c d s hend ih =>
    obtain ⟨rfl, rfl⟩ := hend
    exact fun ha => Reads.cons cls (block_end cls hm ha) (.cons cls rfl (ih .start h rfl)) ha
  case case14 c d s hend ih =>
    intro ha
    obtain ⟨m', hstep, hm'⟩ := block_advance cls hm hend ha
    exact Reads.cons cls hstep (ih m' h hm') ha

/-- What the skipping loop stops at: not a blank, and not the start of a comment. -/
theorem skipBlank_stops (sk : Skip) (t : List Nat) (h : skipBlank cls sk t = some (c :: s)) :
    cls.space c = false ∧ ¬ (c = 45 ∧ s.head? = some 45) ∧ ¬ (c = 47 ∧ s.head? = some 42) := by
  fun_induction skipBlank cls sk t
  case case3 d hd =>
    obtain ⟨rfl, rfl⟩ := List.cons.inj (Option.some.inj h)
    exact ⟨by simpa using hd, by simp, by simp⟩
  case case7 d e s' hd hline hblock =>
    obtain ⟨rfl, rfl⟩ := List.cons.inj (Option.some.inj h)
    exact ⟨by simpa using hd, by simpa using hline, by simpa using hblock⟩
  case case1 | case2 | case8 | case11 | case12 => cases h
  all_goals
    rename_i ih
    exact ih h

/-! ## Boundaries -/

/-- The T-SQL reader at the boundary between two validator tokens: between tokens, behind a `.`, or in
    a numeric literal.  A literal that is not past the sign of its exponent stands before a character
    the validator's number token would not have run over. -/
inductive Boundary : Mode → List Nat → Prop
  | start (t : List Nat) : Boundary .start t
  | dot (t : List Nat) : Boundary .dot t
  | num (k : NumState) (s t : List Nat)
      (h : k = .exp ∨ ∀ c, t.head? = some c → numChar cls c = false) : Boundary (.num k s) t

/-- The tokens show nothing but what the validator saw in `tok`: its word if it is a word, and a `;`
    only at the end and only if it is one. -/
def Shows (tok : VmsToken) (ts : List Tok) : Prop :=
  (∀ w, .word w ∈ ts → tok = ⟨.word, wordText cls w⟩) ∧
    (.sym 59 ∈ ts → tok = ⟨.punct, [59]⟩ ∧ ∃ us, ts = us ++ [.sym 59] ∧ .sym 59 ∉ us)

/-- Numeric literals and dots show nothing at all. -/
def Quiet (ts : List Tok) : Prop := ∀ x ∈ ts, (∃ s, x = .num s) ∨ x = .sym 46

theorem Quiet.no_semicolon (hq : Quiet ts) : .sym 59 ∉ ts := by
  intro hm
  rcases hq _ hm with ⟨s, he⟩ | he <;> cases he

theorem Quiet.shows_append {us : List Tok} (hq : Quiet ts) (h : Shows cls tok us) : Shows cls tok (ts ++ us) := by
  obtain ⟨hword, hsemi⟩ := h
  have hqw : ∀ w, .word w ∉ ts := by
    intro w hm
    rcases hq _ hm with ⟨s, he⟩ | he <;> cases he
  have hqs := hq.no_semicolon
  refine ⟨fun w hm => ?_, fun hm => ?_⟩
  · exact hword w ((mem_append.mp hm).resolve_left (hqw w))
  · obtain ⟨htok, vs, rfl, hvs⟩ := hsemi ((mem_append.mp hm).resolve_left hqs)
    refine ⟨htok, ts ++ vs, by simp, ?_⟩
    rw [mem_append, not_or]
    exact ⟨hqs, hvs⟩

theorem Quiet.shows (hq : Quiet ts) (tok : VmsToken) : Shows cls tok ts := by
  have h : Shows cls tok (ts ++ []) := hq.shows_append cls ⟨by simp, by simp⟩
  rwa [append_nil] at h

/-- What one validator token is matched by: T-SQL tokens that show nothing else, up to the next
    boundary; behind a `;` the reader is between tokens. -/
def Matched (tok : VmsToken) (m : Mode) (t rest : List Nat) : Prop :=
  ∃ ts m', lexFrom cls m t = ts ++ lexFrom cls m' rest ∧ Boundary cls m' rest ∧
    agrees cls m' rest = true ∧ Shows cls tok ts ∧ (.sym 59 ∈ ts → m' = .start)

/-- A token that shows nothing. -/
theorem Reads.matched {x : Tok} (h : Reads cls m t [x] .start rest) (hword : ∀ w, x ≠ .word w)
    (hsemi : x ≠ .sym 59) (ha : agrees cls m t = true) : Matched cls tok m t rest := by
  obtain ⟨hlex, ha⟩ := h ha
  have hno : .sym 59 ∉ [x] := by simpa using hsemi.symm
  refine ⟨[x], .start, hlex, .start _, ha, ⟨fun w hw => ?_, fun hm => absurd hm hno⟩, fun _ => rfl⟩
  exact absurd (mem_singleton.mp hw).symm (hword w)

variable {k : NumState}

/-- A character the validator's number token stops at continues a T-SQL number in one way only: as the
    sign of an exponent. -/
theorem numNext_sign {k' : NumState} (hc : numChar cls c = false) (h : numNext cls k c = some k') :
    (c = 43 ∨ c = 45) ∧ k' = .exp := by
  simp only [numChar, Bool.or_eq_false_iff, beq_eq_false_iff_ne] at hc
  obtain ⟨⟨halpha, hdigit⟩, hdot⟩ := hc
  -- the letters a number can go on with are ASCII letters, which the validator runs over
  have hletter : ¬ (c = 120 ∨ c = 88) ∧ ¬ (c = 101 ∨ c = 69) ∧ hexDigit c = false := by
    by_cases hlt : c < 128
    · rw [cls.alpha_ascii c hlt] at halpha
      rw [cls.digit_ascii c hlt] at hdigit
      simp only [asciiAlpha, asciiDigit, hexDigit, Bool.or_eq_false_iff, Bool.and_eq_false_iff,
        decide_eq_false_iff_not] at halpha hdigit ⊢
      omega
    · simp only [hexDigit, Bool.or_eq_false_iff, Bool.and_eq_false_iff, decide_eq_false_iff_not]
      omega
  obtain ⟨hx, he, hhex⟩ := hletter
  cases k with
  | zero => simp [numNext, hx, hdigit, hdot, he] at h
  | int => simp [numNext, hdigit, hdot, he] at h
  | frac => simp [numNext, hdigit, he] at h
  | exp0 =>
    simp only [numNext, hdigit, Bool.false_eq_true, if_false] at h
    split_ifs at h with hsign
    exact ⟨hsign, (Option.some.inj h).symm⟩
  | exp => simp [numNext, hdigit] at h
  | hex => simp [numNext, hhex] at h

/-- Between boundaries the reader settles, or it goes on with the number it holds: a digit behind a
    `.` or an exponent's sign, or the sign itself. -/
theorem boundary_cases (hb : Boundary cls m (c :: s)) (ha : agrees cls m (c :: s) = true) :
    (∃ ts, Quiet ts ∧ lexFrom cls m (c :: s) = ts ++ lexFrom cls .start (c :: s) ∧
        agrees cls .start (c :: s) = true) ∨ (cls.digit c = true ∧ ∃ k w, step cls m c = ([], .num k w)) ∨
      ((c = 43 ∨ c = 45) ∧ ∃ w, step cls m c = ([], .num .exp (w ++ [c]))) := by
  have hsettle : ∀ {tok}, ((∃ w, tok = Tok.num w) ∨ tok = .sym 46) → step cls m c = closing cls tok c →
      ∃ ts, Quiet ts ∧ lexFrom cls m (c :: s) = ts ++ lexFrom cls .start (c :: s) ∧
        agrees cls .start (c :: s) = true := by
    intro tok htok hstep
    exact ⟨[tok], by simpa [Quiet] using htok, lexFrom_closing cls hstep s, agrees_closing cls hstep ha⟩
  cases hb with
  | start => exact .inl ⟨[], by simp [Quiet], rfl, ha⟩
  | dot =>
    by_cases hd : cls.digit c = true
    · exact .inr (.inl ⟨hd, .frac, [46, c], by simp [step, hd]⟩)
    · exact .inl (hsettle (.inr rfl) (by simp [step, hd]))
  | num k w _ h =>
    cases hn : numNext cls k c with
    | none => exact .inl (hsettle (.inl ⟨w, rfl⟩) (by simp [step, hn]))
    | some k' =>
      have hstep : step cls (.num k w) c = ([], .num k' (w ++ [c])) := by simp [step, hn]
      rcases h with rfl | h
      · have hd : cls.digit c = true := by
          simp only [numNext] at hn
          split_ifs at hn with hd
          exact hd
        exact .inr (.inl ⟨hd, k', w ++ [c], hstep⟩)
      · obtain ⟨hsign, rfl⟩ := numNext_sign cls (h c rfl) hn
        exact .inr (.inr ⟨hsign, w, hstep⟩)

theorem head_dropWhile {p : Nat → Bool} {l : List Nat} (h : (l.dropWhile p).head? = some d) : p d = false := by
  obtain ⟨rest, hrest⟩ := head?_eq_some_iff.mp h
  have := head_dropWhile_not p (l := l) (by rw [hrest]; simp)
  simpa [hrest] using this

/-! ## Numbers -/

theorem digit_ne (h : cls.digit c = true) : ∀ x, x < 128 → asciiDigit x = false → c ≠ x := by
  rintro x hx hd rfl
  rw [cls.digit_ascii c hx, hd] at h
  cases h

theorem opening_digit (h : cls.digit c = true) : ∃ k, opening cls c = ([], .num k [c]) := by
  have hspace := cls.digit_not_space c h
  have hne := digit_ne cls h
  refine ⟨if c = 48 then .zero else .int, ?_⟩
  simp [opening, hspace, hne 45 (by decide) (by decide), hne 47 (by decide) (by decide),
    hne 39 (by decide) (by decide), hne 91 (by decide) (by decide), hne 34 (by decide) (by decide), h]

/-- **The run of a number token** is numeric literals for T-SQL, when the lexers do not part in it. -/
theorem num_run {rest : List Nat} : ∀ (r : List Nat) (k : NumState) (s : List Nat),
    (∀ c ∈ r, numChar cls c = true) → agrees cls (.num k s) (r ++ rest) = true → ∃ ts k' s', Quiet ts ∧
      lexFrom cls (.num k s) (r ++ rest) = ts ++ lexFrom cls (.num k' s') rest ∧ agrees cls (.num k' s') rest = true
  | [], k, s, _, ha => ⟨[], k, s, by simp [Quiet], rfl, ha⟩
  | c :: r, k, s, hr, ha => by
    have hr' : ∀ d ∈ r, numChar cls d = true := (forall_mem_cons.mp hr).2
    rw [cons_append] at ha ⊢
    cases hn : numNext cls k c with
    | some k' =>
      have hstep : step cls (.num k s) c = ([], .num k' (s ++ [c])) := by simp [step, hn]
      obtain ⟨hlex, ha⟩ := advance cls hstep ha
      rw [hlex]
      exact num_run r k' (s ++ [c]) hr' ha
    | none =>
      -- not a letter and not a dot, or the lexers would part here: a digit opens another literal
      have hdigit : cls.digit c = true := by
        have hc := hr c mem_cons_self
        have hp := ((agrees_cons cls).mp ha).1
        simp only [parts, hn, Option.isNone_none, Bool.true_and, Bool.or_eq_false_iff] at hp
        simpa [numChar, hp.1.1, hp.1.2] using hc
      have hstep : step cls (.num k s) c = closing cls (.num s) c := by simp [step, hn]
      obtain ⟨k', hopen⟩ := opening_digit cls hdigit
      rw [lexFrom_closing cls hstep]
      obtain ⟨hlex, ha⟩ := advance cls (m := .start) hopen (agrees_closing cls hstep ha)
      rw [hlex]
      obtain ⟨ts, k'', s'', hq, hts, ha'⟩ := num_run r k' [c] hr' ha
      refine ⟨.num s :: ts, k'', s'', ?_, by rw [hts]; rfl, ha'⟩
      exact forall_mem_cons.mpr ⟨.inl ⟨s, rfl⟩, hq⟩

theorem number_matched (hstep : step cls m c = ([], .num k w)) (ha : agrees cls m (c :: s) = true) :
    Matched cls ⟨.number, []⟩ m (c :: s) (s.dropWhile (numChar cls)) := by
  obtain ⟨hlex, ha⟩ := advance cls hstep ha
  have hsplit := takeWhile_append_dropWhile (p := numChar cls) (l := s)
  rw [nil_append, ← hsplit] at hlex
  rw [← hsplit] at ha
  obtain ⟨ts, k', s', hq, hts, ha'⟩ := num_run cls (s.takeWhile (numChar cls)) k w
    (fun d hd => mem_takeWhile_imp hd) ha
  refine ⟨ts, .num k' s', ?_, .num k' s' _ (.inr ?_), ha', hq.shows cls _, fun h => absurd h hq.no_semicolon⟩
  · rw [← hts, ← hlex, hsplit]
  · exact fun d hd => head_dropWhile hd

/-! ## Words -/

theorem opening_wordStart (h : wordStart cls c = true) : opening cls c = ([], .word [c]) := by
  by_cases halpha : cls.alpha c = true
  · have hne : ∀ x, x < 128 → asciiAlpha x = false → c ≠ x := by
      rintro x hx hx' rfl
      rw [cls.alpha_ascii c hx, hx'] at halpha
      cases halpha
    simp [opening, cls.alpha_not_space c halpha, cls.alpha_not_digit c halpha, h,
      hne 45 (by decide) (by decide), hne 47 (by decide) (by decide),
      hne 39 (by decide) (by decide), hne 91 (by decide) (by decide),
      hne 34 (by decide) (by decide), hne 46 (by decide) (by decide)]
  · have hc : c = 95 ∨ c = 35 ∨ c = 64 := by
      simpa [wordStart, halpha, or_assoc] using h
    rcases hc with rfl | rfl | rfl <;> exact opening_ascii cls (by decide)

theorem word_run : ∀ (r w : List Nat), (∀ c ∈ r, wordChar cls c = true) →
    runPrefix cls (.word w) r = ([], .word (w ++ r))
  | [], w, _ => by simp [runPrefix]
  | c :: r, w, hr => by
    have hstep : step cls (.word w) c = ([], .word (w ++ [c])) := by
      simp [step, hr c mem_cons_self]
    rw [runPrefix, hstep, word_run r (w ++ [c]) (forall_mem_cons.mp hr).2]
    simp

theorem word_matched (hc : wordStart cls c = true) (hn : ¬ (c = 78 ∧ s.head? = some 39))
    (ha : agrees cls .start (c :: s) = true) :
    Matched cls ⟨.word, wordText cls (c :: s.takeWhile (wordChar cls))⟩ .start (c :: s)
      (s.dropWhile (wordChar cls)) := by
  have hsplit := takeWhile_append_dropWhile (p := wordChar cls) (l := s)
  have hrun := word_run cls (s.takeWhile (wordChar cls)) [c] fun d hd => mem_takeWhile_imp hd
  have hstep : ∀ d, (s.dropWhile (wordChar cls)).head? = some d →
      step cls (.word ([c] ++ s.takeWhile (wordChar cls))) d =
        closing cls (.word (c :: s.takeWhile (wordChar cls))) d := by
    intro d hd
    have hd' := head_dropWhile hd
    -- the word is not the `N` of a string: then the validator would have read a string
    have hns : ¬ (d = 39 ∧ [c] ++ s.takeWhile (wordChar cls) = [78]) := by
      rintro ⟨rfl, hw⟩
      obtain ⟨rfl, hnil⟩ := List.cons.inj hw
      refine hn ⟨rfl, ?_⟩
      rw [← hsplit, show s.takeWhile (wordChar cls) = [] from hnil, nil_append]
      exact hd
    simp only [step, hd', Bool.false_eq_true, if_false, if_neg hns]
    rfl
  have hreads := Reads.cons cls (m := .start) (opening_wordStart cls hc) (.run cls hrun (.settle cls rfl hstep))
  rw [hsplit] at hreads
  obtain ⟨hlex, ha⟩ := hreads ha
  refine ⟨_, .start, hlex, .start _, ha, ⟨fun w hw => ?_, fun h => absurd h (by simp)⟩, fun _ => rfl⟩
  obtain rfl := Tok.word.inj (mem_singleton.mp hw)
  rfl

/-! ## Strings and bracketed names -/

theorem string_reads {b : List Nat} (hs : readBody 39 s = some (b, rest)) :
    Reads cls (.str []) s [.str b] .start rest := by
  obtain ⟨rfl, hhead⟩ := readBody_sound hs
  refine .run cls (runPrefix_str_double cls b []) (.cons cls rfl (.settle cls rfl fun d hd => ?_))
  exact if_neg fun he : d = 39 => hhead (he ▸ hd)

theorem bracket_reads {name : List Nat} (hname : 93 ∉ name) (hrest : rest.head? ≠ some 93) :
    Reads cls (.brk []) (name ++ 93 :: rest) [.quoted name] .start rest := by
  refine .run cls (runPrefix_brk_plain cls name [] hname) (.cons cls rfl (.settle cls rfl fun d hd => ?_))
  exact if_neg fun he : d = 93 => hrest (he ▸ hd)

/-! ## Symbols -/

theorem op2_matched (h : isOp2 c d = true) (ha : agrees cls .start (c :: d :: rest) = true) :
    Matched cls ⟨.op2, [c, d]⟩ .start (c :: d :: rest) rest := by
  have hcd : (c = 60 ∨ c = 62 ∨ c = 33) ∧ (d = 61 ∨ d = 62) := by
    simp only [isOp2, Bool.or_eq_true, Bool.and_eq_true, beq_iff_eq] at h
    omega
  have hopen : ∀ x, x = 60 ∨ x = 62 ∨ x = 33 ∨ x = 61 → opening cls x = ([.sym x], .start) := by
    rintro x (rfl | rfl | rfl | rfl) <;> exact opening_ascii cls (by decide)
  obtain ⟨hlex, ha⟩ := advance cls (m := .start) (hopen c (by omega)) ha
  obtain ⟨hlex', ha⟩ := advance cls (m := .start) (hopen d (by omega)) ha
  refine ⟨[.sym c, .sym d], .start, by rw [hlex, hlex']; rfl, .start _, ha, ⟨by simp, ?_⟩, fun _ => rfl⟩
  intro hm
  simp only [mem_cons, Tok.sym.injEq, not_mem_nil, or_false] at hm
  omega

theorem punct_matched (h : isPunct c = true) (hline : ¬ (c = 45 ∧ s.head? = some 45))
    (hblock : ¬ (c = 47 ∧ s.head? = some 42)) (ha : agrees cls .start (c :: s) = true) :
    Matched cls ⟨.punct, [c]⟩ .start (c :: s) s := by
  by_cases hdash : c = 45
  · subst hdash
    refine Reads.matched cls (.ascii cls (by decide) rfl (.settle cls rfl fun d hd => ?_)) (by simp) (by simp) ha
    exact if_neg fun he : d = 45 => hline ⟨rfl, he ▸ hd⟩
  by_cases hslash : c = 47
  · subst hslash
    refine Reads.matched cls (.ascii cls (by decide) rfl (.settle cls rfl fun d hd => ?_)) (by simp) (by simp) ha
    exact if_neg fun he : d = 42 => hblock ⟨rfl, he ▸ hd⟩
  by_cases hdot : c = 46
  · subst hdot
    have hopen : opening cls 46 = ([], .dot) := opening_ascii cls (by decide)
    obtain ⟨hlex, ha⟩ := advance cls (m := .start) hopen ha
    exact ⟨[], .dot, hlex, .dot _, ha, ⟨by simp, by simp⟩, by simp⟩
  · have hopen : opening cls c = ([.sym c], .start) := by
      simp only [isPunct, contains_eq_mem, mem_cons, not_mem_nil, or_false,
        decide_eq_true_eq] at h
      rcases h with rfl | rfl | rfl | rfl | rfl | rfl | rfl | rfl | rfl | rfl | rfl | rfl | rfl
      all_goals first | contradiction | exact opening_ascii cls (by decide)
    obtain ⟨hlex, ha⟩ := advance cls (m := .start) hopen ha
    refine ⟨[.sym c], .start, hlex, .start _, ha, ⟨by simp, fun hm => ?_⟩, fun _ => rfl⟩
    obtain rfl := Tok.sym.inj (mem_singleton.mp hm)
    exact ⟨rfl, [], rfl, by simp⟩

/-! ## One validator token -/

/-- From between tokens.  A bracketed name that a second closing bracket follows is the exception: the
    validator took it to end there, and stumbles over the bracket next. -/
theorem token_matched (h : LexesTo cls depth c s tok depth' rest)
    (hline : ¬ (c = 45 ∧ s.head? = some 45)) (hblock : ¬ (c = 47 ∧ s.head? = some 42))
    (ha : agrees cls .start (c :: s) = true) : rest.head? = some 93 ∨ Matched cls tok .start (c :: s) rest := by
  cases h with
  | @bracket name rest hc hname hs =>
    subst hc hs
    refine or_iff_not_imp_left.mpr fun hrest => ?_
    exact Reads.matched cls (.ascii cls (by decide) rfl (bracket_reads cls hname hrest)) (by simp) (by simp) ha
  | @string b rest hc hs =>
    subst hc
    exact .inr (Reads.matched cls (.ascii cls (by decide) rfl (string_reads cls hs)) (by simp) (by simp) ha)
  | @nstring s' b rest hc hs hs' =>
    subst hc hs
    exact .inr (Reads.matched cls (.ascii cls (by decide) rfl (.ascii cls (by decide) rfl (string_reads cls hs')))
      (by simp) (by simp) ha)
  | number hc =>
    obtain ⟨k, hopen⟩ := opening_digit cls hc
    exact .inr (number_matched cls hopen ha)
  | word hc hn => exact .inr (word_matched cls hc hn ha)
  | op2 hc hs => subst hs; exact .inr (op2_matched cls hc ha)
  | punct hc => exact .inr (punct_matched cls hc hline hblock ha)

theorem skipBlank_stay (hspace : cls.space c = false) (hline : ¬ (c = 45 ∧ s.head? = some 45))
    (hblock : ¬ (c = 47 ∧ s.head? = some 42)) : skipBlank cls .blank (c :: s) = some (c :: s) := by
  cases s with
  | nil => simp [skipBlank, hspace]
  | cons d s =>
    have hl : ¬ (c = 45 ∧ d = 45) := by simpa using hline
    have hk : ¬ (c = 47 ∧ d = 42) := by simpa using hblock
    rw [skipBlank, if_neg (by simp [hspace]), if_neg hl, if_neg hk]

/-- Going on with a number: the validator reads a number token from the digit. -/
theorem digit_simulated (hd : cls.digit c = true) (hstep : step cls m c = ([], .num k w))
    (ha : agrees cls m (c :: s) = true) (h : vmsLexerNext cls depth (c :: s) = some (tok, depth', rest)) :
    Matched cls tok m (c :: s) rest := by
  have hne := digit_ne cls hd
  have hstay := skipBlank_stay cls (s := s) (cls.digit_not_space c hd)
    (fun h => hne 45 (by decide) (by decide) h.1) (fun h => hne 47 (by decide) (by decide) h.1)
  rw [vmsLexerNext, hstay] at h
  simp only [lexToken, if_neg (hne 91 (by decide) (by decide)),
    if_neg (hne 39 (by decide) (by decide)), hne 78 (by decide) (by decide), false_and, if_false,
    if_pos hd, Option.some.injEq, Prod.mk.injEq] at h
  obtain ⟨rfl, rfl, rfl⟩ := h
  exact number_matched cls hstep ha

/-- Going on with the sign of an exponent, which is punctuation for the validator. -/
theorem sign_simulated (hc : c = 43 ∨ c = 45) (hstep : step cls m c = ([], .num .exp (w ++ [c])))
    (ha : agrees cls m (c :: s) = true) (h : vmsLexerNext cls depth (c :: s) = some (tok, depth', rest)) :
    Matched cls tok m (c :: s) rest := by
  obtain ⟨hlex, ha'⟩ := advance cls hstep ha
  -- `e--` is where the lexers part
  have hline : ¬ (c = 45 ∧ s.head? = some 45) := by
    rintro ⟨rfl, hs⟩
    obtain ⟨s', rfl⟩ := head?_eq_some_iff.mp hs
    have := ((agrees_cons cls).mp ha').1
    simp [parts] at this
  have hblock : ¬ (c = 47 ∧ s.head? = some 42) := by
    rintro ⟨rfl, _⟩
    omega
  have hlt : c < 128 := by omega
  have hspace : cls.space c = false := by
    rw [cls.space_ascii c hlt]
    rcases hc with rfl | rfl <;> decide
  rw [vmsLexerNext, skipBlank_stay cls hspace hline hblock] at h
  have htok : lexToken cls depth c s = some (⟨.punct, [c]⟩, depth, s) := by
    rcases hc with rfl | rfl <;> simp [lexToken, wordStart, cls.digit_ascii _ hlt, cls.alpha_ascii _ hlt,
      asciiDigit, asciiAlpha, isOp2, isPunct]
  simp only [htok, Option.some.injEq, Prod.mk.injEq] at h
  obtain ⟨rfl, rfl, rfl⟩ := h
  exact ⟨[], .num .exp (w ++ [c]), hlex, .num _ _ _ (.inl rfl), ha', ⟨by simp, by simp⟩, by simp⟩

/-- **One validator token is matched.**  At the end of the text nothing is left but what the reader
    held. -/
theorem next_simulated (hb : Boundary cls m t) (ha : agrees cls m t = true)
    (h : vmsLexerNext cls depth t = some (tok, depth', rest)) :
    (tok.kind = .end_ ∧ Quiet (lexFrom cls m t)) ∨ rest.head? = some 93 ∨ Matched cls tok m t rest := by
  cases t with
  | nil =>
    obtain ⟨rfl, _⟩ := by simpa [vmsLexerNext, skipBlank] using h
    refine .inl ⟨rfl, ?_⟩
    cases hb <;> simp [lexFrom, finish, Quiet]
  | cons c s =>
    rcases boundary_cases cls hb ha with ⟨ts, hq, hlex, ha'⟩ | ⟨hd, k, w, hstep⟩ | ⟨hc, w, hstep⟩
    · rw [vmsLexerNext] at h
      split at h
      · cases h
      · rename_i hskip
        obtain ⟨hnil, _⟩ := skipBlank_simulated cls _ _ _ _ hskip rfl ha'
        obtain ⟨rfl, _⟩ := by simpa using h
        refine .inl ⟨rfl, ?_⟩
        rw [hlex, hnil]
        simpa [lexFrom, finish] using hq
      · rename_i c' s' hskip
        obtain ⟨hlex', ha''⟩ := skipBlank_simulated cls _ _ _ _ hskip rfl ha'
        obtain ⟨_, hline, hblock⟩ := skipBlank_stops cls _ _ hskip
        rcases token_matched cls (lexToken_cases cls h) hline hblock ha'' with h93 | hmatch
        · exact .inr (.inl h93)
        · obtain ⟨us, m', hus, hb', ha₃, hshow, hsemi⟩ := hmatch
          refine .inr (.inr ⟨ts ++ us, m', ?_, hb', ha₃, hq.shows_append cls hshow, fun hm => ?_⟩)
          · rw [hlex, hlex', hus, nil_append, append_assoc]
          · exact hsemi ((mem_append.mp hm).resolve_left hq.no_semicolon)
    · exact .inr (.inr (digit_simulated cls hd hstep ha h))
    · exact .inr (.inr (sign_simulated cls hc hstep ha h))

/-! ## The whole text -/

/-- A closing bracket is no token. -/
theorem vmsLexerNext_bracket (h : t.head? = some 93) (depth : Nat) : vmsLexerNext cls depth t = none := by
  obtain ⟨s, rfl⟩ := head?_eq_some_iff.mp h
  have hspace : cls.space 93 = false := by rw [cls.space_ascii 93 (by decide)]; decide
  rw [vmsLexerNext, skipBlank_stay cls hspace (by simp) (by simp)]
  simp [lexToken, wordStart, cls.digit_ascii 93 (by decide), cls.alpha_ascii 93 (by decide),
    asciiDigit, asciiAlpha, isOp2, isPunct]

theorem harmless_append {us : List Tok} (hword : ∀ w, .word w ∈ ts → forbiddenWord cls w = false)
    (hsemi : .sym 59 ∉ ts) (hus : Harmless cls us) : Harmless cls (ts ++ us) := by
  induction ts with
  | nil => exact hus
  | cons x ts ih =>
    rw [mem_cons, not_or] at hsemi
    refine ⟨fun w hw => hword w (hw ▸ mem_cons_self), fun hx => absurd hx.symm hsemi.1, ?_⟩
    exact ih (fun w hw => hword w (mem_cons_of_mem _ hw)) hsemi.2

theorem Quiet.harmless (h : Quiet ts) : Harmless cls ts := by
  obtain ⟨hword, hsemi⟩ := h.shows cls ⟨.end_, []⟩
  have h : Harmless cls (ts ++ []) := harmless_append cls
    (fun w hw => absurd (hword w hw) (by simp)) (fun hs => absurd (hsemi hs).1 (by simp)) trivial
  rwa [append_nil] at h

/-- The validator cuts words at 63 units, which is longer than any keyword. -/
theorem forbiddenWord_of_refused (h : refusedWord ⟨.word, wordText cls w⟩ = none) : forbiddenWord cls w = false := by
  have hshort : ∀ kw ∈ kForbidden ++ ["into"], (wide kw).length ≤ 63 := by decide
  rw [refusedWord, find?_eq_none] at h
  rw [forbiddenWord, any_eq_false]
  intro kw hkw heq
  refine h kw hkw ?_
  rw [beq_iff_eq] at heq
  simp [wordIs, wordText, heq, take_of_length_le (hshort kw hkw)]

/-- A matched token that the validator lets pass and that is not a `;` keeps the text harmless. -/
theorem matched_harmless {tok : VmsToken} {m : Mode} {t rest : List Nat}
    (hmatch : Matched cls tok m t rest) (hpass : refusedWord tok = none) (hsemi : tok ≠ ⟨.punct, [59]⟩)
    (hrest : ∀ m', Boundary cls m' rest → agrees cls m' rest = true →
      Harmless cls (lexFrom cls m' rest)) : Harmless cls (lexFrom cls m t) := by
  obtain ⟨ts, m', hlex, hb, ha, ⟨hword, hs⟩, -⟩ := hmatch
  rw [hlex]
  refine harmless_append cls (fun w hw => ?_) (fun hm => hsemi (hs hm).1) (hrest m' hb ha)
  exact forbiddenWord_of_refused cls (hword w hw ▸ hpass)

/-- Before blanks and comments that end the text, only what the reader holds is left. -/
theorem end_harmless (hb : Boundary cls m t) (ha : agrees cls m t = true)
    (h : vmsLexerNext cls depth t = some (tok, depth', rest)) (hend : tok.kind = .end_) :
    Harmless cls (lexFrom cls m t) := by
  obtain ⟨_, rfl, -⟩ := vmsLexerNext_end cls h hend
  rcases next_simulated cls hb ha h with ⟨_, hq⟩ | h93 | ⟨ts, m', hlex, hb', _, ⟨hword, hsemi⟩, _⟩
  · exact hq.harmless cls
  · cases h93
  · rw [hlex]
    refine harmless_append cls (fun w hw => ?_) (fun hm => ?_) ?_
    · rw [hword w hw] at hend; cases hend
    · rw [(hsemi hm).1] at hend; cases hend
    · apply Quiet.harmless
      cases hb' <;> simp [lexFrom, finish, Quiet]

/-- A matched token with nothing but blanks and comments behind it. -/
theorem matched_last {nxt : VmsToken} {rest' : List Nat} (hmatch : Matched cls tok m t rest)
    (hpass : refusedWord tok = none)
    (hnext : vmsLexerNext cls depth rest = some (nxt, depth', rest')) (hend : nxt.kind = .end_) :
    Harmless cls (lexFrom cls m t) := by
  obtain ⟨ts, m', hlex, hb, ha, ⟨hword, hsemi⟩, hstart⟩ := hmatch
  have hwords : ∀ w, .word w ∈ ts → forbiddenWord cls w = false :=
    fun w hw => forbiddenWord_of_refused cls (hword w hw ▸ hpass)
  rw [hlex]
  by_cases hm : .sym 59 ∈ ts
  · obtain ⟨_, us, rfl, hus⟩ := hsemi hm
    obtain rfl := hstart hm
    obtain ⟨hnil, _⟩ := skipBlank_simulated cls _ _ _ _ (vmsLexerNext_end cls hnext hend).1 rfl ha
    rw [hnil, append_assoc]
    refine harmless_append cls (fun w hw => hwords w (mem_append_left _ hw)) hus ?_
    exact ⟨fun w hw => absurd hw (by simp), fun _ => rfl, trivial⟩
  · exact harmless_append cls hwords hm (end_harmless cls hb ha hnext hend)

/-- **The stream.**  Each token that has passed is matched. -/
theorem calls_harmless {words n : Nat} {r : Nat × Nat} {toks : List (Lexed × Nat)} {left : List Nat}
    (h : lexCalls cls n depth t = some (toks, left, true)) (hpassed : Passed depth words (toks.map Prod.fst) r)
    (hb : Boundary cls m t) (ha : agrees cls m t = true) : Harmless cls (lexFrom cls m t) := by
  induction toks generalizing n depth t m words with
  | nil =>
    obtain ⟨_, tok, depth', rest, -, hnext, hend⟩ := lexCalls_nil cls h
    exact end_harmless cls hb ha hnext hend
  | cons x toks ih =>
    obtain ⟨k, rest, hnext, hend, hspan, -, hrun⟩ := lexCalls_cons cls h
    obtain ⟨_, _, _, _, hdepth⟩ := vmsLexerNext_step cls hnext hend
    rw [← hspan] at hdepth
    obtain ⟨hpass, hsemi, hpassed⟩ := (passed_cons hdepth).mp hpassed
    rcases next_simulated cls hb ha hnext with ⟨hend', _⟩ | h93 | hmatch
    · exact absurd hend' hend
    · exact absurd (vmsLexerNext_bracket cls h93 _) (lexCalls_next cls hrun)
    · by_cases htok : x.1.tok = ⟨.punct, [59]⟩
      · obtain rfl := map_eq_nil_iff.mp (hsemi htok)
        obtain ⟨_, nxt, _, _, -, hnext', hlast⟩ := lexCalls_nil cls hrun
        exact matched_last cls hmatch hpass hnext' hlast
      · exact matched_harmless cls hmatch hpass htok fun m' hb' ha' => ih hrun hpassed hb' ha'

/-! ## The law -/

/-- **Where the lexers do not part, an accepted text is harmless.** -/
theorem accepted_harmless (query : List Nat) (h : vmsTsqlValidateQuery cls query = .ok ())
    (hagree : agrees cls .start query = true) : Harmless cls (lex cls query) := by
  obtain ⟨-, x, toks, left, words, hcalls, _, hpassed, -⟩ := (validate_passed cls).mp h
  exact calls_harmless cls hcalls hpassed (.start query) hagree

theorem accepted_harmless_select :
    Harmless .ascii (lex .ascii (wide "SELECT a /* b */ FROM [t] WHERE c = 1.5e-3;")) :=
  accepted_harmless .ascii (wide "SELECT a /* b */ FROM [t] WHERE c = 1.5e-3;") (by decide) (by decide)

/-- A word glued to a number: the validator reads one number token, T-SQL reads `INTO`. -/
theorem accepted_into : vmsTsqlValidateQuery .ascii (wide "SELECT 1INTO x") = .ok () ∧
      ¬ Harmless .ascii (lex .ascii (wide "SELECT 1INTO x")) := by
  refine ⟨by decide, ?_⟩
  have hlex : lex .ascii (wide "SELECT 1INTO x") =
      [.word (wide "SELECT"), .num [49], .word (wide "INTO"), .word [120]] := by decide
  rw [hlex]
  rintro ⟨_, _, _, _, hword, _⟩
  exact absurd (hword _ rfl) (by decide)

-- the other two places where the lexers part
example : vmsTsqlValidateQuery .ascii (wide "SELECT 1 /* /* */ ' */ INTO x --'") = .ok () ∧
    agrees .ascii .start (wide "SELECT 1 /* /* */ ' */ INTO x --'") = false := by decide
example : vmsTsqlValidateQuery .ascii (wide "SELECT 1e--INTO x") = .ok () ∧
    agrees .ascii .start (wide "SELECT 1e--INTO x") = false := by decide

end VirtualMssql.Lexer
