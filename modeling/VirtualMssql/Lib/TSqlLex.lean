/-
  T-SQL LEXICAL RULES — a character-by-character reader of T-SQL text.

  The rules: block comments NEST, line comments end at the newline, a doubled `'` inside a string and a
  doubled closing bracket or quote inside a quoted name stand for one, and a numeric literal ends at the first
  character that cannot continue a number, so that a word may follow it without a space.  Text is a
  list of UTF-16 units, written as natural numbers.

  The reader is a transition function `step` on a `Mode`, with the tokens it emits on the way; `lex`
  runs it over a text and closes the last mode.  Compositionality is then free (`lexFrom_append`):
  what a text means after a prefix depends only on the mode the prefix ends in, so a fixed prefix is
  evaluated once and the proof goes on at its mode.  The two delimited modes are tied to
  `Delimited.readBody` (`lexFrom_str`, `lexFrom_brk`), which is where quoting arguments happen.

  A text that ends inside a string, a quoted name or a comment yields the token `bad`.  A backslash before a
  newline belongs to the string it stands in and ends nothing; the value of the string is `joined`.
-/
import VirtualMssql.Lib.Delimited

namespace VirtualMssql.TSql

open Delimited List

/-! ## Characters -/

def asciiAlpha (c : Nat) : Bool := (65 ≤ c && c ≤ 90) || (97 ≤ c && c ≤ 122)
def asciiDigit (c : Nat) : Bool := 48 ≤ c && c ≤ 57
def asciiSpace (c : Nat) : Bool := (9 ≤ c && c ≤ 13) || c == 32
def asciiLower (c : Nat) : Nat := if 65 ≤ c ∧ c ≤ 90 then c + 32 else c

/-- The classification of wide characters a lexer consults.  On ASCII it is the fixed one; beyond it
    only the disjointness that the C standard promises is known. -/
structure CharClass where
  alpha : Nat → Bool
  digit : Nat → Bool
  space : Nat → Bool
  lower : Nat → Nat
  alpha_ascii : ∀ c, c < 128 → alpha c = asciiAlpha c
  digit_ascii : ∀ c, c < 128 → digit c = asciiDigit c
  space_ascii : ∀ c, c < 128 → space c = asciiSpace c
  lower_ascii : ∀ c, c < 128 → lower c = asciiLower c
  alpha_not_digit : ∀ c, alpha c = true → digit c = false
  alpha_not_space : ∀ c, alpha c = true → space c = false
  digit_not_space : ∀ c, digit c = true → space c = false

/-- The classification that knows ASCII only. -/
def CharClass.ascii : CharClass where
  alpha := asciiAlpha
  digit := asciiDigit
  space := asciiSpace
  lower := asciiLower
  alpha_ascii _ _ := rfl
  digit_ascii _ _ := rfl
  space_ascii _ _ := rfl
  lower_ascii _ _ := rfl
  alpha_not_digit c h := by
    simp only [asciiAlpha, asciiDigit, Bool.or_eq_true, Bool.and_eq_true, decide_eq_true_eq,
      Bool.and_eq_false_iff, decide_eq_false_iff_not] at h ⊢
    omega
  alpha_not_space c h := by
    simp only [asciiAlpha, asciiSpace, Bool.or_eq_true, Bool.and_eq_true, decide_eq_true_eq,
      Bool.or_eq_false_iff, Bool.and_eq_false_iff, decide_eq_false_iff_not, beq_eq_false_iff_ne]
      at h ⊢
    omega
  digit_not_space c h := by
    simp only [asciiDigit, asciiSpace, Bool.and_eq_true, decide_eq_true_eq,
      Bool.or_eq_false_iff, Bool.and_eq_false_iff, decide_eq_false_iff_not, beq_eq_false_iff_ne]
      at h ⊢
    omega

/-- A text literal as UTF-16 units (the literals of this development are ASCII). -/
def wide (s : String) : List Nat := s.toList.map Char.toNat

theorem wide_inj {a b : String} : wide a = wide b ↔ a = b := by
  have hchar : Function.Injective Char.toNat := fun _ _ h => Char.toNat_inj.mp h
  rw [wide, wide, (map_injective_iff.mpr hchar).eq_iff, String.toList_inj]

variable (cls : CharClass)

/-- Characters that start a regular identifier: a letter, `_`, `#` or `@`. -/
def wordStart (c : Nat) : Bool := cls.alpha c || c == 95 || c == 35 || c == 64

/-- Characters that continue it: also a digit or `$`. -/
def wordChar (c : Nat) : Bool :=
  cls.alpha c || cls.digit c || c == 95 || c == 35 || c == 64 || c == 36

/-! ## Tokens and modes -/

/-- The tokens of T-SQL text.  Strings and quoted names are given with their doubled delimiters undone; what a
    string then stands for is `joined`. -/
inductive Tok
  | word (s : List Nat)
  | quoted (s : List Nat)
  | str (s : List Nat)
  | num (s : List Nat)
  | sym (c : Nat)
  | bad
  deriving DecidableEq, Repr

/-- How far a numeric literal has come. -/
inductive NumState
  | zero    -- a single `0`, still open to `0x…`
  | int
  | frac    -- after the decimal point
  | exp0    -- right after `e`
  | exp     -- in the exponent
  | hex
  deriving DecidableEq, Repr

/-- What the reader is in the middle of. -/
inductive Mode
  | start
  | word (s : List Nat)
  | num (k : NumState) (s : List Nat)
  | dot                      -- a `.` that may open a number
  | str (s : List Nat)
  | strQ (s : List Nat)      -- a string that just met a quote
  | brk (s : List Nat)
  | brkQ (s : List Nat)
  | dq (s : List Nat)
  | dqQ (s : List Nat)
  | dash                     -- one `-`
  | line                     -- line comment
  | slash                    -- one `/`
  | block (d : Nat)          -- block comment, `d` more of them around it
  | blockStar (d : Nat)
  | blockSlash (d : Nat)
  deriving DecidableEq, Repr

def hexDigit (c : Nat) : Bool :=
  (48 ≤ c && c ≤ 57) || (65 ≤ c && c ≤ 70) || (97 ≤ c && c ≤ 102)

/-- Can the character continue the numeric literal, and in which state? -/
def numNext (k : NumState) (c : Nat) : Option NumState :=
  match k with
  | .zero =>
    if c = 120 ∨ c = 88 then some .hex
    else if cls.digit c then some .int
    else if c = 46 then some .frac
    else if c = 101 ∨ c = 69 then some .exp0 else none
  | .int =>
    if cls.digit c then some .int
    else if c = 46 then some .frac
    else if c = 101 ∨ c = 69 then some .exp0 else none
  | .frac =>
    if cls.digit c then some .frac
    else if c = 101 ∨ c = 69 then some .exp0 else none
  | .exp0 =>
    if cls.digit c then some .exp
    else if c = 43 ∨ c = 45 then some .exp else none
  | .exp => if cls.digit c then some .exp else none
  | .hex => if hexDigit c then some .hex else none

/-- A character between tokens: the tokens it completes by itself and the mode it opens. -/
def opening (c : Nat) : List Tok × Mode :=
  if cls.space c then ([], .start)
  else if c = 45 then ([], .dash)
  else if c = 47 then ([], .slash)
  else if c = 39 then ([], .str [])
  else if c = 91 then ([], .brk [])
  else if c = 34 then ([], .dq [])
  else if cls.digit c then ([], .num (if c = 48 then .zero else .int) [c])
  else if c = 46 then ([], .dot)
  else if wordStart cls c then ([], .word [c])
  else ([.sym c], .start)

/-- Close a token, then look at the character as one between tokens. -/
def closing (t : Tok) (c : Nat) : List Tok × Mode := (t :: (opening cls c).1, (opening cls c).2)

/-- One character. -/
def step : Mode → Nat → List Tok × Mode
  | .start, c => opening cls c
  | .word s, c =>
    if wordChar cls c then ([], .word (s ++ [c]))
    else if c = 39 ∧ s = [78] then ([], .str [])      -- N'…'
    else closing cls (.word s) c
  | .num k s, c =>
    match numNext cls k c with
    | some k' => ([], .num k' (s ++ [c]))
    | none => closing cls (.num s) c
  | .dot, c => if cls.digit c then ([], .num .frac [46, c]) else closing cls (.sym 46) c
  -- a backslash before a newline is kept here; `joined` takes the two out
  | .str s, c => if c = 39 then ([], .strQ s) else ([], .str (s ++ [c]))
  | .strQ s, c => if c = 39 then ([], .str (s ++ [39])) else closing cls (.str s) c
  | .brk s, c => if c = 93 then ([], .brkQ s) else ([], .brk (s ++ [c]))
  | .brkQ s, c => if c = 93 then ([], .brk (s ++ [93])) else closing cls (.quoted s) c
  | .dq s, c => if c = 34 then ([], .dqQ s) else ([], .dq (s ++ [c]))
  | .dqQ s, c => if c = 34 then ([], .dq (s ++ [34])) else closing cls (.quoted s) c
  | .dash, c => if c = 45 then ([], .line) else closing cls (.sym 45) c
  | .line, c => if c = 10 then ([], .start) else ([], .line)
  | .slash, c => if c = 42 then ([], .block 0) else closing cls (.sym 47) c
  | .block d, c =>
    if c = 42 then ([], .blockStar d) else if c = 47 then ([], .blockSlash d)
    else ([], .block d)
  | .blockStar d, c =>
    if c = 47 then (match d with
      | 0 => ([], .start)
      | d + 1 => ([], .block d))
    else if c = 42 then ([], .blockStar d) else ([], .block d)
  | .blockSlash d, c =>
    if c = 42 then ([], .block (d + 1))
    else if c = 47 then ([], .blockSlash d) else ([], .block d)

/-- The end of the text. -/
def finish : Mode → List Tok
  | .start => []
  | .word s => [.word s]
  | .num _ s => [.num s]
  | .dot => [.sym 46]
  | .str _ => [.bad]
  | .strQ s => [.str s]
  | .brk _ => [.bad]
  | .brkQ s => [.quoted s]
  | .dq _ => [.bad]
  | .dqQ s => [.quoted s]
  | .dash => [.sym 45]
  | .line => []
  | .slash => [.sym 47]
  | .block _ => [.bad]
  | .blockStar _ => [.bad]
  | .blockSlash _ => [.bad]

/-- The tokens of a text read from mode `m`. -/
def lexFrom (m : Mode) : List Nat → List Tok
  | [] => finish m
  | c :: cs => (step cls m c).1 ++ lexFrom (step cls m c).2 cs

/-- **The tokens of a text.** -/
def lex (t : List Nat) : List Tok := lexFrom cls .start t

/-- A prefix: the tokens it completes and the mode it ends in. -/
def runPrefix (m : Mode) : List Nat → List Tok × Mode
  | [] => ([], m)
  | c :: cs =>
    let r := runPrefix (step cls m c).2 cs
    ((step cls m c).1 ++ r.1, r.2)

/-! ## Composition -/

theorem lexFrom_cons (m : Mode) (c : Nat) (cs : List Nat) :
    lexFrom cls m (c :: cs) = (step cls m c).1 ++ lexFrom cls (step cls m c).2 cs := rfl

/-- **Prefixes compose**: a text after a prefix is read from the mode the prefix ends in. -/
theorem lexFrom_append (a b : List Nat) : ∀ m : Mode,
    lexFrom cls m (a ++ b) = (runPrefix cls m a).1 ++ lexFrom cls (runPrefix cls m a).2 b := by
  induction a with
  | nil => intro m; rfl
  | cons c a ih =>
    intro m
    rw [cons_append, lexFrom_cons, ih, ← append_assoc]
    rfl

variable {m : Mode}

/-- The form used on a fixed prefix whose run has been evaluated. -/
theorem lexFrom_of_run {m' : Mode} {a : List Nat} {ts : List Tok} (h : runPrefix cls m a = (ts, m')) (b : List Nat) :
    lexFrom cls m (a ++ b) = ts ++ lexFrom cls m' b := by
  rw [lexFrom_append, h]

theorem runPrefix_append (a b : List Nat) (m : Mode) : runPrefix cls m (a ++ b) =
      ((runPrefix cls m a).1 ++ (runPrefix cls (runPrefix cls m a).2 b).1,
        (runPrefix cls (runPrefix cls m a).2 b).2) := by
  induction a generalizing m with
  | nil => rfl
  | cons c a ih =>
    rw [cons_append, runPrefix, runPrefix, ih]
    simp

theorem runPrefix_of_runs {m₁ m₂ : Mode} {a b : List Nat} {ts us : List Tok}
    (ha : runPrefix cls m a = (ts, m₁)) (hb : runPrefix cls m₁ b = (us, m₂)) :
    runPrefix cls m (a ++ b) = (ts ++ us, m₂) := by
  rw [runPrefix_append, ha, hb]

/-! ## Delimited modes read what `readBody` reads -/

/-- Between delimiters the reader does what `readBody` does: it emits the decoded text and goes on after the
    closing one, or finds the text unterminated.  Induction on the text, two characters at a time where the
    delimiter is doubled. -/
theorem lexFrom_body {inside met : List Nat → Mode} {tok : List Nat → Tok} {q : Nat}
    (hin : ∀ s c, step cls (inside s) c = if c = q then ([], met s) else ([], inside (s ++ [c])))
    (hmet : ∀ s c, step cls (met s) c = if c = q then ([], inside (s ++ [q])) else closing cls (tok s) c)
    (hopen : ∀ s, finish (inside s) = [.bad]) (hclosed : ∀ s, finish (met s) = [tok s]) : ∀ (t s : List Nat),
    lexFrom cls (inside s) t = match readBody q t with
      | some (b, r) => tok (s ++ b) :: lexFrom cls .start r
      | none => [.bad]
  | [], s => hopen s
  | [c], s => by
    by_cases hc : c = q
    · simp [lexFrom, hin, readBody, hclosed, hc]
      rfl
    · simp [lexFrom, hin, readBody, hopen, hc]
  | c :: d :: cs, s => by
    by_cases hc : c = q
    · obtain rfl := hc.symm
      by_cases hd : d = q
      · obtain rfl := hd.symm
        rw [lexFrom_cons, lexFrom_cons]
        simp only [hin, hmet, if_true, nil_append]
        rw [lexFrom_body hin hmet hopen hclosed cs (s ++ [q]), readBody_pair]
        cases readBody q cs with
        | none => rfl
        | some r => simp
      · rw [lexFrom_cons, readBody_close (by simpa using hd)]
        simp only [hin, if_true, nil_append]
        rw [lexFrom_cons]
        simp only [hmet, if_neg hd, closing, append_nil, cons_append]
        rw [lexFrom_cons]
        rfl
    · rw [lexFrom_cons, readBody_skip hc]
      simp only [hin, if_neg hc, nil_append]
      rw [lexFrom_body hin hmet hopen hclosed (d :: cs) (s ++ [c])]
      cases readBody q (d :: cs) with
      | none => rfl
      | some r => simp

theorem lexFrom_str (t s : List Nat) : lexFrom cls (.str s) t = match readBody 39 t with
      | some (b, r) => .str (s ++ b) :: lexFrom cls .start r
      | none => [.bad] :=
  lexFrom_body cls (fun _ _ => rfl) (fun _ _ => rfl) (fun _ => rfl) (fun _ => rfl) t s

theorem lexFrom_brk (t s : List Nat) : lexFrom cls (.brk s) t = match readBody 93 t with
      | some (b, r) => .quoted (s ++ b) :: lexFrom cls .start r
      | none => [.bad] :=
  lexFrom_body cls (fun _ _ => rfl) (fun _ _ => rfl) (fun _ => rfl) (fun _ => rfl) t s

/-- The quoting writer is run over without a token. -/
theorem runPrefix_str_double : ∀ (b s : List Nat), runPrefix cls (.str s) (double 39 b) = ([], .str (s ++ b))
  | [], s => by simp [double, runPrefix]
  | c :: b, s => by
    by_cases hc : c = 39
    · subst hc
      rw [double_cons_self, runPrefix, runPrefix]
      simp only [step, if_true, nil_append]
      rw [runPrefix_str_double b (s ++ [39])]
      simp
    · rw [double_cons_ne hc, runPrefix]
      simp only [step, if_neg hc, nil_append]
      rw [runPrefix_str_double b (s ++ [c])]
      simp

theorem runPrefix_brk_plain : ∀ (b s : List Nat), 93 ∉ b → runPrefix cls (.brk s) b = ([], .brk (s ++ b))
  | [], s, _ => by simp [runPrefix]
  | c :: b, s, hb => by
    rw [mem_cons, not_or] at hb
    rw [runPrefix]
    simp only [step, if_neg (Ne.symm hb.1), nil_append]
    rw [runPrefix_brk_plain b (s ++ [c]) hb.2]
    simp

/-! ## Between tokens -/

variable {c : Nat}

/-- A character that only closes the mode is read as one between tokens. -/
theorem lexFrom_closing {tok : Tok} (h : step cls m c = closing cls tok c) (s : List Nat) :
    lexFrom cls m (c :: s) = tok :: lexFrom cls .start (c :: s) := by
  rw [lexFrom_cons, h, lexFrom_cons]
  rfl

/-- On ASCII every classification opens the same mode. -/
theorem opening_ascii (hc : c < 128) : opening cls c = opening .ascii c := by
  simp only [opening, wordStart, cls.space_ascii c hc, cls.digit_ascii c hc, cls.alpha_ascii c hc]
  rfl

theorem closing_ascii (hc : c < 128) (t : Tok) : closing cls t c = closing .ascii t c := by
  rw [closing, closing, opening_ascii cls hc]

theorem numNext_ascii (hc : c < 128) (k : NumState) : numNext cls k c = numNext .ascii k c := by
  cases k <;> simp only [numNext, cls.digit_ascii c hc] <;> rfl

theorem step_ascii (hc : c < 128) (m : Mode) : step cls m c = step .ascii m c := by
  have hword : wordChar cls c = wordChar .ascii c := by
    simp only [wordChar, cls.alpha_ascii c hc, cls.digit_ascii c hc]
    rfl
  have hdigit : cls.digit c = CharClass.ascii.digit c := cls.digit_ascii c hc
  cases m <;> simp [step, opening_ascii cls hc, closing_ascii cls hc, numNext_ascii cls hc, hword, hdigit]

/-- On ASCII text every classification reads the same. -/
theorem runPrefix_ascii : ∀ {t : List Nat}, (∀ c ∈ t, c < 128) → ∀ m : Mode, runPrefix cls m t = runPrefix .ascii m t
  | [], _, _ => rfl
  | c :: t, h, m => by
    obtain ⟨hc, ht⟩ := forall_mem_cons.mp h
    rw [runPrefix, runPrefix, step_ascii cls hc, runPrefix_ascii ht]

theorem lexFrom_ascii {t : List Nat} (h : ∀ c ∈ t, c < 128) (m : Mode) : lexFrom cls m t = lexFrom .ascii m t := by
  have hall := fun k : CharClass => lexFrom_append k t [] m
  simp only [append_nil] at hall
  rw [hall, hall, runPrefix_ascii cls h]
  rfl

example : lex CharClass.ascii (wide "SELECT N'it''s' /* a /* b */ c */ 1INTO[x]]y]") =
    [.word (wide "SELECT"), .str (wide "it's"), .num [49], .word (wide "INTO"),
      .quoted (wide "x]y")] := by decide

/-! ## Line continuation -/

/-- **What a string constant stands for**: a backslash is taken out with the newline behind it (line
    continuation). -/
def joined : List Nat → List Nat
  | 92 :: 13 :: 10 :: s => joined s
  | 92 :: 10 :: s => joined s
  | c :: s => c :: joined s
  | [] => []

/-- A backslash stands before a newline. -/
def Continued (s : List Nat) : Prop := [92, 13, 10] <:+: s ∨ [92, 10] <:+: s

theorem length_joined_le (s : List Nat) : (joined s).length ≤ s.length := by
  fun_induction joined s <;> simp only [length_cons, length_nil] <;> omega

/-- A constant without a continuation stands for its text, and no other does. -/
theorem joined_eq_self_iff (s : List Nat) : joined s = s ↔ ¬ Continued s := by
  have hshort : ∀ {s t : List Nat}, s.length < t.length → joined s ≠ t := fun hlt heq =>
    absurd (heq ▸ length_joined_le _) (by omega)
  fun_induction joined s with
  | case1 s => exact iff_of_false (hshort (by simp only [length_cons]; omega)) (not_not.mpr (.inl ⟨[], s, rfl⟩))
  | case2 s => exact iff_of_false (hshort (by simp only [length_cons]; omega)) (not_not.mpr (.inr ⟨[], s, rfl⟩))
  | case3 c s hcrlf hlf ih =>
    have hhead : ¬ [92, 13, 10] <+: c :: s ∧ ¬ [92, 10] <+: c :: s := by
      refine ⟨?_, ?_⟩
      · rintro ⟨t, ht⟩
        exact hcrlf t (cons.inj ht).1.symm (cons.inj ht).2.symm
      · rintro ⟨t, ht⟩
        exact hlf t (cons.inj ht).1.symm (cons.inj ht).2.symm
    simp [Continued, infix_cons_iff, hhead, ih]
  | case4 => simp [Continued]

end VirtualMssql.TSql
