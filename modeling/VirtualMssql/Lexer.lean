/-
  THE QUERY VALIDATOR — the bounded lexer and the check of a query source.

  From `vms_lexer.c`: `vms_lexer_next` and `vms_tsql_validate_query`.  The position in the source is
  the rest of the text.  A token carries its kind and the text the validator looks at: words lowered and
  cut to 63 units, punctuation raw, nothing for strings and numbers.

  The classification of wide characters (`iswalpha`, `iswdigit`, `iswspace`, `towlower`) is a parameter
  `cls`; `iswalnum` is letters and digits.  The loop of the validator runs on fuel, one unit per token;
  every token shortens the text (`vmsLexerNext_shorter`), so the length of the text is always enough.
-/
import VirtualMssql.Lib.TSqlLex
import Mathlib.Data.List.TakeWhile

namespace VirtualMssql.Lexer

open TSql Delimited List

/-- `VmsTokKind`, less the kind for errors, which no code uses. -/
inductive VmsTokKind
  | end_
  | word
  | number
  | string
  | punct
  | op2
  deriving DecidableEq, Repr

/-- `VmsToken`, less its span. -/
structure VmsToken where
  kind : VmsTokKind
  text : List Nat := []
  deriving DecidableEq, Repr

variable (cls : CharClass)

/-! ## `vms_lexer_next` -/

/-- What the loop over blanks and comments is in. -/
inductive Skip
  | blank
  | line
  | block
  deriving DecidableEq, Repr

/-- White space and comments skipped; `none` for an unterminated comment.  A line comment ends at its
    newline, which is white space itself. -/
def skipBlank : Skip → List Nat → Option (List Nat)
  | .blank, [] => some []
  | .blank, [c] => if cls.space c then some [] else some [c]
  | .blank, c :: d :: s =>
    if cls.space c then skipBlank .blank (d :: s)
    else if c = 45 ∧ d = 45 then skipBlank .line s
    else if c = 47 ∧ d = 42 then skipBlank .block s
    else some (c :: d :: s)
  | .line, [] => some []
  | .line, c :: s => if c = 10 then skipBlank .blank s else skipBlank .line s
  | .block, [] => none
  | .block, [_] => none
  | .block, c :: d :: s => if c = 42 ∧ d = 47 then skipBlank .blank s else skipBlank .block (d :: s)

/-- Characters a number token runs over. -/
def numChar (c : Nat) : Bool := cls.alpha c || cls.digit c || c == 46

/-- `<=`, `<>`, `>=`, `!=`. -/
def isOp2 (c d : Nat) : Bool :=
  (c == 60 && (d == 61 || d == 62)) || (c == 62 && d == 61) || (c == 33 && d == 61)

/-- The single characters that are tokens by themselves. -/
def isPunct (c : Nat) : Bool := [40, 41, 44, 59, 46, 42, 43, 45, 47, 37, 61, 60, 62].contains c

/-- The text of a word token. -/
def wordText (w : List Nat) : List Nat := (w.map cls.lower).take 63

/-- The token that starts with `c`, the parenthesis depth after it, and the rest. -/
def lexToken (depth c : Nat) (s : List Nat) : Option (VmsToken × Nat × List Nat) :=
  if c = 91 then
    let name := s.takeWhile fun d => d != 93
    match s.drop name.length with
    | [] => none
    | _ :: rest => some (⟨.word, wordText cls name⟩, depth, rest)
  else if c = 39 then (readBody 39 s).map fun r => (⟨.string, []⟩, depth, r.2)
  else if c = 78 ∧ s.head? = some 39 then
    (readBody 39 s.tail).map fun r => (⟨.string, []⟩, depth, r.2)
  else if cls.digit c then some (⟨.number, []⟩, depth, s.dropWhile (numChar cls))
  else if wordStart cls c then
    some (⟨.word, wordText cls (c :: s.takeWhile (wordChar cls))⟩, depth,
      s.dropWhile (wordChar cls))
  else if isOp2 c (s.headD 0) then some (⟨.op2, [c, s.headD 0]⟩, depth, s.tail)
  else if isPunct c then
    if c = 40 then some (⟨.punct, [c]⟩, depth + 1, s)
    else if c = 41 then if depth = 0 then none else some (⟨.punct, [c]⟩, depth - 1, s)
    else some (⟨.punct, [c]⟩, depth, s)
  else none

/-- `vms_lexer_next`. -/
def vmsLexerNext (depth : Nat) (t : List Nat) : Option (VmsToken × Nat × List Nat) :=
  match skipBlank cls .blank t with
  | none => none
  | some [] => some (⟨.end_, []⟩, depth, [])
  | some (c :: s) => lexToken cls depth c s

/-! ## `vms_tsql_validate_query` -/

/-- `word_is`. -/
def wordIs (tok : VmsToken) (kw : String) : Bool := tok.kind = .word && tok.text == wide kw

/-- `k_forbidden`. -/
def kForbidden : List String :=
  ["insert", "update", "delete", "merge", "exec", "execute",
    "create", "alter", "drop", "truncate", "grant", "deny", "revoke",
    "openrowset", "openquery", "openjson", "openxml", "bulk",
    "set", "use", "begin", "commit", "rollback", "save",
    "tran", "transaction", "cursor", "declare", "print",
    "raiserror", "throw", "waitfor", "kill", "shutdown",
    "reconfigure", "revert", "grant", "readtext", "writetext",
    "updatetext", "checkpoint", "dbcc", "backup", "restore"]

/-- The keyword a token is refused for: one of the list, or `into`. -/
def refusedWord (tok : VmsToken) : Option String := (kForbidden ++ ["into"]).find? (wordIs tok)

/-- The loop over the tokens after the first: the parenthesis depth and the number of tokens at the
    end.  `none` when the fuel does not last. -/
def validateLoop : Nat → Nat → Nat → List Nat → Option (Except String (Nat × Nat))
  | 0, _, _, _ => none
  | n + 1, depth, words, t =>
    match vmsLexerNext cls depth t with
    | none => some (.error "lex error (unterminated string/comment or bad char)")
    | some (tok, depth', rest) =>
      if tok.kind = .end_ then some (.ok (depth', words))
      else match refusedWord tok with
        | some kw => some (.error ("forbidden keyword '" ++ kw ++ "'"))
        | none =>
          if tok.kind = .punct ∧ tok.text = [59] then
            match vmsLexerNext cls depth' rest with
            | none => some (.error "lex error after ';'")
            | some (nxt, depth'', _) =>
              if nxt.kind ≠ .end_ then some (.error "multiple statements are not allowed")
              else some (.ok (depth'', words + 1))
          else validateLoop n depth' (words + 1) rest

/-- A first token the validator lets pass: `(`, `SELECT` or `WITH`. -/
def firstOk (tok : VmsToken) : Bool :=
  (tok.kind = .punct && tok.text == [40]) || wordIs tok "select" || wordIs tok "with"

/-- `vms_tsql_validate_query`. -/
def vmsTsqlValidateQuery (query : List Nat) : Except String Unit :=
  if query.isEmpty then .error "empty query"
  else if 32768 < query.length then .error "query too long"
  else match vmsLexerNext cls 0 query with
    | none => .error "lex error at start"
    | some (tok, depth, rest) =>
      if !firstOk tok then .error "query must start with SELECT or WITH"
      else match validateLoop cls (rest.length + 1) depth 1 rest with
        | none => .error ""
        | some (.error e) => .error e
        | some (.ok (depth', words)) =>
          if depth' ≠ 0 then .error "unbalanced parentheses"
          else if words < 2 then .error "query too short"
          else .ok ()

/-! ## What one token can be -/

/-- Every way a token can come about, with the guards that led to it. -/
inductive LexesTo (depth c : Nat) (s : List Nat) : VmsToken → Nat → List Nat → Prop
  | bracket {name rest : List Nat} (hc : c = 91) (hname : 93 ∉ name) (hs : s = name ++ 93 :: rest) :
      LexesTo depth c s ⟨.word, wordText cls name⟩ depth rest
  | string {b rest : List Nat} (hc : c = 39) (hs : readBody 39 s = some (b, rest)) :
      LexesTo depth c s ⟨.string, []⟩ depth rest
  | nstring {s' b rest : List Nat} (hc : c = 78) (hs : s = 39 :: s')
      (hs' : readBody 39 s' = some (b, rest)) : LexesTo depth c s ⟨.string, []⟩ depth rest
  | number (hc : cls.digit c = true) :
      LexesTo depth c s ⟨.number, []⟩ depth (s.dropWhile (numChar cls))
  | word (hc : wordStart cls c = true) (hn : ¬ (c = 78 ∧ s.head? = some 39)) :
      LexesTo depth c s ⟨.word, wordText cls (c :: s.takeWhile (wordChar cls))⟩ depth
        (s.dropWhile (wordChar cls))
  | op2 {d : Nat} {rest : List Nat} (hc : isOp2 c d = true) (hs : s = d :: rest) :
      LexesTo depth c s ⟨.op2, [c, d]⟩ depth rest
  | punct {depth' : Nat} (hc : isPunct c = true) : LexesTo depth c s ⟨.punct, [c]⟩ depth' s

variable {s rest : List Nat}

/-- A text cut at the first occurrence of `q`. -/
theorem cut_at_first {q d : Nat} (h : s.drop (s.takeWhile fun c => c != q).length = d :: rest) :
    s = (s.takeWhile fun c => c != q) ++ q :: rest ∧ q ∉ s.takeWhile fun c => c != q := by
  have hsplit := takeWhile_append_dropWhile (p := fun c => c != q) (l := s)
  have hdrop : s.dropWhile (fun c => c != q) = d :: rest := by
    rw [← h]
    nth_rewrite 3 [← hsplit]
    rw [drop_left]
  have hq : d = q := by
    have := head_dropWhile_not (fun c => c != q) (l := s) (by rw [hdrop]; simp)
    simpa [hdrop] using this
  refine ⟨by rw [← hq, ← hdrop, hq, hsplit], fun hm => ?_⟩
  exact absurd (mem_takeWhile_imp hm) (by simp)

variable {depth depth' : Nat} {tok : VmsToken}

theorem lexToken_cases {c : Nat} (h : lexToken cls depth c s = some (tok, depth', rest)) :
    LexesTo cls depth c s tok depth' rest := by
  revert h
  fun_cases lexToken cls depth c s
  case case2 h91 name d rest' hdrop =>
    rintro ⟨⟩
    obtain ⟨hs, hname⟩ := cut_at_first hdrop
    exact .bracket h91 hname hs
  case case3 _ h39 =>
    intro h
    obtain ⟨⟨b, r⟩, hb, ⟨⟩⟩ := Option.map_eq_some_iff.mp h
    exact .string h39 hb
  case case4 _ _ hn =>
    intro h
    obtain ⟨⟨b, r⟩, hb, ⟨⟩⟩ := Option.map_eq_some_iff.mp h
    obtain ⟨s', rfl⟩ := head?_eq_some_iff.mp hn.2
    exact .nstring hn.1 rfl hb
  case case5 hd =>
    rintro ⟨⟩
    exact .number hd
  case case6 hn _ hw =>
    rintro ⟨⟩
    exact .word hw hn
  case case7 ho =>
    rintro ⟨⟩
    cases s with
    | nil => simp [isOp2] at ho
    | cons d s => exact .op2 ho rfl
  case case8 hp _ =>
    rintro ⟨⟩
    exact .punct hp
  case case10 hp _ _ _ =>
    rintro ⟨⟩
    exact .punct hp
  case case11 hp _ _ =>
    rintro ⟨⟩
    exact .punct hp
  all_goals rintro ⟨⟩

/-! ## Every token shortens the text -/

theorem skipBlank_length : ∀ (m : Skip) (t t' : List Nat), skipBlank cls m t = some t' → t'.length ≤ t.length := by
  intro m t
  fun_induction skipBlank cls m t <;> intro t' h <;> simp_all <;> grind

/-- A token is taken off the front. -/
theorem lexToken_suffix {c : Nat} (h : lexToken cls depth c s = some (tok, depth', rest)) : rest <:+ s := by
  have hstr : ∀ {t b : List Nat}, readBody 39 t = some (b, rest) → rest <:+ t := by
    intro t b ht
    rw [(readBody_sound ht).1]
    exact (suffix_cons _ _).trans (suffix_append _ _)
  cases lexToken_cases cls h with
  | bracket hc hname hs =>
    rw [hs]
    exact (suffix_cons _ _).trans (suffix_append _ _)
  | string hc hs => exact hstr hs
  | nstring hc hs hs' => exact hs ▸ (hstr hs').trans (suffix_cons _ _)
  | number hc | word hc hn => exact dropWhile_suffix _
  | op2 hc hs => exact hs ▸ suffix_cons _ _
  | punct hc => exact suffix_rfl

/-- A call that gives a token has skipped to its first character. -/
theorem vmsLexerNext_token {t : List Nat} (h : vmsLexerNext cls depth t = some (tok, depth', rest))
    (hend : tok.kind ≠ .end_) :
    ∃ c s, skipBlank cls .blank t = some (c :: s) ∧ lexToken cls depth c s = some (tok, depth', rest) := by
  revert h
  fun_cases vmsLexerNext cls depth t
  case case1 => rintro ⟨⟩
  case case2 =>
    rintro ⟨⟩
    exact absurd rfl hend
  case case3 c s hskip => exact fun h => ⟨c, s, hskip, h⟩

/-- **Every token but the last shortens the text.** -/
theorem vmsLexerNext_shorter {t : List Nat}
    (h : vmsLexerNext cls depth t = some (tok, depth', rest)) (hend : tok.kind ≠ .end_) : rest.length < t.length := by
  obtain ⟨c, s, hskip, hlex⟩ := vmsLexerNext_token cls h hend
  have hle := skipBlank_length cls _ _ _ hskip
  have hlt := (lexToken_suffix cls hlex).length_le
  simp only [length_cons] at hle
  omega

/-- **What acceptance says**: the first token passes, the loop runs to the end with every parenthesis closed, and
    two tokens are there. -/
theorem vmsTsqlValidateQuery_iff {query : List Nat} : vmsTsqlValidateQuery cls query = .ok () ↔
    query ≠ [] ∧ query.length ≤ 32768 ∧ ∃ tok depth rest words, vmsLexerNext cls 0 query = some (tok, depth, rest) ∧
      firstOk tok = true ∧ validateLoop cls (rest.length + 1) depth 1 rest = some (.ok (0, words)) ∧ 2 ≤ words := by
  fun_cases vmsTsqlValidateQuery cls query
  all_goals simp_all
  all_goals omega

/-- The first token is a parenthesis or one of two words. -/
theorem firstOk_cases (h : firstOk tok = true) :
    tok = ⟨.punct, [40]⟩ ∨ tok = ⟨.word, wide "select"⟩ ∨ tok = ⟨.word, wide "with"⟩ := by
  obtain ⟨kind, text⟩ := tok
  simpa [firstOk, wordIs, or_assoc] using h

/-- The first token is none of those the loop looks for. -/
theorem firstOk_pass (h : firstOk tok = true) : refusedWord tok = none ∧ tok ≠ ⟨.punct, [59]⟩ ∧ tok.kind ≠ .end_ := by
  rcases firstOk_cases h with rfl | rfl | rfl <;> decide

end VirtualMssql.Lexer
