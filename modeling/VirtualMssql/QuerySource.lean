/-
  QUERY SOURCES — what `vms_query_source_prepare` sends for a query, and what `vms_query_source_get_sql` gives back.

  The query is put into a literal, `N'…'`, with its quotes doubled, and the literal into a call of
  `sys.dm_exec_describe_first_result_set`.  Two buffers of 34816 units are on the way.  The loop that doubles stops at
  34800 units and closes the literal in any case; `_snwprintf_s` cuts the whole statement at 34815 units.

  The statement before the literal is longer than the 15 units between the two limits.  So whenever the loop stopped
  early, the quote that closes the shortened literal is cut off again, and what is sent is a prefix of the whole
  statement.  A prefix of it may end between the two halves of a doubled quote: then the literal ends, and says
  less than the query, but nothing follows it.

  A literal loses every backslash that stands before a newline, with the newline; the text that is executed does not.
  `described_is_executed_iff` is the result.
-/
import VirtualMssql.Connstr
import VirtualMssql.Lexer
import VirtualMssql.Lib.TSqlText

namespace VirtualMssql.QuerySource

open Delimited TSql Lexer List
open Connstr (copyWide copyWide_some)
open Utf (utf8ToWide)

/-! ## `vms_query_source_prepare` -/

/-- The loop that doubles the quotes, from index `w` on. -/
def wrapLoop : Nat → List Nat → List Nat
  | _, [] => []
  | w, c :: q =>
    if 34800 ≤ w then []
    else if c = 39 then 39 :: 39 :: wrapLoop (w + 2) q
    else c :: wrapLoop (w + 1) q

variable (query : List Nat)

/-- The buffer `wrapped`, without its terminator. -/
def wrapped : List Nat := 78 :: 39 :: (wrapLoop 2 query ++ [39])

def callFront : List Nat :=
  wide ("SELECT name, system_type_name, max_length, precision," ++
    " scale, is_nullable FROM" ++
    " sys.dm_exec_describe_first_result_set(")

def callBack : List Nat := wide ", NULL, 0)"

/-- What the first `_snwprintf_s` leaves in the buffer `sql`; nothing reads it. -/
def execSql : List Nat :=
  (wide "EXEC sys.sp_describe_first_result_set @tsql = N'" ++ (query ++ [39])).take 34815

/-- What the second one leaves there. -/
def describeSql : List Nat := (callFront ++ (wrapped query ++ callBack)).take 34815

/-- The statement that is sent, and the query that is kept. -/
structure VmsQuerySource where
  sql : List Nat
  query : List Nat

/-- `vms_query_source_prepare`, up to the statement. -/
def vmsQuerySourcePrepare (cls : CharClass) (queryUtf8 : List Nat) : Except String VmsQuerySource :=
  match copyWide (cstr queryUtf8) 32768 with
  | none => .error "query is not valid UTF-8"
  | some w =>
    match vmsTsqlValidateQuery cls w with
    | .error e => .error ("query rejected: " ++ e)
    | .ok () => .ok ⟨describeSql w, w⟩

/-- `vms_query_source_get_sql`, into a buffer of `outWchars` units. -/
def vmsQuerySourceGetSql (src : VmsQuerySource) (outWchars : Nat) : Option (List Nat) :=
  if outWchars < src.query.length + 1 then none else some src.query

/-! ## What the server reads -/

/-- The tokens of the call with a literal for the query. -/
def callTokens : List Tok := lex .ascii callFront ++ .str query :: lex .ascii callBack

/-- A literal or a comment that does not end, or a parenthesis that is not closed. -/
def Incomplete (ts : List Tok) : Prop := Tok.bad ∈ ts ∨ ts.count (.sym 41) < ts.count (.sym 40)

/-! ## The loop -/

/-- **The loop** writes the doubled query, or it has filled its buffer with a prefix of that. -/
theorem wrapLoop_spec : ∀ {q : List Nat} {w : Nat}, w ≤ 34801 →
    wrapLoop w q <+: double 39 q ∧ w + (wrapLoop w q).length ≤ 34801 ∧
      (wrapLoop w q = double 39 q ∨ 34800 ≤ w + (wrapLoop w q).length)
  | [], w, hw => ⟨prefix_rfl, hw, .inl rfl⟩
  | c :: q, w, hw => by
    rw [wrapLoop]
    by_cases hfull : 34800 ≤ w
    · rw [if_pos hfull]
      exact ⟨ nil_prefix, hw, .inr hfull⟩
    rw [if_neg hfull]
    by_cases hc : c = 39
    · obtain ⟨hstart, hle, hcases⟩ := @wrapLoop_spec q (w + 2) (by omega)
      rw [if_pos hc, hc, double_cons_self]
      simp only [length_cons, cons_prefix_cons, true_and, cons.injEq]
      exact ⟨hstart, by omega, hcases.imp_right fun h => by omega⟩
    · obtain ⟨hstart, hle, hcases⟩ := @wrapLoop_spec q (w + 1) (by omega)
      rw [if_neg hc, double_cons_ne hc]
      simp only [length_cons, cons_prefix_cons, true_and, cons.injEq]
      exact ⟨hstart, by omega, hcases.imp_right fun h => by omega⟩

/-- No write leaves the two buffers, the terminators included. -/
theorem buffers_hold :
    (wrapped query).length + 1 ≤ 34816 ∧ (execSql query).length + 1 ≤ 34816 ∧
      (describeSql query).length + 1 ≤ 34816 := by
  obtain ⟨-, hle, -⟩ := @wrapLoop_spec query 2 (by decide)
  refine ⟨?_, Nat.succ_le_succ (length_take_le _ _), Nat.succ_le_succ (length_take_le _ _)⟩
  simp only [wrapped, length_cons, length_append, length_nil]
  omega

/-! ## Prefixes of the statement -/

section Lexing
variable (cls : CharClass)

theorem lex_front (t : List Nat) : lex cls (callFront ++ 78 :: 39 :: t) = lex .ascii callFront ++
    lexFrom cls (.str []) t := by
  have hascii : ∀ c ∈ callFront, c < 128 := by decide +kernel
  have hopen : ∀ c ∈ [78, 39], c < 128 := by decide
  have hmode : endMode callFront = .start := by decide +kernel
  have hfront : lex .ascii callFront = (runPrefix .ascii .start callFront).1 := by
    have happend := lexFrom_append .ascii callFront [] .start
    rw [append_nil, ← endMode, hmode] at happend
    rw [TSql.lex, happend]
    exact append_nil _
  have hliteral : lexFrom cls .start (78 :: 39 :: t) = lexFrom cls (.str []) t := by
    have happend := lexFrom_append cls [78, 39] t .start
    rw [runPrefix_ascii cls hopen] at happend
    exact happend
  rw [TSql.lex, lexFrom_append, runPrefix_ascii cls hascii, ← endMode, hmode, hliteral, hfront]

/-- A literal that is cut: it does not end, or it ends at the first half of a doubled quote, at the end of the text. -/
theorem lexFrom_cut : ∀ {q t : List Nat}, t <+: double 39 q → ∀ s : List Nat,
    lexFrom cls (.str s) t = [.bad] ∨ ∃ b, lexFrom cls (.str s) t = [.str b]
  | _, [], _, _ => .inl rfl
  | [], c :: t, h, _ => absurd h (by simp)
  | c :: q, d :: t, h, s => by
    by_cases hc : c = 39
    · rw [hc, double_cons_self, cons_prefix_cons] at h
      obtain ⟨rfl, h⟩ := h
      cases t with
      | nil => exact .inr ⟨s, rfl⟩
      | cons e t =>
        obtain ⟨he, hrest⟩ := cons_prefix_cons.mp h
        rw [he]
        exact lexFrom_cut hrest (s ++ [39])
    · rw [double_cons_ne hc, cons_prefix_cons] at h
      obtain ⟨rfl, h⟩ := h
      rw [lexFrom_cons, step, if_neg hc]
      exact lexFrom_cut h (s ++ [d])

theorem count_front : (lex .ascii callFront).count (.sym 41) = 0 ∧ (lex .ascii callFront).count (.sym 40) = 1 := by
  decide +kernel

theorem incomplete_cut {q t : List Nat} (h : t <+: double 39 q) :
    Incomplete (lex cls (callFront ++ 78 :: 39 :: t)) := by
  rw [lex_front]
  rcases lexFrom_cut cls h [] with hbad | ⟨b, hstr⟩
  · rw [hbad]
    exact .inl (mem_append_right _ (mem_singleton.mpr rfl))
  · rw [hstr]
    refine .inr ?_
    rw [count_append, count_append, count_front.1, count_front.2]
    exact Nat.lt_succ_self 0

theorem lex_call (q back : List Nat) (hback : ∀ c ∈ back, c < 128) (hhead : back.head? ≠ some 39) :
    lex cls (callFront ++ 78 :: 39 :: (double 39 q ++ 39 :: back)) = lex .ascii callFront ++
      .str q :: lex .ascii back := by
  rw [lex_front, lexFrom_str, readBody_double hhead]
  dsimp only
  rw [lexFrom_ascii cls hback]
  rfl

theorem callBack_cut : ∀ j < 10, (∀ c ∈ callBack.take j, c < 128) ∧ (callBack.take j).head? ≠ some 39 ∧
    (lex .ascii (callBack.take j)).count (.sym 41) = 0 := by decide +kernel

/-- **The statement**: complete, with the query in its literal, as long as the doubled query has at most 34686 units. -/
theorem lex_describeSql (query : List Nat) :
    ((double 39 query).length ≤ 34686 ∧ lex cls (describeSql query) = callTokens query) ∨
      (34686 < (double 39 query).length ∧ Incomplete (lex cls (describeSql query))) := by
  have hfront : callFront.length = 116 := by decide +kernel
  have hback : callBack.length = 10 := by decide
  obtain ⟨hstart, -, hcases⟩ := @wrapLoop_spec query 2 (by decide)
  have hsplit : describeSql query =
      callFront ++ 78 :: 39 :: (wrapLoop 2 query ++ 39 :: callBack).take (34815 - 118) := by
    rw [describeSql, wrapped, take_append, hfront, take_of_length_le (by omega)]
    simp
  rw [hsplit]
  by_cases hcut : 34815 - 118 ≤ (wrapLoop 2 query).length
  · -- the closing quote is cut off
    rw [take_append_of_le_length hcut]
    have hlong := hstart.length_le
    exact .inr ⟨by omega, incomplete_cut cls (( take_prefix _ _).trans hstart)⟩
  · have hwhole : wrapLoop 2 query = double 39 query := hcases.resolve_right (by omega)
    rw [hwhole] at hcut ⊢
    obtain ⟨j, hj⟩ : ∃ j, 34815 - 118 = (double 39 query).length + (j + 1) :=
      ⟨34815 - 118 - (double 39 query).length - 1, by omega⟩
    have htake : (double 39 query ++ 39 :: callBack).take (34815 - 118) = double 39 query ++ 39 :: callBack.take j := by
      rw [hj, take_length_add_append, take_succ_cons]
    rw [htake]
    by_cases hall : 10 ≤ j
    · rw [take_of_length_le (by omega)]
      exact .inl ⟨by omega, lex_call cls query callBack (by decide) (by decide)⟩
    · obtain ⟨hascii, hhead, hcount⟩ := callBack_cut j (by omega)
      rw [lex_call cls query _ hascii hhead]
      refine .inr ⟨by omega, .inr ?_⟩
      rw [count_append, count_append, count_cons, count_cons, count_front.1, count_front.2, hcount]
      simp only [beq_iff_eq, reduceCtorEq, if_false]
      omega

end Lexing

/-- **What the server makes of the statement**: it describes this query, or it takes the statement for incomplete. -/
def Describes (server : CharClass) (sql query : List Nat) : Prop :=
  (∃ body, lex server sql = callTokens body ∧ joined body = query) ∨ Incomplete (lex server sql)

theorem callTokens_complete : ¬ Incomplete (callTokens query) := by
  have hfront : Tok.bad ∉ lex .ascii callFront := by decide +kernel
  have hback : Tok.bad ∉ lex .ascii callBack ∧ (lex .ascii callBack).count (.sym 41) = 1 ∧
      (lex .ascii callBack).count (.sym 40) = 0 := by decide +kernel
  simp [Incomplete, callTokens, count_append, hfront, hback, count_front]

/-- **When the described query is the executed one**: no backslash of it stands before a newline, which the literal
    loses with it, or it is too long to be described at all. -/
theorem describes_iff : (∀ server, Describes server (describeSql query) query) ↔
      ¬ Continued query ∨ 34686 < (double 39 query).length := by
  rw [← joined_eq_self_iff]
  constructor
  · intro h
    rcases lex_describeSql .ascii query with ⟨-, hlex⟩ | ⟨hlong, -⟩
    · rcases h .ascii with ⟨body, hbody, hjoined⟩ | hincomplete
      · have hsame : query = body := by
          have heq := hlex.symm.trans hbody
          exact Tok.str.inj (cons.inj (append_cancel_left heq)).1
        exact .inl (by rw [hsame, hjoined, hsame])
      · rw [hlex] at hincomplete
        exact absurd hincomplete (callTokens_complete query)
    · exact .inr hlong
  · intro h server
    rcases lex_describeSql server query with ⟨hshort, hlex⟩ | ⟨-, hincomplete⟩
    · exact .inl ⟨query, hlex, h.resolve_right (by omega)⟩
    · exact .inr hincomplete

/-- What was prepared and what is given back for execution come from one text. -/
theorem prepared {cls : CharClass} {queryUtf8 : List Nat} {src : VmsQuerySource} {outWchars : Nat} {out : List Nat}
    (hprepare : vmsQuerySourcePrepare cls queryUtf8 = .ok src) (hget : vmsQuerySourceGetSql src outWchars = some out) :
    src.sql = describeSql out ∧ out = utf8ToWide (cstr queryUtf8) := by
  have hsrc : src.sql = describeSql src.query ∧ src.query = utf8ToWide (cstr queryUtf8) := by
    unfold vmsQuerySourcePrepare at hprepare
    split at hprepare
    · exact absurd hprepare nofun
    · rename_i hcopy
      split at hprepare
      · exact absurd hprepare nofun
      · rw [← Except.ok.inj hprepare]
        dsimp only
        exact ⟨rfl, copyWide_some hcopy⟩
  unfold vmsQuerySourceGetSql at hget
  split_ifs at hget
  rwa [← Option.some.inj hget]

/-- **The described query is the executed query**, of an accepted query, exactly if no backslash stands before a
    newline in it or the statement is incomplete; and no write leaves the buffers. -/
theorem described_is_executed_iff {cls : CharClass} {queryUtf8 : List Nat} {src : VmsQuerySource} {outWchars : Nat}
    {out : List Nat} (hprepare : vmsQuerySourcePrepare cls queryUtf8 = .ok src)
    (hget : vmsQuerySourceGetSql src outWchars = some out) :
    ((∀ server, Describes server src.sql out) ↔ ¬ Continued (utf8ToWide (cstr queryUtf8)) ∨
        34686 < (double 39 (utf8ToWide (cstr queryUtf8))).length) ∧
      (wrapped out).length + 1 ≤ 34816 ∧ (execSql out).length + 1 ≤ 34816 ∧ src.sql.length + 1 ≤ 34816 := by
  obtain ⟨hsql, hquery⟩ := prepared hprepare hget
  rw [hsql, ← hquery]
  exact ⟨describes_iff out, buffers_hold out⟩

theorem described_is_executed_quoted :
    vmsQuerySourcePrepare .ascii (wide "SELECT N'it''s'") =
        .ok ⟨describeSql (wide "SELECT N'it''s'"), wide "SELECT N'it''s'"⟩ ∧
      ∀ server, Describes server (describeSql (wide "SELECT N'it''s'")) (wide "SELECT N'it''s'") := by
  have hprepare : vmsQuerySourcePrepare .ascii (wide "SELECT N'it''s'") =
      .ok ⟨describeSql (wide "SELECT N'it''s'"), wide "SELECT N'it''s'"⟩ := by rfl
  have hget : vmsQuerySourceGetSql ⟨describeSql (wide "SELECT N'it''s'"), wide "SELECT N'it''s'"⟩ 32768 =
      some (wide "SELECT N'it''s'") := if_neg (by decide)
  have hresult := (described_is_executed_iff hprepare hget).1
  dsimp only at hresult
  exact ⟨hprepare, hresult.mpr (.inl ((joined_eq_self_iff _).mp (by decide +kernel)))⟩

/-- Two columns, the second behind a comment that ends in a backslash. -/
def continuedQuery : List Nat := wide "SELECT 1 AS a --\\\x0d\n, 2 AS b"

/-- **The literal loses the newline**: with it the comment goes on, and one column is described where the execution
    has two. -/
theorem described_is_other : vmsQuerySourcePrepare .ascii continuedQuery =
        .ok ⟨describeSql continuedQuery, continuedQuery⟩ ∧
      lex .ascii (describeSql continuedQuery) = callTokens continuedQuery ∧
      joined continuedQuery = wide "SELECT 1 AS a --, 2 AS b" ∧
      ¬ ∀ server, Describes server (describeSql continuedQuery) continuedQuery := by
  have hshort : ¬ 34686 < (double 39 continuedQuery).length := by decide
  have hcopy : copyWide (cstr continuedQuery) 32768 = some continuedQuery := by decide +kernel
  have hvalid : vmsTsqlValidateQuery .ascii continuedQuery = .ok () := by rfl
  refine ⟨by rw [vmsQuerySourcePrepare, hcopy]; dsimp only; rw [hvalid], ?_, by decide, fun h => ?_⟩
  · exact ((lex_describeSql .ascii continuedQuery).resolve_right fun h => hshort h.1).2
  · have hplain := ((describes_iff continuedQuery).mp h).resolve_right hshort
    exact absurd ((joined_eq_self_iff _).mpr hplain) (by decide)

end VirtualMssql.QuerySource
