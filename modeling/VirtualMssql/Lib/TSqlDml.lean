/-
  INSERT, UPDATE, DELETE — the three statements that write rows, over any type of values.

  A statement is a table, and columns with values: the row of an INSERT, the assignments of an UPDATE, the
  equalities that name the row of an UPDATE or a DELETE.  Names are printed in brackets, values as literals
  of whatever text and tokens their type has.  `lex_dml` reduces the reading of the whole statement to that
  of its values: each literal has to lex to its tokens by itself and to be closed by a blank, a comma or a
  parenthesis (`Literal`).  The literals of numbers, texts and NULL are (`literal_num`, `literal_str`,
  `literal_null`).
-/
import VirtualMssql.Lib.TSqlPrint

namespace VirtualMssql.TSql

open Delimited List

/-! ## Statements -/

/-- A statement that writes; columns come with their values. -/
inductive Dml (V : Type)
  | insert (schema table : List Nat) (row : List (List Nat × V))
  | update (schema table : List Nat) (sets keys : List (List Nat × V))
  | delete (schema table : List Nat) (keys : List (List Nat × V))
  deriving DecidableEq

namespace Dml

variable {V : Type}

/-- Every column that is written or compared, with its value. -/
def cells : Dml V → List (List Nat × V)
  | .insert _ _ row => row
  | .update _ _ sets keys => sets ++ keys
  | .delete _ _ keys => keys

/-- The equalities that name the row. -/
def keyCells : Dml V → List (List Nat × V)
  | .insert _ _ _ => []
  | .update _ _ _ keys => keys
  | .delete _ _ keys => keys

def names : Dml V → List (List Nat)
  | .insert schema table row => [schema, table] ++ row.map Prod.fst
  | .update schema table sets keys => [schema, table] ++ (sets ++ keys).map Prod.fst
  | .delete schema table keys => [schema, table] ++ keys.map Prod.fst

section Print

variable (text : V → List Nat) (toks : V → List Tok)

def tableSegs (schema table : List Nat) : List Seg := [.name schema, .text (wide "."), .name table]

def eqSegs (c : List Nat × V) : List Seg := [.name c.1, .text (wide " = "), .text (text c.2)]

/-- **The pieces of a statement.** -/
def segs : Dml V → List Seg
  | .insert schema table row =>
    .text (wide "INSERT INTO ") :: (tableSegs schema table ++
      .text (wide " (") :: (joinSegs (wide ", ") (row.map fun c => [.name c.1]) ++
      .text (wide ") VALUES (") :: (joinSegs (wide ", ") (row.map fun c => [.text (text c.2)]) ++
      [.text (wide ")")])))
  | .update schema table sets keys =>
    .text (wide "UPDATE ") :: (tableSegs schema table ++
      .text (wide " SET ") :: (joinSegs (wide ", ") (sets.map (eqSegs text)) ++
      .text (wide " WHERE ") :: joinSegs (wide " AND ") (keys.map (eqSegs text))))
  | .delete schema table keys =>
    .text (wide "DELETE FROM ") :: (tableSegs schema table ++
      .text (wide " WHERE ") :: joinSegs (wide " AND ") (keys.map (eqSegs text)))

def render (s : Dml V) : List Nat := renderSegs (s.segs text)

def tableToks (schema table : List Nat) : List Tok := [.quoted schema, .sym 46, .quoted table]

def eqToks (c : List Nat × V) : List Tok := .quoted c.1 :: .sym 61 :: toks c.2

/-- **The tokens of a statement**: one equality for each assignment and each key column. -/
def tokens : Dml V → List Tok
  | .insert schema table row =>
    [kw "INSERT", kw "INTO"] ++ tableToks schema table ++ [.sym 40] ++
      joinToks (.sym 44) (row.map fun c => [.quoted c.1]) ++ [.sym 41, kw "VALUES", .sym 40] ++
      joinToks (.sym 44) (row.map fun c => toks c.2) ++ [.sym 41]
  | .update schema table sets keys =>
    [kw "UPDATE"] ++ tableToks schema table ++ [kw "SET"] ++
      joinToks (.sym 44) (sets.map (eqToks toks)) ++ [kw "WHERE"] ++
      joinToks (kw "AND") (keys.map (eqToks toks))
  | .delete schema table keys =>
    [kw "DELETE", kw "FROM"] ++ tableToks schema table ++ [kw "WHERE"] ++
      joinToks (kw "AND") (keys.map (eqToks toks))

end Print

end Dml

/-! ## Literals -/

/-- A blank, a comma or a closing parenthesis. -/
def Stop (c : Nat) : Prop := c = 32 ∨ c = 44 ∨ c = 41

/-- The text is a literal: by itself it lexes to the tokens, and what may follow it closes it. -/
structure Literal (t : List Nat) (toks : List Tok) : Prop where
  lexes : lex .ascii t = toks
  closed : ∀ c, Stop c → Quits (endMode t) c

variable {t : List Nat}

/-- A text that is run through without a token, to a mode that waits for its end. -/
theorem Literal.of_run {m : Mode} {l : List Tok} (h : runPrefix .ascii .start t = (l, m))
    (hm : ∀ c, Stop c → Quits m c) : Literal t (l ++ finish m) := by
  constructor
  · have hlex := lexFrom_of_run .ascii h []
    rwa [append_nil] at hlex
  · rw [endMode, h]
    exact hm

theorem literal_null : Literal (wide "NULL") [kw "NULL"] :=
  Literal.of_run (l := []) (m := .word (wide "NULL")) (by decide) (by rintro c (rfl | rfl | rfl) <;> decide)

/-- **A quoted text**, with its quotes doubled. -/
def strText (s : List Nat) : List Nat := wide "N'" ++ (double 39 s ++ wide "'")

theorem literal_str (s : List Nat) : Literal (strText s) [.str s] := by
  have hopen : runPrefix .ascii .start (wide "N'") = ([], .str []) := by decide
  have hbody : runPrefix .ascii (.str []) (double 39 s) = ([], .str s) := runPrefix_str_double .ascii s []
  have hclose : runPrefix .ascii (.str s) (wide "'") = ([], .strQ s) := rfl
  have hrun := runPrefix_of_runs .ascii hopen (runPrefix_of_runs .ascii hbody hclose)
  refine Literal.of_run hrun ?_
  rintro c (rfl | rfl | rfl) <;> rfl

/-- Digits, perhaps a point and digits, perhaps an exponent with its sign. -/
def Numeral (t : List Nat) : Prop := ∃ whole frac exp, t = whole ++ (frac ++ exp) ∧ whole ≠ [] ∧
  (∀ c ∈ whole, asciiDigit c = true) ∧
  (frac = [] ∨ ∃ ds, frac = 46 :: ds ∧ ∀ c ∈ ds, asciiDigit c = true) ∧
  (exp = [] ∨ ∃ sign ds, exp = 101 :: sign :: ds ∧ (sign = 43 ∨ sign = 45) ∧
    ∀ c ∈ ds, asciiDigit c = true)

/-- Digits leave these states of a number for one of them. -/
theorem runPrefix_digits {K : NumState → Prop}
    (hK : ∀ k c, K k → asciiDigit c = true → ∃ k', K k' ∧ numNext .ascii k c = some k') :
    ∀ (ds : List Nat) {k : NumState} {s : List Nat}, K k → (∀ c ∈ ds, asciiDigit c = true) →
      ∃ k', K k' ∧ runPrefix .ascii (.num k s) ds = ([], .num k' (s ++ ds))
  | [], k, s, hk, _ => ⟨k, hk, by simp [runPrefix]⟩
  | d :: ds, k, s, hk, hds => by
    obtain ⟨k₁, hk₁, hnext⟩ := hK k d hk (hds d mem_cons_self)
    obtain ⟨k', hk', hrun⟩ := runPrefix_digits hK ds (s := s ++ [d]) hk₁ (forall_mem_cons.mp hds).2
    refine ⟨k', hk', ?_⟩
    have hstep : step .ascii (.num k s) d = ([], .num k₁ (s ++ [d])) := by simp [step, hnext]
    rw [runPrefix, hstep, hrun]
    simp

variable {c : Nat}

theorem numNext_stop (k : NumState) (hc : Stop c) : numNext .ascii k c = none := by
  rcases hc with rfl | rfl | rfl <;> cases k <;> decide

/-- A digit that is no letter of a hexadecimal prefix. -/
theorem digit_bounds (h : asciiDigit c = true) : 48 ≤ c ∧ c ≤ 57 := by
  simpa [asciiDigit] using h

/-- A digit is taken in every state of a decimal number. -/
theorem numNext_digit {k : NumState} (hk : k ≠ .hex) (hc : asciiDigit c = true) :
    numNext .ascii k c = some (match k with | .zero => .int | .exp0 => .exp | k => k) := by
  have hb := digit_bounds hc
  have hdigit : CharClass.ascii.digit c = true := hc
  have hx : ¬ (c = 120 ∨ c = 88) := by omega
  cases k with
  | hex => exact absurd rfl hk
  | _ => simp [numNext, hdigit, hx]

/-- **A number** is run through as a number. -/
theorem runPrefix_numeral (h : Numeral t) :
    ∃ k, runPrefix .ascii .start t = ([], .num k t) ∧ ∃ d ds, t = d :: ds ∧ asciiDigit d = true := by
  obtain ⟨whole, frac, exp, rfl, hne, hwhole, hfrac, hexp⟩ := h
  obtain ⟨d, ds, rfl⟩ := exists_cons_of_ne_nil hne
  have hd := hwhole d mem_cons_self
  have hds : ∀ c ∈ ds, asciiDigit c = true := (forall_mem_cons.mp hwhole).2
  -- the first digit opens the number
  have hopen : ∃ k, (k = .zero ∨ k = .int) ∧ step .ascii .start d = ([], .num k [d]) := by
    have hb := digit_bounds hd
    refine ⟨if d = 48 then .zero else .int, by split_ifs <;> simp, ?_⟩
    have hspace : CharClass.ascii.space d = false := CharClass.ascii.digit_not_space d hd
    have hdigit : CharClass.ascii.digit d = true := hd
    simp only [step, opening, hspace, hdigit, Bool.false_eq_true, if_false, if_true]
    rw [if_neg (by omega), if_neg (by omega), if_neg (by omega), if_neg (by omega), if_neg (by omega)]
  obtain ⟨k₀, hk₀, hstep⟩ := hopen
  obtain ⟨k₁, hk₁, hrun₁⟩ := runPrefix_digits (K := fun k => k = .zero ∨ k = .int) (by
      rintro k c (rfl | rfl) hc
      all_goals exact ⟨.int, .inr rfl, numNext_digit (by decide) hc⟩) ds (s := [d]) hk₀ hds
  have hwholeRun : runPrefix .ascii .start (d :: ds) = ([], .num k₁ (d :: ds)) := by
    rw [runPrefix, hstep, hrun₁]
    rfl
  -- then the fraction
  have hfracRun : ∃ k₂, (k₂ = .zero ∨ k₂ = .int ∨ k₂ = .frac) ∧
      runPrefix .ascii (.num k₁ (d :: ds)) frac = ([], .num k₂ (d :: ds ++ frac)) := by
    rcases hfrac with rfl | ⟨fs, rfl, hfs⟩
    · exact ⟨k₁, hk₁.imp_right .inl, by simp [runPrefix]⟩
    · obtain ⟨k₂, rfl, hrun⟩ := runPrefix_digits (K := fun k => k = .frac) (by
          rintro k c rfl hc
          exact ⟨.frac, rfl, numNext_digit (by decide) hc⟩) fs (s := d :: ds ++ [46]) rfl hfs
      have hpoint : step .ascii (.num k₁ (d :: ds)) 46 = ([], .num .frac (d :: ds ++ [46])) := by
        rcases hk₁ with rfl | rfl <;> rfl
      refine ⟨.frac, .inr (.inr rfl), ?_⟩
      rw [runPrefix, hpoint, hrun]
      simp
  obtain ⟨k₂, hk₂, hrun₂⟩ := hfracRun
  -- and the exponent
  have hexpRun : ∃ k₃, runPrefix .ascii (.num k₂ (d :: ds ++ frac)) exp = ([], .num k₃ (d :: ds ++ frac ++ exp)) := by
    rcases hexp with rfl | ⟨sign, es, rfl, hsign, hes⟩
    · exact ⟨k₂, by simp [runPrefix]⟩
    · obtain ⟨k₃, rfl, hrun⟩ := runPrefix_digits (K := fun k => k = .exp) (by
          rintro k c rfl hc
          exact ⟨.exp, rfl, numNext_digit (by decide) hc⟩) es (s := d :: ds ++ frac ++ [101] ++ [sign]) rfl hes
      have he : step .ascii (.num k₂ (d :: ds ++ frac)) 101 = ([], .num .exp0 (d :: ds ++ frac ++ [101])) := by
        rcases hk₂ with rfl | rfl | rfl <;> rfl
      have hs : step .ascii (.num .exp0 (d :: ds ++ frac ++ [101])) sign =
          ([], .num .exp (d :: ds ++ frac ++ [101] ++ [sign])) := by
        rcases hsign with rfl | rfl <;> rfl
      refine ⟨.exp, ?_⟩
      rw [runPrefix, he, runPrefix, hs, hrun]
      simp
  obtain ⟨k₃, hrun₃⟩ := hexpRun
  refine ⟨k₃, ?_, d, ds ++ (frac ++ exp), rfl, hd⟩
  have hall := runPrefix_of_runs .ascii hwholeRun (runPrefix_of_runs .ascii hrun₂ hrun₃)
  simpa using hall

/-- A number with an optional minus, as tokens. -/
def numToks : List Nat → List Tok
  | 45 :: t => [.sym 45, .num t]
  | t => [.num t]

theorem quits_num (k : NumState) (s : List Nat) (hc : Stop c) : Quits (.num k s) c := by
  simp only [Quits, step, numNext_stop k hc]
  rfl

theorem literal_num (h : Numeral t) : Literal t (numToks t) := by
  obtain ⟨k, hrun, d, ds, rfl, hd⟩ := runPrefix_numeral h
  have hb := digit_bounds hd
  have htoks : numToks (d :: ds) = [.num (d :: ds)] := by
    unfold numToks
    split
    · rename_i heq
      injection heq with h45
      omega
    · rfl
  rw [htoks]
  exact Literal.of_run hrun fun c hc => quits_num k _ hc

/-- A number with a minus in front. -/
theorem literal_neg (h : Numeral t) : Literal (45 :: t) (numToks (45 :: t)) := by
  obtain ⟨k, hrun, d, ds, rfl, hd⟩ := runPrefix_numeral h
  have hb := digit_bounds hd
  have hdash : step .ascii .dash d = (.sym 45 :: (opening .ascii d).1, (opening .ascii d).2) := by
    rw [step, if_neg (by omega), closing]
  have hrun' : runPrefix .ascii .start (45 :: d :: ds) = ([.sym 45], .num k (d :: ds)) := by
    have hminus : step .ascii .start 45 = ([], .dash) := by decide
    rw [runPrefix] at hrun
    have hfst := congrArg Prod.fst hrun
    have hsnd := congrArg Prod.snd hrun
    rw [runPrefix, hminus, runPrefix, hdash]
    simp only [step] at hfst hsnd
    simp [hfst, hsnd]
  exact Literal.of_run hrun' fun c hc => quits_num k _ hc

/-! ## Reading a statement -/

namespace Dml

variable {V : Type} {text : V → List Nat} {toks : V → List Tok}

/-- What may follow a literal or a name. -/
def Follows (rest : List Seg) : Prop := SegsOk rest ∧ ∀ c, (renderSegs rest).head? = some c → Stop c

theorem Follows.nil : Follows [] := ⟨trivial, by simp [renderSegs]⟩

variable {rest : List Seg}

theorem follows_text {s : List Nat} (h : SegsOk (.text s :: rest)) (hs : s.head? = some c)
    (hc : Stop c) : Follows (.text s :: rest) := by
  refine ⟨h, fun d hd => ?_⟩
  have hrender : (renderSegs (.text s :: rest)).head? = some c := by
    cases s with
    | nil => simp at hs
    | cons x xs => simpa [renderSegs, Seg.render] using hs
  rw [hrender] at hd
  rwa [← Option.some.inj hd]

theorem Follows.name {n : List Nat} {rest : List Seg} (h : Follows rest) : SegsOk (.name n :: rest) := by
  refine ⟨fun hc => ?_, h.1⟩
  rcases h.2 93 hc with h | h | h <;> cases h

theorem Follows.literal {ts : List Tok} (h : Follows rest) (ht : Literal t ts) : SegsOk (.text t :: rest) :=
  ⟨fun c hc => ht.closed c (h.2 c hc), h.1⟩

theorem segsOk_table {schema table : List Nat} (h : Follows rest) : SegsOk (tableSegs schema table ++ rest) :=
  segsOk_name_text ⟨fun c hc => by
    have h91 : c = 91 := by simpa [renderSegs, Seg.render] using hc.symm
    rw [h91]; decide, h.name⟩ (by decide) (by decide)

theorem segsOk_eq {c : List Nat × V} (hc : Literal (text c.2) (toks c.2)) (h : Follows rest) :
    SegsOk (eqSegs text c ++ rest) :=
  segsOk_name_text ((h.literal hc).open (by decide)) (by decide) (by decide)

theorem follows_comma (h : SegsOk rest) : Follows (.text (wide ", ") :: rest) :=
  follows_text (c := 44) (h.open (by decide)) (by decide) (.inr (.inl rfl))

theorem follows_and (h : SegsOk rest) : Follows (.text (wide " AND ") :: rest) :=
  follows_text (c := 32) (h.open (by decide)) (by decide) (.inl rfl)

theorem segsOk_keys {keys : List (List Nat × V)} (h : ∀ c ∈ keys, Literal (text c.2) (toks c.2)) :
    SegsOk (joinSegs (wide " AND ") (keys.map (eqSegs text))) := by
  have hlist := segsOk_joinSegs_of (fun _ => follows_and) Follows.nil.1 Follows.nil keys
    fun c hc rest hrest => segsOk_eq (h c hc) hrest
  rwa [append_nil] at hlist

theorem segsOk_sets {sets : List (List Nat × V)} (h : ∀ c ∈ sets, Literal (text c.2) (toks c.2))
    (hrest : Follows rest) : SegsOk (joinSegs (wide ", ") (sets.map (eqSegs text)) ++ rest) :=
  segsOk_joinSegs_of (fun _ => follows_comma) hrest.1 hrest sets fun c hc _ hrest => segsOk_eq (h c hc) hrest

theorem segsOk_dml (s : Dml V) (h : ∀ c ∈ s.cells, Literal (text c.2) (toks c.2)) : SegsOk (s.segs text) := by
  cases s with
  | insert schema table row =>
    have hclose : Follows [.text (wide ")")] :=
      follows_text (c := 41) (SegsOk.open trivial (by decide)) (by decide) (.inr (.inr rfl))
    have hvalues := segsOk_joinSegs_of (g := fun c : List Nat × V => [.text (text c.2)])
      (fun _ => follows_comma) hclose.1 hclose row fun c hc _ hrest => hrest.literal (h c hc)
    have hmiddle := follows_text (hvalues.open (t := wide ") VALUES (") (by decide)) (c := 41) (by decide)
      (.inr (.inr rfl))
    have hnames := segsOk_joinSegs_of (g := fun c : List Nat × V => [.name c.1])
      (fun _ => follows_comma) hmiddle.1 hmiddle row fun c _ _ hrest => hrest.name
    have hlist := follows_text (hnames.open (t := wide " (") (by decide)) (c := 32) (by decide) (.inl rfl)
    exact (segsOk_table hlist).open (by decide)
  | update schema table sets keys =>
    have hkeys := segsOk_keys fun c hc => h c (mem_append_right _ hc)
    have hwhere := follows_text (hkeys.open (t := wide " WHERE ") (by decide)) (c := 32) (by decide) (.inl rfl)
    have hsets := segsOk_sets (fun c hc => h c (mem_append_left _ hc)) hwhere
    have hset := follows_text (hsets.open (t := wide " SET ") (by decide)) (c := 32) (by decide) (.inl rfl)
    exact (segsOk_table hset).open (by decide)
  | delete schema table keys =>
    have hkeys := segsOk_keys h
    have hwhere := follows_text (hkeys.open (t := wide " WHERE ") (by decide)) (c := 32) (by decide) (.inl rfl)
    exact (segsOk_table hwhere).open (by decide)

/-- Each cell prints to pieces with the tokens of the cell. -/
theorem tokenSegs_cells {l : List (List Nat × V)} {g : List Nat × V → List Seg}
    {f : List Nat × V → List Tok} (h : ∀ c ∈ l, tokenSegs (g c) = f c) {sep : List Nat} {t : Tok}
    (hsep : lex .ascii sep = [t]) : tokenSegs (joinSegs sep (l.map g)) = joinToks t (l.map f) := by
  rw [tokenSegs_joinSegs hsep, map_map]
  exact congrArg (joinToks t) (map_congr_left h)

theorem tokenSegs_eq {c : List Nat × V} (h : Literal (text c.2) (toks c.2)) :
    tokenSegs (eqSegs text c) = eqToks toks c := by
  have heq : lex .ascii (wide " = ") = [.sym 61] := by decide
  simp only [eqSegs, tokenSegs_cons, Seg.tokens, heq, h.lexes]
  simp [tokenSegs, eqToks]

theorem tokenSegs_dml (s : Dml V) (h : ∀ c ∈ s.cells, Literal (text c.2) (toks c.2)) :
    tokenSegs (s.segs text) = s.tokens toks := by
  have hdot : lex .ascii (wide ".") = [.sym 46] := by decide
  have hand : lex .ascii (wide " AND ") = [kw "AND"] := by decide
  have hwhere : lex .ascii (wide " WHERE ") = [kw "WHERE"] := by decide
  cases s with
  | insert schema table row =>
    have hinsert : lex .ascii (wide "INSERT INTO ") = [kw "INSERT", kw "INTO"] := by decide
    have hopen : lex .ascii (wide " (") = [.sym 40] := by decide
    have hvalues : lex .ascii (wide ") VALUES (") = [.sym 41, kw "VALUES", .sym 40] := by decide
    have hclose : lex .ascii (wide ")") = [.sym 41] := by decide
    have hnames := tokenSegs_cells (l := row) (g := fun c => [.name c.1]) (f := fun c => [.quoted c.1])
      (fun c _ => rfl) lex_comma
    have hcells := tokenSegs_cells (l := row) (g := fun c => [.text (text c.2)]) (f := fun c => toks c.2)
      (fun c hc => by simp [tokenSegs, Seg.tokens, (h c hc).lexes]) lex_comma
    simp only [segs, tableSegs, tokenSegs_cons, tokenSegs_append, Seg.tokens, hinsert, hdot, hopen, hvalues,
      hclose, hnames, hcells, tokens, tableToks]
    simp [tokenSegs]
  | update schema table sets keys =>
    have hupdate : lex .ascii (wide "UPDATE ") = [kw "UPDATE"] := by decide
    have hset : lex .ascii (wide " SET ") = [kw "SET"] := by decide
    have hsets := tokenSegs_cells (fun c hc => tokenSegs_eq (h c (mem_append_left _ hc))) lex_comma
    have hkeys := tokenSegs_cells (fun c hc => tokenSegs_eq (h c (mem_append_right _ hc))) hand
    simp only [segs, tableSegs, tokenSegs_cons, tokenSegs_append, Seg.tokens, hupdate, hdot, hset, hwhere,
      hsets, hkeys, tokens, tableToks]
    simp [tokenSegs]
  | delete schema table keys =>
    have hdelete : lex .ascii (wide "DELETE FROM ") = [kw "DELETE", kw "FROM"] := by decide
    have hkeys := tokenSegs_cells (l := keys) (fun c hc => tokenSegs_eq (h c hc)) hand
    simp only [segs, tableSegs, tokenSegs_cons, tokenSegs_append, Seg.tokens, hdelete, hdot, hwhere, hkeys,
      tokens, tableToks]
    simp [tokenSegs]

theorem name_mem_segs (s : Dml V) {n : List Nat} (h : .name n ∈ s.segs text) : n ∈ s.names := by
  cases s <;>
    simpa [segs, tableSegs, eqSegs, names, name_mem_joinSegs, eq_comm, or_assoc] using h

/-- **A printed statement is read as the statement**: its names have no closing bracket and its values are
    literals. -/
theorem lex_dml (s : Dml V) (hcells : ∀ c ∈ s.cells, Literal (text c.2) (toks c.2))
    (hnames : ∀ n ∈ s.names, 93 ∉ n) : lex .ascii (s.render text) = s.tokens toks := by
  rw [render, ← tokenSegs_dml s hcells]
  exact (lex_segs_iff _ (segsOk_dml s hcells)).mpr fun n hn => hnames n (name_mem_segs s hn)

end Dml

end VirtualMssql.TSql
