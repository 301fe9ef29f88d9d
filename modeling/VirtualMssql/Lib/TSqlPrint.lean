/-
  PRINTED STATEMENTS — the text of a SELECT, with every name in brackets and nothing escaped.

  `lex_segs` is what the printing is worth: the text lexes to the tokens of the statement if and only if
  no name in it contains a closing bracket.  Each clause starts with a blank and each item ends before a
  blank or a comma; that is the whole argument (`Tail`), made clause by clause from the end of the text.
-/
import VirtualMssql.Lib.TSqlText
import VirtualMssql.Lib.TSqlSelect

namespace VirtualMssql.TSql

open List

/-! ## The pieces -/

/-- Lists of pieces with a separator between them. -/
def joinSegs (sep : List Nat) : List (List Seg) → List Seg
  | [] => []
  | [a] => a
  | a :: b :: l => a ++ .text sep :: joinSegs sep (b :: l)

def Method.text : Method → List Nat
  | .stAsText => wide ".STAsText()"
  | .stAsBinary => wide ".STAsBinary()"

def castText (big : Bool) : List Nat :=
  if big then wide " AS nvarchar(max))" else wide " AS nvarchar(4000))"

def CmpOp.text : CmpOp → List Nat
  | .eq => wide " = ?"
  | .lt => wide " < ?"
  | .le => wide " <= ?"
  | .gt => wide " > ?"
  | .ge => wide " >= ?"

def Proj.segs : Proj → List Seg
  | .star => [.text (wide "*")]
  | .column n => [.name n]
  | .method n m => [.name n, .text m.text]
  | .cast n big => [.text (wide "CAST("), .name n, .text (castText big)]

def Cond.segs : Cond → List Seg
  | .never => [.text (wide "1 = 0")]
  | .compare n op => [.name n, .text op.text]
  | .isNull n => [.name n, .text (wide " IS NULL")]
  | .isNotNull n => [.name n, .text (wide " IS NOT NULL")]

def orderSegs (o : List Nat × Bool) : List Seg :=
  .name o.1 :: (if o.2 then [.text (wide " DESC")] else [])

def Page.segs : Page → List Seg
  | .all => []
  | .first => [.text (wide " OFFSET 0 ROWS FETCH NEXT ? ROWS ONLY")]
  | .window => [.text (wide " OFFSET ? ROWS FETCH NEXT ? ROWS ONLY")]

def topSegs (top : Bool) : List Seg := if top then [.text (wide "TOP (?) ")] else []

def whereSegs (conds : List Cond) : List Seg :=
  if conds = [] then [] else .text (wide " WHERE ") :: joinSegs (wide " AND ") (conds.map Cond.segs)

def orderBySegs (order : List (List Nat × Bool)) : List Seg :=
  if order = [] then []
  else .text (wide " ORDER BY ") :: joinSegs (wide ", ") (order.map orderSegs)

/-- **The pieces of a statement.** -/
def Select.segs (s : Select) : List Seg :=
  .text (wide "SELECT ") :: (topSegs s.top ++ (joinSegs (wide ", ") (s.cols.map Proj.segs) ++
    (.text (wide " FROM ") :: .name s.schema :: .text (wide ".") :: .name s.table ::
      (whereSegs s.conds ++ (orderBySegs s.order ++ s.page.segs)))))

/-! ## Their tokens -/

theorem tokenSegs_append (a b : List Seg) : tokenSegs (a ++ b) = tokenSegs a ++ tokenSegs b := flatMap_append

theorem tokenSegs_cons (x : Seg) (l : List Seg) : tokenSegs (x :: l) = x.tokens ++ tokenSegs l := flatMap_cons

theorem renderSegs_nil : renderSegs [] = [] := rfl

theorem renderSegs_append (a b : List Seg) : renderSegs (a ++ b) = renderSegs a ++ renderSegs b := flatMap_append

theorem renderSegs_cons (x : Seg) (l : List Seg) : renderSegs (x :: l) = x.render ++ renderSegs l := flatMap_cons

theorem tokenSegs_joinSegs {sep : List Nat} {t : Tok} (h : lex .ascii sep = [t]) :
    ∀ l : List (List Seg), tokenSegs (joinSegs sep l) = joinToks t (l.map tokenSegs)
  | [] => rfl
  | [a] => rfl
  | a :: b :: l => by
    have ih := tokenSegs_joinSegs h (b :: l)
    rw [joinSegs, tokenSegs_append, tokenSegs_cons, ih, Seg.tokens, h]
    rfl

theorem tokenSegs_proj (p : Proj) : tokenSegs p.segs = p.toks := by
  cases p with
  | star => decide
  | column n => rfl
  | method n m =>
    have hm : ∀ m : Method, lex .ascii m.text = [.sym 46, m.tok, .sym 40, .sym 41] := by
      rintro (_ | _) <;> decide
    simp only [Proj.segs, tokenSegs_cons, Seg.tokens, hm]
    rfl
  | cast n big =>
    have hopen : lex .ascii (wide "CAST(") = [kw "CAST", .sym 40] := by decide
    have hclose : ∀ big : Bool, lex .ascii (castText big) =
        [kw "AS", kw "nvarchar", .sym 40, lengthTok big, .sym 41, .sym 41] := by decide
    simp only [Proj.segs, tokenSegs_cons, Seg.tokens, hopen, hclose]
    rfl

theorem tokenSegs_cond (c : Cond) : tokenSegs c.segs = c.toks := by
  cases c with
  | never => decide
  | compare n op =>
    have hop : ∀ op : CmpOp, lex .ascii op.text = op.toks ++ [Tok.sym 63] := by
      rintro (_ | _ | _ | _ | _) <;> decide
    simp only [Cond.segs, tokenSegs_cons, Seg.tokens, hop]
    simp [Cond.toks, tokenSegs]
  | isNull n =>
    have hnull : lex .ascii (wide " IS NULL") = [kw "IS", kw "NULL"] := by decide
    simp only [Cond.segs, tokenSegs_cons, Seg.tokens, hnull]
    rfl
  | isNotNull n =>
    have hnull : lex .ascii (wide " IS NOT NULL") = [kw "IS", kw "NOT", kw "NULL"] := by
      decide
    simp only [Cond.segs, tokenSegs_cons, Seg.tokens, hnull]
    rfl

theorem tokenSegs_order (o : List Nat × Bool) : tokenSegs (orderSegs o) = orderToks o := by
  obtain ⟨n, desc⟩ := o
  cases desc with
  | false => rfl
  | true =>
    have hdesc : lex .ascii (wide " DESC") = [kw "DESC"] := by decide
    simp only [orderSegs, if_true, tokenSegs_cons, Seg.tokens, hdesc]
    rfl

theorem tokenSegs_where (conds : List Cond) : tokenSegs (whereSegs conds) = whereToks conds := by
  have hwhere : lex .ascii (wide " WHERE ") = [kw "WHERE"] := by decide
  have hand : lex .ascii (wide " AND ") = [kw "AND"] := by decide
  have hmap : tokenSegs ∘ Cond.segs = Cond.toks := funext tokenSegs_cond
  rw [whereSegs, whereToks]
  split_ifs
  · rfl
  · rw [tokenSegs_cons, tokenSegs_joinSegs hand, map_map, hmap, Seg.tokens, hwhere]
    rfl

theorem lex_comma : lex .ascii (wide ", ") = [.sym 44] := by decide

theorem tokenSegs_orderBy (order : List (List Nat × Bool)) : tokenSegs (orderBySegs order) = orderByToks order := by
  have horder : lex .ascii (wide " ORDER BY ") = [kw "ORDER", kw "BY"] := by decide
  have hmap : tokenSegs ∘ orderSegs = orderToks := funext tokenSegs_order
  rw [orderBySegs, orderByToks]
  split_ifs
  · rfl
  · rw [tokenSegs_cons, tokenSegs_joinSegs lex_comma, map_map, hmap, Seg.tokens, horder]
    rfl

theorem tokenSegs_page (page : Page) : tokenSegs page.segs = page.toks := by
  cases page <;> decide

theorem tokenSegs_top (top : Bool) : tokenSegs (topSegs top) = topToks top := by
  cases top <;> decide

variable {rest : List Seg} {n : List Nat}

/-- **The pieces are the tokens of the statement.** -/
theorem tokenSegs_select (s : Select) : tokenSegs s.segs = s.toks := by
  have hselect : lex .ascii (wide "SELECT ") = [kw "SELECT"] := by decide
  have hfrom : lex .ascii (wide " FROM ") = [kw "FROM"] := by decide
  have hdot : lex .ascii (wide ".") = [.sym 46] := by decide
  have hmap : tokenSegs ∘ Proj.segs = Proj.toks := funext tokenSegs_proj
  simp only [Select.segs, tokenSegs_cons, tokenSegs_append, tokenSegs_top,
    tokenSegs_joinSegs lex_comma, map_map, hmap, tokenSegs_where, tokenSegs_orderBy,
    tokenSegs_page, Seg.tokens, hselect, hfrom, hdot]
  rfl

/-! ## Every piece is closed by what follows it -/

theorem tail_text {s : String} (h : SegsOk (.text (wide s) :: rest))
    (hs : (wide s).head? = some 32 ∨ (wide s).head? = some 44) : Tail (.text (wide s) :: rest) := by
  cases hw : wide s with
  | nil => rw [hw] at hs; simp at hs
  | cons c t =>
    rw [hw] at h hs
    exact h.tail (by simpa using hs)

theorem segsOk_name_text {s : List Nat} (h : SegsOk (.text s :: rest)) (hs : s ≠ []) (hc : s.head? ≠ some 93) :
    SegsOk (.name n :: .text s :: rest) := by
  cases s with
  | nil => exact absurd rfl hs
  | cons c t => exact h.name (by simpa using hc)

theorem segsOk_proj (p : Proj) (h : Tail rest) : SegsOk (p.segs ++ rest) := by
  cases p with
  | star => exact h.closed (by decide)
  | column n => exact h.name
  | method n m =>
    cases m <;> exact segsOk_name_text (h.closed (by decide)) (by decide) (by decide)
  | cast n big =>
    refine SegsOk.open ?_ (by decide)
    cases big <;> exact segsOk_name_text (h.closed (by decide)) (by decide) (by decide)

theorem segsOk_cond (c : Cond) (h : Tail rest) : SegsOk (c.segs ++ rest) := by
  cases c with
  | never => exact h.closed (by decide)
  | compare n op =>
    cases op <;> exact segsOk_name_text (h.closed (by decide)) (by decide) (by decide)
  | isNull n | isNotNull n => exact segsOk_name_text (h.closed (by decide)) (by decide) (by decide)

theorem segsOk_order (o : List Nat × Bool) (h : Tail rest) : SegsOk (orderSegs o ++ rest) := by
  obtain ⟨n, desc⟩ := o
  cases desc with
  | false => exact h.name
  | true => exact segsOk_name_text (h.closed (by decide)) (by decide) (by decide)

/-- A separated list, where every item may stand before a separator and before what follows the list. -/
theorem segsOk_joinSegs_of {α : Type} {g : α → List Seg} {Follows : List Seg → Prop} {sep : List Nat}
    (hsep : ∀ rest, SegsOk rest → Follows (.text sep :: rest)) {rest : List Seg} (hok : SegsOk rest)
    (hrest : Follows rest) : ∀ l : List α, (∀ a ∈ l, ∀ rest, Follows rest → SegsOk (g a ++ rest)) →
      SegsOk (joinSegs sep (l.map g) ++ rest)
  | [], _ => hok
  | [a], hitem => hitem a (by simp) rest hrest
  | a :: b :: l, hitem => by
    have ih := segsOk_joinSegs_of hsep hok hrest (b :: l) (forall_mem_cons.mp hitem).2
    have hgroup : joinSegs sep ((a :: b :: l).map g) ++ rest =
        g a ++ .text sep :: (joinSegs sep ((b :: l).map g) ++ rest) := by
      simp [joinSegs]
    rw [hgroup]
    exact hitem a (by simp) _ (hsep _ ih)

/-- A separated list in front of a tail. -/
theorem segsOk_joinSegs {α : Type} {segs : α → List Seg} (sep : String)
    (hitem : ∀ a rest, Tail rest → SegsOk (segs a ++ rest)) (hsep : endMode (wide sep) = .start)
    (hlead : (wide sep).head? = some 32 ∨ (wide sep).head? = some 44) (hrest : Tail rest)
    (l : List α) : SegsOk (joinSegs (wide sep) (l.map segs) ++ rest) :=
  segsOk_joinSegs_of (fun _ h => tail_text (h.open hsep) hlead) hrest.1 hrest l fun a _ => hitem a

theorem tail_page (page : Page) : Tail page.segs := by
  cases page with
  | all => exact Tail.nil
  | first | window => exact tail_text (Tail.nil.closed (by decide)) (.inl (by decide))

theorem tail_orderBy (order : List (List Nat × Bool)) (h : Tail rest) : Tail (orderBySegs order ++ rest) := by
  rw [orderBySegs]
  split_ifs
  · exact h
  · have hlist := segsOk_joinSegs ", " (fun o _ => segsOk_order o) (by decide) (.inr (by decide)) h order
    exact tail_text (hlist.open (by decide)) (.inl (by decide))

theorem tail_where (conds : List Cond) (h : Tail rest) : Tail (whereSegs conds ++ rest) := by
  rw [whereSegs]
  split_ifs
  · exact h
  · have hlist := segsOk_joinSegs " AND " (fun c _ => segsOk_cond c) (by decide) (.inl (by decide)) h conds
    exact tail_text (hlist.open (by decide)) (.inl (by decide))

theorem segsOk_select (s : Select) : SegsOk s.segs := by
  have hclauses := tail_where s.conds (tail_orderBy s.order (tail_page s.page))
  have hdot : SegsOk (.text (wide ".") :: .name s.table ::
      (whereSegs s.conds ++ (orderBySegs s.order ++ s.page.segs))) := by
    -- a dot is closed by the bracket behind it
    refine ⟨fun c hc => ?_, hclauses.name⟩
    obtain rfl : 91 = c := by simpa [renderSegs, Seg.render] using hc
    decide
  have hname : SegsOk (.name s.schema :: _) := segsOk_name_text hdot (by decide) (by decide)
  have hfrom : Tail (.text (wide " FROM ") :: _) := tail_text (hname.open (by decide)) (.inl (by decide))
  have hcols := segsOk_joinSegs ", " (fun p _ => segsOk_proj p) (by decide) (.inr (by decide)) hfrom s.cols
  refine SegsOk.open ?_ (by decide)
  cases s.top with
  | false => exact hcols
  | true => exact hcols.open (by decide)

/-! ## What the text says -/

def Proj.name? : Proj → Option (List Nat)
  | .star => none
  | .column n => some n
  | .method n _ => some n
  | .cast n _ => some n

def Cond.name? : Cond → Option (List Nat)
  | .never => none
  | .compare n _ => some n
  | .isNull n => some n
  | .isNotNull n => some n

/-- The names in a statement. -/
def Select.names (s : Select) : List (List Nat) :=
  s.cols.filterMap Proj.name? ++ [s.schema, s.table] ++ s.conds.filterMap Cond.name? ++
    s.order.map Prod.fst

theorem name_mem_joinSegs {n s : List Nat} : ∀ l : List (List Seg), .name n ∈ joinSegs s l ↔ ∃ a ∈ l, .name n ∈ a
  | [] => by simp [joinSegs]
  | [a] => by simp [joinSegs]
  | a :: b :: l => by
    have ih := name_mem_joinSegs (n := n) (s := s) (b :: l)
    rw [joinSegs, mem_append, mem_cons, ih]
    simp

theorem name_mem_proj (p : Proj) : .name n ∈ p.segs ↔ p.name? = some n := by
  cases p <;> simp [Proj.segs, Proj.name?, eq_comm]

theorem name_mem_cond (c : Cond) : .name n ∈ c.segs ↔ c.name? = some n := by
  cases c <;> simp [Cond.segs, Cond.name?, eq_comm]

theorem name_mem_order (o : List Nat × Bool) : .name n ∈ orderSegs o ↔ o.1 = n := by
  obtain ⟨m, desc⟩ := o
  cases desc <;> simp [orderSegs, eq_comm]

theorem name_mem_segs (s : Select) : .name n ∈ s.segs ↔ n ∈ s.names := by
  have hwhere : .name n ∈ whereSegs s.conds ↔ ∃ c ∈ s.conds, c.name? = some n := by
    rw [whereSegs]
    split_ifs with h
    · simp [h]
    · simp [name_mem_joinSegs, name_mem_cond]
  have horder : .name n ∈ orderBySegs s.order ↔ ∃ o ∈ s.order, o.1 = n := by
    rw [orderBySegs]
    split_ifs with h
    · simp [h]
    · simp only [mem_cons, reduceCtorEq, name_mem_joinSegs, mem_map, false_or,
        exists_exists_and_eq_and, name_mem_order]
  have htop : ¬ .name n ∈ topSegs s.top := by cases s.top <;> simp [topSegs]
  have hpage : ¬ .name n ∈ s.page.segs := by cases s.page <;> simp [Page.segs]
  simp only [Select.segs, Select.names, mem_cons, mem_append, reduceCtorEq, false_or, htop,
    hpage, or_false, name_mem_joinSegs, mem_map, exists_exists_and_eq_and, name_mem_proj, hwhere,
    horder, mem_filterMap, Seg.name.injEq, not_mem_nil]
  simp [or_assoc]

/-- **The text of a statement lexes to its tokens exactly when no name has a closing bracket.** -/
theorem lex_segs (s : Select) : lex .ascii (renderSegs s.segs) = s.toks ↔ ∀ n ∈ s.names, 93 ∉ n := by
  rw [← tokenSegs_select, lex_segs_iff s.segs (segsOk_select s)]
  simp [name_mem_segs]

/-- A text that starts as a printed statement without a TOP is no statement with one, whatever the
    names are: no select list starts with the word. -/
theorem lex_segs_ne_top {s s' : Select} (hs : s.top = false) (hs' : s'.top = true) (more : List Nat) :
    lex .ascii (renderSegs s.segs ++ more) ≠ s'.toks := by
  have hselect : ∀ r, lex .ascii (wide "SELECT " ++ r) = kw "SELECT" :: lex .ascii r := by
    intro r
    rw [lex, lexFrom_text fun c _ => ?_, ← lex]
    · have h : lex .ascii (wide "SELECT ") = [kw "SELECT"] := by decide
      rw [h]; rfl
    · rw [show endMode (wide "SELECT ") = .start by decide]; exact quits_start c
  have hname : ∀ n r, (lex .ascii (Seg.render (.name n) ++ r)).head? ≠ some (kw "TOP") := by
    intro n r
    have hopen : lex .ascii (Seg.render (.name n) ++ r) = lexFrom .ascii (.brk []) (n ++ [93] ++ r) := rfl
    rw [hopen, lexFrom_brk]
    split <;> simp [kw]
  have hword : ∀ (w : String) (t : Tok) (ts : List Tok), runPrefix .ascii .start (wide w) = (t :: ts, .start) →
      t ≠ kw "TOP" → ∀ r, (lex .ascii (wide w ++ r)).head? ≠ some (kw "TOP") := by
    intro w t ts hrun ht r
    rw [lex, lexFrom_of_run _ hrun]
    simpa using ht
  intro heq
  have hsplit : renderSegs s.segs ++ more = wide "SELECT " ++
      (renderSegs (joinSegs (wide ", ") (s.cols.map Proj.segs)) ++ (wide " FROM " ++
        (renderSegs (.name s.schema :: .text (wide ".") :: .name s.table ::
          (whereSegs s.conds ++ (orderBySegs s.order ++ s.page.segs))) ++ more))) := by
    simp [Select.segs, hs, topSegs, renderSegs_cons, renderSegs_append, Seg.render]
  rw [hsplit, hselect, Select.toks, hs'] at heq
  have hhead := congrArg List.head? (List.cons.inj heq).2
  revert hhead
  -- the select list is read up to its first token
  cases s.cols with
  | nil => exact hword " FROM " (kw "FROM") [] (by decide) (by decide) _
  | cons p ps =>
    have hfirst : ∃ r, renderSegs (joinSegs (wide ", ") ((p :: ps).map Proj.segs)) = renderSegs p.segs ++ r := by
      cases ps with
      | nil => exact ⟨[], by simp [joinSegs]⟩
      | cons q qs =>
        exact ⟨_, by rw [map_cons, map_cons, joinSegs, renderSegs_append]⟩
    obtain ⟨r, hr⟩ := hfirst
    rw [hr, append_assoc]
    cases p with
    | star => exact hword "*" (.sym 42) [] (by decide) (by decide) _
    | column n | method n m => rw [Proj.segs, renderSegs_cons, append_assoc]; exact hname n _
    | cast n big =>
      rw [Proj.segs, renderSegs_cons, append_assoc]
      exact hword "CAST(" (kw "CAST") [.sym 40] (by decide) (by decide) _

end VirtualMssql.TSql
