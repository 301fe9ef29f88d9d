/-
  SELECT STATEMENTS — the single-table SELECT with `?` markers, its tokens, and a parser for them.

      SELECT [TOP (?)] columns FROM [schema].[table]
        [WHERE cond AND …] [ORDER BY [c] [DESC], …] [OFFSET … ROWS FETCH NEXT ? ROWS ONLY]

  The clauses come in this order and no other: that is what `Select.toks` says, and `parseSelect`
  refuses every other token list.  `parseSelect_toks` is the round trip, and `parseSelect_eq_some` says
  that nothing else is accepted.  `Select.markers` names the markers of a statement in the order in which they
  stand in its text (`count_markers`).
-/
import VirtualMssql.Lib.TSqlLex

namespace VirtualMssql.TSql

open List Option

/-! ## Statements -/

inductive CmpOp
  | eq
  | lt
  | le
  | gt
  | ge
  deriving DecidableEq, Repr

/-- The methods that give a spatial value as text or as bytes. -/
inductive Method
  | stAsText
  | stAsBinary
  deriving DecidableEq, Repr

/-- A select item: a column, a column through a method, or a column cast to `nvarchar(4000)` or, when
    it is big, to `nvarchar(max)`. -/
inductive Proj
  | star
  | column (n : List Nat)
  | method (n : List Nat) (m : Method)
  | cast (n : List Nat) (big : Bool)
  deriving DecidableEq, Repr

/-- A conjunct: the contradiction `1 = 0`, a comparison with a marker, or a null test. -/
inductive Cond
  | never
  | compare (n : List Nat) (op : CmpOp)
  | isNull (n : List Nat)
  | isNotNull (n : List Nat)
  deriving DecidableEq, Repr

/-- Paging: none, the first rows, or the rows of a window. -/
inductive Page
  | all
  | first
  | window
  deriving DecidableEq, Repr

structure Select where
  top : Bool
  cols : List Proj
  schema : List Nat
  table : List Nat
  conds : List Cond
  order : List (List Nat × Bool)
  page : Page
  deriving DecidableEq, Repr

/-- Paging needs an ORDER BY, and excludes TOP. -/
def Select.WellFormed (s : Select) : Prop := s.page ≠ .all → s.order ≠ [] ∧ s.top = false

instance (s : Select) : Decidable s.WellFormed :=
  inferInstanceAs (Decidable (s.page ≠ .all → s.order ≠ [] ∧ s.top = false))

/-! ## Tokens -/

/-- A keyword. -/
def kw (s : String) : Tok := .word (wide s)

/-- Token lists with a separator between them. -/
def joinToks (sep : Tok) : List (List Tok) → List Tok
  | [] => []
  | [a] => a
  | a :: b :: l => a ++ sep :: joinToks sep (b :: l)

theorem joinToks_cons (sep : Tok) (a : List Tok) (l : List (List Tok)) :
    joinToks sep (a :: l) = a ++ l.flatMap (sep :: ·) := by
  induction l generalizing a with
  | nil => simp [joinToks]
  | cons b l ih => simp [joinToks, ih]

def CmpOp.toks : CmpOp → List Tok
  | .eq => [.sym 61]
  | .lt => [.sym 60]
  | .le => [.sym 60, .sym 61]
  | .gt => [.sym 62]
  | .ge => [.sym 62, .sym 61]

def Method.tok : Method → Tok
  | .stAsText => kw "STAsText"
  | .stAsBinary => kw "STAsBinary"

/-- The length of an `nvarchar`. -/
def lengthTok (big : Bool) : Tok := if big then kw "max" else .num (wide "4000")

def Proj.toks : Proj → List Tok
  | .star => [.sym 42]
  | .column n => [.quoted n]
  | .method n m => [.quoted n, .sym 46, m.tok, .sym 40, .sym 41]
  | .cast n big =>
    [kw "CAST", .sym 40, .quoted n, kw "AS", kw "nvarchar", .sym 40, lengthTok big, .sym 41, .sym 41]

def Cond.toks : Cond → List Tok
  | .never => [.num [49], .sym 61, .num [48]]
  | .compare n op => .quoted n :: (op.toks ++ [.sym 63])
  | .isNull n => [.quoted n, kw "IS", kw "NULL"]
  | .isNotNull n => [.quoted n, kw "IS", kw "NOT", kw "NULL"]

def orderToks (o : List Nat × Bool) : List Tok := .quoted o.1 :: (if o.2 then [kw "DESC"] else [])

def Page.toks : Page → List Tok
  | .all => []
  | .first => [kw "OFFSET", .num [48], kw "ROWS", kw "FETCH", kw "NEXT", .sym 63, kw "ROWS", kw "ONLY"]
  | .window => [kw "OFFSET", .sym 63, kw "ROWS", kw "FETCH", kw "NEXT", .sym 63, kw "ROWS", kw "ONLY"]

def topToks (top : Bool) : List Tok := if top then [kw "TOP", .sym 40, .sym 63, .sym 41] else []

def whereToks (conds : List Cond) : List Tok :=
  if conds = [] then [] else kw "WHERE" :: joinToks (kw "AND") (conds.map Cond.toks)

def orderByToks (order : List (List Nat × Bool)) : List Tok :=
  if order = [] then []
  else kw "ORDER" :: kw "BY" :: joinToks (.sym 44) (order.map orderToks)

/-- **The tokens of a statement**, clause by clause. -/
def Select.toks (s : Select) : List Tok :=
  kw "SELECT" :: (topToks s.top ++ (joinToks (.sym 44) (s.cols.map Proj.toks) ++
    (kw "FROM" :: .quoted s.schema :: .sym 46 :: .quoted s.table ::
      (whereToks s.conds ++ (orderByToks s.order ++ s.page.toks)))))

/-! ## Markers -/

/-- What a `?` of a statement stands for; the conjuncts are numbered. -/
inductive Marker
  | top
  | cond (a : Nat)
  | offset
  | fetch
  deriving DecidableEq, Repr

def Cond.takesValue : Cond → Bool
  | .compare _ _ => true
  | _ => false

/-- The markers of the conjuncts from number `a` on. -/
def condMarkers : Nat → List Cond → List Marker
  | _, [] => []
  | a, c :: cs => (if c.takesValue then [.cond a] else []) ++ condMarkers (a + 1) cs

def Page.markers : Page → List Marker
  | .all => []
  | .first => [.fetch]
  | .window => [.offset, .fetch]

/-- The markers, in the order of the text. -/
def Select.markers (s : Select) : List Marker :=
  (if s.top then [.top] else []) ++ condMarkers 0 s.conds ++ s.page.markers

/-- The number of markers in a token list. -/
def questionMarks (ts : List Tok) : Nat := ts.count (.sym 63)

theorem questionMarks_append (a b : List Tok) :
    questionMarks (a ++ b) = questionMarks a + questionMarks b := count_append

theorem questionMarks_cons (t : Tok) (ts : List Tok) :
    questionMarks (t :: ts) = questionMarks ts + if t == .sym 63 then 1 else 0 := count_cons

theorem questionMarks_joinToks {sep : Tok} (hsep : sep ≠ .sym 63) : ∀ l : List (List Tok),
    questionMarks (joinToks sep l) = questionMarks l.flatten
  | [] => rfl
  | [a] => by simp [joinToks]
  | a :: b :: l => by
    have ih := questionMarks_joinToks hsep (b :: l)
    rw [joinToks, questionMarks_append, questionMarks_cons, ih]
    simp [hsep, questionMarks_append]

/-- Items without markers make a list without markers. -/
theorem questionMarks_joined {β : Type} {toks : β → List Tok} (h : ∀ b, questionMarks (toks b) = 0)
    {sep : Tok} (hsep : sep ≠ .sym 63) (l : List β) : questionMarks (joinToks sep (l.map toks)) = 0 := by
  rw [questionMarks_joinToks hsep]
  induction l with
  | nil => rfl
  | cons b l ih => rw [map_cons, flatten_cons, questionMarks_append, h b, ih]

theorem questionMarks_proj (p : Proj) : questionMarks p.toks = 0 := by
  cases p with
  | star => decide
  | column n => rfl
  | method n m => cases m <;> rfl
  | cast n big => cases big <;> rfl

theorem questionMarks_cond (c : Cond) : questionMarks c.toks = if c.takesValue then 1 else 0 := by
  cases c with
  | never => decide
  | compare n op => cases op <;> rfl
  | isNull n | isNotNull n => rfl

theorem questionMarks_order (o : List Nat × Bool) : questionMarks (orderToks o) = 0 := by
  obtain ⟨n, desc⟩ := o
  cases desc <;> rfl

theorem condMarkers_length : ∀ (a : Nat) (cs : List Cond),
    (condMarkers a cs).length = questionMarks (cs.map Cond.toks).flatten
  | _, [] => rfl
  | a, c :: cs => by
    have ih := condMarkers_length (a + 1) cs
    rw [condMarkers, length_append, ih, map_cons, flatten_cons, questionMarks_append, questionMarks_cond]
    split <;> rfl

theorem questionMarks_where (cs : List Cond) : questionMarks (whereToks cs) = (condMarkers 0 cs).length := by
  rw [whereToks, condMarkers_length]
  split_ifs with h
  · subst h; rfl
  · rw [questionMarks_cons, questionMarks_joinToks (by decide)]
    rfl

theorem questionMarks_orderBy (os : List (List Nat × Bool)) : questionMarks (orderByToks os) = 0 := by
  rw [orderByToks]
  split_ifs with h
  · rfl
  · rw [questionMarks_cons, questionMarks_cons, questionMarks_joined questionMarks_order (by decide)]
    rfl

/-- **Every `?` of the text is one of the markers.** -/
theorem count_markers (s : Select) : questionMarks s.toks = s.markers.length := by
  have hcols := questionMarks_joined questionMarks_proj (show Tok.sym 44 ≠ .sym 63 by decide) s.cols
  have htop : questionMarks (topToks s.top) = (if s.top then [Marker.top] else []).length := by
    cases s.top <;> rfl
  have hpage : questionMarks s.page.toks = s.page.markers.length := by cases s.page <;> rfl
  simp only [Select.toks, questionMarks_cons, questionMarks_append, questionMarks_where,
    questionMarks_orderBy, hcols, htop, hpage, Select.markers, length_append]
  simp [kw]
  omega

/-! ## The parser -/

/-- One token, which must be the given one. -/
def eat (t : Tok) : List Tok → Option (List Tok)
  | [] => none
  | x :: xs => if x = t then some xs else none

/-- A fixed list of tokens. -/
def eatAll : List Tok → List Tok → Option (List Tok)
  | [], ts => some ts
  | t :: p, ts => (eat t ts).bind (eatAll p)

/-- Items with a separator between them, at least one. -/
def parseSep {α : Type} (item : List Tok → Option (α × List Tok)) (sep : Tok) :
    Nat → List Tok → Option (List α × List Tok)
  | 0, _ => none
  | fuel + 1, ts =>
    match item ts with
    | none => none
    | some (a, r) =>
      match eat sep r with
      | none => some ([a], r)
      | some r' => (parseSep item sep fuel r').map fun x => (a :: x.1, x.2)

def parseMethod (t : Tok) : Option Method :=
  if t = Method.tok .stAsText then some .stAsText
  else if t = Method.tok .stAsBinary then some .stAsBinary
  else none

def parseLength (t : Tok) : Option Bool :=
  if t = lengthTok true then some true else if t = lengthTok false then some false else none

def parseProj : List Tok → Option (Proj × List Tok)
  | .sym 42 :: r => some (.star, r)
  | .quoted n :: .sym 46 :: m :: .sym 40 :: .sym 41 :: r =>
    (parseMethod m).map fun m => (.method n m, r)
  | .quoted n :: r => some (.column n, r)
  | a :: .sym 40 :: .quoted n :: b :: c :: .sym 40 :: len :: .sym 41 :: .sym 41 :: r =>
    if a = kw "CAST" ∧ b = kw "AS" ∧ c = kw "nvarchar" then
      (parseLength len).map fun big => (.cast n big, r)
    else none
  | _ => none

def parseCmp : List Tok → Option (CmpOp × List Tok)
  | .sym 61 :: .sym 63 :: r => some (.eq, r)
  | .sym 60 :: .sym 63 :: r => some (.lt, r)
  | .sym 60 :: .sym 61 :: .sym 63 :: r => some (.le, r)
  | .sym 62 :: .sym 63 :: r => some (.gt, r)
  | .sym 62 :: .sym 61 :: .sym 63 :: r => some (.ge, r)
  | _ => none

def parseCond : List Tok → Option (Cond × List Tok)
  | .num [49] :: .sym 61 :: .num [48] :: r => some (.never, r)
  | .quoted n :: r =>
    match parseCmp r with
    | some (op, r') => some (.compare n op, r')
    | none =>
      match eatAll [kw "IS", kw "NULL"] r with
      | some r' => some (.isNull n, r')
      | none => (eatAll [kw "IS", kw "NOT", kw "NULL"] r).map fun r' => (.isNotNull n, r')
  | _ => none

def parseOrderItem : List Tok → Option ((List Nat × Bool) × List Tok)
  | .quoted n :: r =>
    match eat (kw "DESC") r with
    | some r' => some ((n, true), r')
    | none => some ((n, false), r)
  | _ => none

variable (ts : List Tok)

def parseTop : Bool × List Tok :=
  match eatAll (topToks true) ts with
  | some r => (true, r)
  | none => (false, ts)

/-- The select list.  It is empty for a table of no columns only. -/
def parseCols : Option (List Proj × List Tok) :=
  match eat (kw "FROM") ts with
  | some _ => some ([], ts)
  | none => parseSep parseProj (.sym 44) (ts.length + 1) ts

def parseTable : List Tok → Option ((List Nat × List Nat) × List Tok)
  | f :: .quoted s :: .sym 46 :: .quoted t :: r => if f = kw "FROM" then some ((s, t), r) else none
  | _ => none

def parseWhere : Option (List Cond × List Tok) :=
  match eat (kw "WHERE") ts with
  | some r => parseSep parseCond (kw "AND") (r.length + 1) r
  | none => some ([], ts)

def parseOrderBy : Option (List (List Nat × Bool) × List Tok) :=
  match eatAll [kw "ORDER", kw "BY"] ts with
  | some r => parseSep parseOrderItem (.sym 44) (r.length + 1) r
  | none => some ([], ts)

/-- The rest of a statement. -/
def parsePage : Option Page :=
  if ts = Page.toks .all then some .all
  else if ts = Page.toks .first then some .first
  else if ts = Page.toks .window then some .window
  else none

/-- **The statement a token list is**, if it is one. -/
def parseSelect : Option Select :=
  (eat (kw "SELECT") ts).bind fun ts =>
  (parseCols (parseTop ts).2).bind fun cols =>
  (parseTable cols.2).bind fun table =>
  (parseWhere table.2).bind fun conds =>
  (parseOrderBy conds.2).bind fun order =>
  (parsePage order.2).bind fun page =>
    let s : Select := ⟨(parseTop ts).1, cols.1, table.1.1, table.1.2, conds.1, order.1, page⟩
    if s.WellFormed then some s else none

/-! ## The round trip -/

theorem eat_self (t : Tok) (xs : List Tok) : eat t (t :: xs) = some xs := by simp [eat]

variable {t : Tok} {ts} {rest r : List Tok}

theorem eat_none (h : ts.head? ≠ some t) : eat t ts = none := by
  cases ts with
  | nil => rfl
  | cons x xs => simp only [head?_cons, ne_eq, Option.some.injEq] at h; simp [eat, h]

theorem eatAll_append : ∀ p r : List Tok, eatAll p (p ++ r) = some r
  | [], r => rfl
  | t :: p, r => by
    rw [cons_append, eatAll, eat_self, bind_some, eatAll_append p r]

theorem eatAll_none {p : List Tok} (h : ts.head? ≠ some t) :
    eatAll (t :: p) ts = none := by rw [eatAll, eat_none h, bind_none]

/-- The length of a separated list is fuel enough. -/
theorem length_le_joinToks (sep : Tok) : ∀ l : List (List Tok), l.length ≤ (joinToks sep l).length + 1
  | [] => Nat.zero_le _
  | [a] => by simp
  | a :: b :: l => by
    have ih := length_le_joinToks sep (b :: l)
    simp only [length_cons, joinToks, length_append] at ih ⊢
    omega

section Sep

variable {α : Type} {item : List Tok → Option (α × List Tok)} {sep} {toks : α → List Tok} (Ends : List Tok → Prop)
  (hitem : ∀ a rest, Ends rest → item (toks a ++ rest) = some (a, rest)) (hsep : ∀ r, Ends (sep :: r))
  (hrest : Ends rest) (hhead : rest.head? ≠ some sep)
include hitem hsep hrest hhead

/-- **A separated list reads back**, when its items do in front of a separator and in front of what
    comes behind the list.  Induction on the list, with the fuel it uses up. -/
theorem parseSep_join : ∀ (l : List α) (fuel : Nat), l ≠ [] → l.length ≤ fuel →
    parseSep item sep fuel (joinToks sep (l.map toks) ++ rest) = some (l, rest)
  | [], _, hne, _ => absurd rfl hne
  | [a], fuel + 1, _, _ => by
    simp [joinToks, parseSep, hitem a rest hrest, eat_none hhead]
  | a :: b :: l, fuel + 1, _, hfuel => by
    have hlen : (b :: l).length ≤ fuel := by simpa using hfuel
    have ih := parseSep_join (b :: l) fuel (by simp) hlen
    simp only [map_cons] at ih
    simp [joinToks, parseSep, hitem a _ (hsep _), eat_self, ih]

/-- `parseSep_join` with the fuel the parsers give. -/
theorem parseSep_all {l : List α} (hl : l ≠ []) : parseSep item sep ((joinToks sep (l.map toks) ++ rest).length + 1)
      (joinToks sep (l.map toks) ++ rest) = some (l, rest) := by
  refine parseSep_join Ends hitem hsep hrest hhead l _ hl ?_
  have h := length_le_joinToks sep (l.map toks)
  rw [length_map] at h
  rw [length_append]
  omega

end Sep

theorem parseProj_toks (p : Proj) (rest : List Tok) (h : rest.head? ≠ some (.sym 46)) :
    parseProj (p.toks ++ rest) = some (p, rest) := by
  cases p with
  | star => rfl
  | method n m => cases m <;> rfl
  | column n =>
    cases rest with
    | nil => rfl
    | cons x xs =>
      simp only [head?_cons, ne_eq, Option.some.injEq] at h
      simp only [Proj.toks, cons_append, nil_append]
      rw [parseProj]
      rintro m r hx
      exact absurd (List.cons.inj hx).1 h
  | cast n big => cases big <;> rfl

theorem parseCond_toks (c : Cond) (rest : List Tok) : parseCond (c.toks ++ rest) = some (c, rest) := by
  cases c with
  | never => rfl
  | compare n op => cases op <;> rfl
  | isNull n => simp [Cond.toks, parseCond, parseCmp, kw, eatAll, eat]
  | isNotNull n =>
    have hne : ¬ wide "NOT" = wide "NULL" := by decide
    simp [Cond.toks, parseCond, parseCmp, kw, eatAll, eat, hne]

theorem parseOrderItem_toks (o : List Nat × Bool) (rest : List Tok)
    (h : rest.head? ≠ some (kw "DESC")) : parseOrderItem (orderToks o ++ rest) = some (o, rest) := by
  obtain ⟨n, desc⟩ := o
  cases desc with
  | true => simp [orderToks, parseOrderItem, eat_self]
  | false => simp [orderToks, parseOrderItem, eat_none h]

theorem parseTop_toks (top : Bool) (h : rest.head? ≠ some (kw "TOP")) :
    parseTop (topToks top ++ rest) = (top, rest) := by
  cases top with
  | true => rw [parseTop, eatAll_append]
  | false =>
    have hnone : eatAll (topToks true) (topToks false ++ rest) = none := eatAll_none h
    rw [parseTop, hnone]
    rfl

/-- No select item starts with a keyword other than `CAST`. -/
theorem head_cols (hstar : t ≠ .sym 42) (hquoted : ∀ n, t ≠ .quoted n) (hcast : t ≠ kw "CAST")
    (p : Proj) (ps : List Proj) (rest : List Tok) :
    (joinToks (.sym 44) ((p :: ps).map Proj.toks) ++ rest).head? ≠ some t := by
  have hhead : ∀ r : List Tok, (p.toks ++ r).head? ≠ some t := by
    intro r
    cases p with
    | star => simpa [Proj.toks] using hstar.symm
    | column n | method n m => simpa [Proj.toks] using (hquoted n).symm
    | cast n big => simpa [Proj.toks] using hcast.symm
  cases ps with
  | nil => exact hhead rest
  | cons q ps =>
    rw [map_cons, map_cons, joinToks, append_assoc]
    exact hhead _

theorem parseCols_toks (cols : List Proj) (r : List Tok) :
    parseCols (joinToks (.sym 44) (cols.map Proj.toks) ++ kw "FROM" :: r) = some (cols, kw "FROM" :: r) := by
  cases cols with
  | nil => simp [parseCols, joinToks, eat_self]
  | cons p ps =>
    have hfrom := head_cols (t := kw "FROM") (by simp [kw]) (by simp [kw]) (by decide) p ps (kw "FROM" :: r)
    rw [parseCols, eat_none hfrom]
    exact parseSep_all (fun rest => rest.head? ≠ some (.sym 46)) parseProj_toks (by simp)
      (by simp [kw]) (by simp [kw]) (by simp)

theorem parseWhere_toks (conds : List Cond) (hw : rest.head? ≠ some (kw "WHERE"))
    (ha : rest.head? ≠ some (kw "AND")) : parseWhere (whereToks conds ++ rest) = some (conds, rest) := by
  by_cases hc : conds = []
  · subst hc
    rw [whereToks, if_pos rfl, nil_append, parseWhere, eat_none hw]
  · rw [whereToks, if_neg hc, cons_append, parseWhere, eat_self]
    exact parseSep_all (fun _ => True) (fun c rest _ => parseCond_toks c rest) (by simp)
      trivial ha hc

theorem parseOrderBy_toks (order : List (List Nat × Bool)) (ho : rest.head? ≠ some (kw "ORDER"))
    (hd : rest.head? ≠ some (kw "DESC")) (hc : rest.head? ≠ some (.sym 44)) :
    parseOrderBy (orderByToks order ++ rest) = some (order, rest) := by
  by_cases h : order = []
  · subst h
    rw [orderByToks, if_pos rfl, nil_append, parseOrderBy, eatAll_none ho]
  · have heat : ∀ r : List Tok, eatAll [kw "ORDER", kw "BY"] (kw "ORDER" :: kw "BY" :: r) = some r :=
      eatAll_append [kw "ORDER", kw "BY"]
    rw [orderByToks, if_neg h, cons_append, cons_append, parseOrderBy, heat]
    exact parseSep_all (fun rest => rest.head? ≠ some (kw "DESC")) parseOrderItem_toks (by simp [kw]) hd hc h

theorem parsePage_toks (page : Page) : parsePage page.toks = some page := by cases page <;> decide

theorem head_page (page : Page) : page.toks.head? = none ∨ page.toks.head? = some (kw "OFFSET") := by
  cases page with
  | all => exact .inl rfl
  | first | window => exact .inr rfl

theorem head_orderBy (order : List (List Nat × Bool)) (page : Page) : (orderByToks order ++ page.toks).head? = none ∨
      (orderByToks order ++ page.toks).head? = some (kw "OFFSET") ∨
      (orderByToks order ++ page.toks).head? = some (kw "ORDER") := by
  by_cases h : order = []
  · rw [orderByToks, if_pos h, nil_append]
    exact (head_page page).imp_right .inl
  · rw [orderByToks, if_neg h]
    exact .inr (.inr rfl)

/-- **The round trip.** -/
theorem parseSelect_toks (s : Select) (hs : s.WellFormed) : parseSelect s.toks = some s := by
  have htop : (joinToks (.sym 44) (s.cols.map Proj.toks) ++ (kw "FROM" :: .quoted s.schema :: .sym 46 ::
      .quoted s.table :: (whereToks s.conds ++ (orderByToks s.order ++ s.page.toks)))).head? ≠
      some (kw "TOP") := by
    cases s.cols with
    | nil => simp only [map_nil, joinToks, nil_append, head?_cons]; decide
    | cons p ps => exact head_cols (by simp [kw]) (by simp [kw]) (by decide) p ps _
  have hconds : ∀ w, w = kw "WHERE" ∨ w = kw "AND" → (orderByToks s.order ++ s.page.toks).head? ≠ some w := by
    intro w hw
    rcases head_orderBy s.order s.page with h | h | h <;> rw [h] <;> rcases hw with rfl | rfl <;> decide
  have horder : ∀ w, w = kw "ORDER" ∨ w = kw "DESC" ∨ w = .sym 44 → s.page.toks.head? ≠ some w := by
    intro w hw
    rcases head_page s.page with h | h <;> rw [h] <;> rcases hw with rfl | rfl | rfl <;> decide
  have htable : ∀ r, parseTable (kw "FROM" :: .quoted s.schema :: .sym 46 :: .quoted s.table :: r) =
      some ((s.schema, s.table), r) := fun r => by simp [parseTable]
  rw [parseSelect, Select.toks, eat_self, bind_some, parseTop_toks s.top htop, parseCols_toks,
    bind_some, htable, bind_some,
    parseWhere_toks _ (hconds _ (.inl rfl)) (hconds _ (.inr rfl)), bind_some,
    parseOrderBy_toks _ (horder _ (.inl rfl)) (horder _ (.inr (.inl rfl)))
      (horder _ (.inr (.inr rfl))), bind_some, parsePage_toks, bind_some]
  exact if_pos hs

/-! ## What the parser accepts -/

theorem eat_eq_some : eat t ts = some r ↔ ts = t :: r := by
  cases ts with
  | nil | cons x xs => simp [eat]

theorem eatAll_eq_some {p : List Tok} (h : eatAll p ts = some r) : ts = p ++ r := by
  induction p generalizing ts with
  | nil => exact some.inj h
  | cons t p ih =>
    obtain ⟨ts', hts, h⟩ := bind_eq_some_iff.mp h
    rw [eat_eq_some.mp hts, ih h]
    rfl

/-- A parser that reads the tokens of what it returns. -/
def Reads {α : Type} (item : List Tok → Option (α × List Tok)) (toks : α → List Tok) : Prop :=
  ∀ ts a r, item ts = some (a, r) → ts = toks a ++ r

theorem parseSep_reads {α : Type} {item : List Tok → Option (α × List Tok)} {toks : α → List Tok}
    (hitem : Reads item toks) (sep : Tok) : ∀ (fuel : Nat) (ts : List Tok) (l : List α) (r : List Tok),
    parseSep item sep fuel ts = some (l, r) → l ≠ [] ∧ ts = joinToks sep (l.map toks) ++ r
  | 0, _, _, _, h => absurd h (by simp [parseSep])
  | fuel + 1, ts, l, r, h => by
    rw [parseSep] at h
    split at h
    · cases h
    rename_i a ra ha
    split at h
    · cases h
      exact ⟨by simp, hitem ts a _ ha⟩
    · rename_i rs hsep
      obtain ⟨⟨l', r'⟩, hrest, heq⟩ := map_eq_some_iff.mp h
      cases heq
      obtain ⟨hne, hts⟩ := parseSep_reads hitem sep fuel rs l' r' hrest
      refine ⟨by simp, ?_⟩
      obtain ⟨b, l'', rfl⟩ := exists_cons_of_ne_nil hne
      rw [hitem ts a ra ha, eat_eq_some.mp hsep, hts]
      simp [joinToks]

theorem parseMethod_reads {m : Method} (h : parseMethod t = some m) : t = m.tok := by
  rw [parseMethod] at h
  split_ifs at h with h₁ h₂ <;> cases h <;> assumption

theorem parseLength_reads {big : Bool} (h : parseLength t = some big) : t = lengthTok big := by
  rw [parseLength] at h
  split_ifs at h with h₁ h₂ <;> cases h <;> assumption

theorem parseProj_reads : Reads parseProj Proj.toks := by
  intro ts p r h
  rw [parseProj.eq_def] at h
  split at h
  · cases h
    rfl
  · obtain ⟨m, hm, heq⟩ := map_eq_some_iff.mp h
    cases heq
    rw [parseMethod_reads hm]
    rfl
  · cases h
    rfl
  · obtain ⟨⟨rfl, rfl, rfl⟩, h⟩ := ite_none_right_eq_some.mp h
    obtain ⟨big, hbig, heq⟩ := map_eq_some_iff.mp h
    cases heq
    rw [parseLength_reads hbig]
    rfl
  · cases h

theorem parseCmp_reads {op : CmpOp} (h : parseCmp ts = some (op, r)) : ts = op.toks ++ .sym 63 :: r := by
  rw [parseCmp.eq_def] at h
  split at h
  case h_6 => cases h
  all_goals
    cases h
    rfl

theorem parseCond_reads : Reads parseCond Cond.toks := by
  intro ts c r h
  rw [parseCond.eq_def] at h
  split at h
  · cases h
    rfl
  · split at h
    · rename_i hcmp
      cases h
      rw [parseCmp_reads hcmp]
      simp [Cond.toks]
    · split at h
      · rename_i hnull
        cases h
        rw [eatAll_eq_some hnull]
        rfl
      · obtain ⟨r', hnull, heq⟩ := map_eq_some_iff.mp h
        cases heq
        rw [eatAll_eq_some hnull]
        rfl
  · cases h

theorem parseOrderItem_reads : Reads parseOrderItem orderToks := by
  intro ts o r h
  rw [parseOrderItem.eq_def] at h
  split at h
  · split at h
    · rename_i hdesc
      cases h
      rw [eat_eq_some.mp hdesc]
      rfl
    · cases h
      rfl
  · cases h

theorem parseTop_reads (ts : List Tok) : ts = topToks (parseTop ts).1 ++ (parseTop ts).2 := by
  rw [parseTop]
  split
  · rename_i h
    exact eatAll_eq_some h
  · rfl

theorem parseCols_reads : Reads parseCols fun cols => joinToks (.sym 44) (cols.map Proj.toks) := by
  intro ts cols r h
  rw [parseCols] at h
  split at h
  · cases h
    rfl
  · exact (parseSep_reads parseProj_reads _ _ _ _ _ h).2

theorem parseTable_reads {s t : List Nat} (h : parseTable ts = some ((s, t), r)) :
    ts = kw "FROM" :: .quoted s :: .sym 46 :: .quoted t :: r := by
  rw [parseTable.eq_def] at h
  split at h
  · obtain ⟨rfl, h⟩ := ite_none_right_eq_some.mp h
    obtain ⟨hst, rfl⟩ := Prod.mk.inj (some.inj h)
    cases hst
    rfl
  · cases h

theorem parseWhere_reads : Reads parseWhere whereToks := by
  intro ts conds r h
  rw [parseWhere] at h
  split at h
  · rename_i hwhere
    obtain ⟨hne, hts⟩ := parseSep_reads parseCond_reads _ _ _ _ _ h
    rw [eat_eq_some.mp hwhere, hts, whereToks, if_neg hne]
    rfl
  · cases h
    rfl

theorem parseOrderBy_reads : Reads parseOrderBy orderByToks := by
  intro ts order r h
  rw [parseOrderBy] at h
  split at h
  · rename_i horder
    obtain ⟨hne, hts⟩ := parseSep_reads parseOrderItem_reads _ _ _ _ _ h
    rw [eatAll_eq_some horder, hts, orderByToks, if_neg hne]
    rfl
  · cases h
    rfl

theorem parsePage_reads {page : Page} (h : parsePage ts = some page) : ts = page.toks := by
  rw [parsePage] at h
  split_ifs at h with h₁ h₂ h₃ <;> cases h <;> assumption

/-- **A token list is at most one statement**: the one whose tokens it is. -/
theorem parseSelect_eq_some {s : Select} : parseSelect ts = some s ↔ s.WellFormed ∧ ts = s.toks := by
  constructor
  · intro h
    rw [parseSelect] at h
    obtain ⟨ts₁, h₁, h⟩ := bind_eq_some_iff.mp h
    have htop := parseTop_reads ts₁
    generalize parseTop ts₁ = top at h htop
    obtain ⟨⟨cols, ts₂⟩, h₂, h⟩ := bind_eq_some_iff.mp h
    obtain ⟨⟨⟨schema, table⟩, ts₃⟩, h₃, h⟩ := bind_eq_some_iff.mp h
    obtain ⟨⟨conds, ts₄⟩, h₄, h⟩ := bind_eq_some_iff.mp h
    obtain ⟨⟨order, ts₅⟩, h₅, h⟩ := bind_eq_some_iff.mp h
    obtain ⟨page, h₆, h⟩ := bind_eq_some_iff.mp h
    obtain ⟨hwf, hs⟩ := ite_none_right_eq_some.mp h
    cases hs
    refine ⟨hwf, ?_⟩
    simp only at h₃ h₄ h₅ h₆
    rw [eat_eq_some.mp h₁, htop, parseCols_reads _ _ _ h₂, parseTable_reads h₃,
      parseWhere_reads _ _ _ h₄, parseOrderBy_reads _ _ _ h₅, parsePage_reads h₆]
    rfl
  · rintro ⟨hwf, rfl⟩
    exact parseSelect_toks s hwf

/-- The statement a text is. -/
def readSelect (text : List Nat) : Option Select := parseSelect (lex .ascii text)

example : readSelect (wide "SELECT [a] FROM [s].[t] WHERE [a] <= ? ORDER BY [a] DESC") =
    some ⟨false, [.column [97]], [115], [116], [.compare [97] .le], [([97], true)], .all⟩ := by
  decide

/-- A TOP at the end is no statement. -/
example : readSelect (wide "SELECT [a] FROM [s].[t] TOP (?)") = none := by decide

end VirtualMssql.TSql
