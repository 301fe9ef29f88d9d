/-
  PLAN SQL — `vms_plan_build_sql`: from a plan to the text of a SELECT.

  The builder appends to a buffer of bounded size and gives up when it is full.  When it succeeds, the
  text is the printed form of `planSelect`, the statement the plan stands for (`build_text`), with one
  exception: a LIMIT without ORDER BY is a TOP, and the builder writes ` TOP (?)` at the END, where no
  statement has it.

  Names go in brackets as they are.  The schema and the table are validated identifiers; the names of
  columns are not looked at.
-/
import VirtualMssql.Plan
import VirtualMssql.Lib.TSqlPrint

namespace VirtualMssql.Plan

open TSql Utf List Option

/-! ## `vms_plan_build_sql` -/

section Build

variable (cap : Nat) (cols : List VmsMetaColumn) (spatialWkt : Bool)

/-- `append_w`: the text and its NUL have to fit. -/
def appendW (s sql : List Nat) : Option (List Nat) :=
  if cap < sql.length + s.length + 1 then none else some (sql ++ s)

/-- `MultiByteToWideChar` into a buffer of `n` wide characters, with the NUL. -/
def wideName (n : Nat) (name : List Nat) : Option (List Nat) :=
  if n < (utf8ToWide name).length + 1 then none else some (utf8ToWide name)

/-- A name in brackets, of which the buffer holds `n` wide characters. -/
def appendBracketed (n : Nat) (name sql : List Nat) : Option (List Nat) :=
  (wideName n name).bind fun w => appendW cap (91 :: (w ++ [93])) sql

/-- `append_col`. -/
def appendCol (name sql : List Nat) : Option (List Nat) := appendBracketed cap 298 name sql

/-- `append_col_spatial`. -/
def appendColSpatial (name sql : List Nat) : Option (List Nat) :=
  (appendBracketed cap 296 name sql).bind
    (appendW cap (if spatialWkt then wide ".STAsText()" else wide ".STAsBinary()"))

/-- The text types that arrive as ANSI bytes. -/
def ansiText (c : VmsMetaColumn) : Bool :=
  (c.vtype = .text || c.vtype = .bigtext) &&
    (stricmp c.typeName (wide "char") || stricmp c.typeName (wide "varchar") ||
      stricmp c.typeName (wide "text") || stricmp c.typeName (wide "xml"))

/-- `append_col_proj`. -/
def appendColProj (c : VmsMetaColumn) (sql : List Nat) : Option (List Nat) :=
  if c.vtype = .spatial then appendColSpatial cap spatialWkt c.name sql
  else if ansiText c then
    (wideName 296 c.name).bind fun w =>
    (appendW cap (wide "CAST(") sql).bind fun sql =>
    (appendW cap (91 :: (w ++ [93])) sql).bind
      (appendW cap (if c.vtype = .bigtext then wide " AS nvarchar(max))" else wide " AS nvarchar(4000))"))
  else appendCol cap c.name sql

/-- The loops of the builder: every item but the first has the separator in front. -/
def appendList {α : Type} (sep : List Nat) (item : α → List Nat → Option (List Nat)) :
    Bool → List α → List Nat → Option (List Nat)
  | _, [], sql => some sql
  | first, a :: l, sql =>
    ((if first then some sql else appendW cap sep sql).bind (item a)).bind
      (appendList sep item false l)

/-- The columns whose bit is set in the mask. -/
def projected (mask : Nat) : List VmsMetaColumn :=
  (cols.zipIdx.filter fun c => c.2 < 62 && (mask &&& bit32 c.2) != 0).map Prod.fst

def appendProjection (mask : Nat) (sql : List Nat) : Option (List Nat) :=
  if mask = 0 then appendList cap (wide ", ") (appendColProj cap spatialWkt) true cols sql
  else if mask = 0xFFFFFFFF then
    appendList cap (wide ", ") (appendColProj cap spatialWkt) true cols sql
  else if projected cols mask = [] then appendW cap (wide "*") sql
  else appendList cap (wide ", ") (appendColProj cap spatialWkt) true (projected cols mask) sql

def appendFrom (schema table sql : List Nat) : Option (List Nat) :=
  (appendW cap (wide " FROM [") sql).bind fun sql =>
  (wideName 300 schema).bind fun s =>
  (appendW cap s sql).bind fun sql =>
  (appendW cap (wide "].[") sql).bind fun sql =>
  (wideName 300 table).bind fun t =>
  (appendW cap t sql).bind (appendW cap (wide "]"))

/-- `cols[i]`; outside the array there is nothing to say. -/
def columnAt (i : Int) : Option VmsMetaColumn := if i < 0 then none else cols[i.toNat]?

/-- One term of the WHERE clause. -/
def appendTerm (t : VmsPlanTerm) (sql : List Nat) : Option (List Nat) :=
  if t.col < 0 then appendW cap (wide "1 = 0") sql
  else
    (columnAt cols t.col).bind fun c =>
    (appendCol cap c.name sql).bind fun sql =>
      match t.op with
      | .eq => appendW cap (wide " = ?") sql
      | .lt => appendW cap (wide " < ?") sql
      | .le => appendW cap (wide " <= ?") sql
      | .gt => appendW cap (wide " > ?") sql
      | .ge => appendW cap (wide " >= ?") sql
      | .isNull => appendW cap (wide " IS NULL") sql
      | .isNotNull => appendW cap (wide " IS NOT NULL") sql
      | .in_ => appendW cap (wide " = ?") sql
      | .other _ => none

def appendOrder (o : Int × Bool) (sql : List Nat) : Option (List Nat) :=
  (columnAt cols o.1).bind fun c =>
  (appendCol cap c.name sql).bind fun sql =>
    if o.2 then appendW cap (wide " DESC") sql else some sql

/-- LIMIT and OFFSET. -/
def appendPaging (plan : VmsPlan) (sql : List Nat) : Option (List Nat) :=
  if plan.hasOffset ∧ plan.order ≠ [] then
    appendW cap (wide " OFFSET ? ROWS FETCH NEXT ? ROWS ONLY") sql
  else if plan.hasLimit then
    if plan.order ≠ [] then appendW cap (wide " OFFSET 0 ROWS FETCH NEXT ? ROWS ONLY") sql
    else appendW cap (wide " TOP (?)") sql
  else some sql

/-- `vms_plan_build_sql`: the text, and `nparams`. -/
def vmsPlanBuildSql (plan : VmsPlan) (schema table : List Nat) : Option (List Nat × Int) :=
  if plan.magic ≠ vmsPlanMagic then none
  else if !vmsMetaIdentValid schema 128 || !vmsMetaIdentValid table 128 then none
  else
    (appendW cap (wide "SELECT ") []).bind fun sql =>
    (appendProjection cap cols spatialWkt plan.usedMask sql).bind fun sql =>
    (appendFrom cap schema table sql).bind fun sql =>
    (if plan.terms = [] then some sql else appendW cap (wide " WHERE ") sql).bind fun sql =>
    (appendList cap (wide " AND ") (appendTerm cap cols) true plan.terms sql).bind fun sql =>
    (if plan.order = [] then some sql else appendW cap (wide " ORDER BY ") sql).bind fun sql =>
    (appendList cap (wide ", ") (appendOrder cap cols) true plan.order sql).bind fun sql =>
    (appendPaging cap plan sql).bind fun sql =>
      if sql.length < cap then some (sql, plan.nargs) else none

end Build

/-! ## The statement a plan stands for -/

section Meaning

variable (cols : List VmsMetaColumn) (spatialWkt : Bool)

/-- The name of a column as the server has it. -/
def serverName (c : VmsMetaColumn) : List Nat := utf8ToWide c.name

def columnName (i : Int) : List Nat := (columnAt cols i).elim [] serverName

def projOf (c : VmsMetaColumn) : Proj :=
  if c.vtype = .spatial then .method (serverName c) (if spatialWkt then .stAsText else .stAsBinary)
  else if ansiText c then .cast (serverName c) (c.vtype = .bigtext)
  else .column (serverName c)

/-- The select list: every column for the two masks that mean all, else the columns of the mask. -/
def planProjection (mask : Nat) : List Proj :=
  if mask = 0 ∨ mask = 0xFFFFFFFF then cols.map (projOf spatialWkt)
  else if projected cols mask = [] then [.star]
  else (projected cols mask).map (projOf spatialWkt)

/-- The conjunct of a term; IN is an equality with its single value. -/
def condOf (t : VmsPlanTerm) : Cond :=
  if t.col < 0 then .never
  else match t.op with
    | .eq => .compare (columnName cols t.col) .eq
    | .lt => .compare (columnName cols t.col) .lt
    | .le => .compare (columnName cols t.col) .le
    | .gt => .compare (columnName cols t.col) .gt
    | .ge => .compare (columnName cols t.col) .ge
    | .isNull => .isNull (columnName cols t.col)
    | .isNotNull => .isNotNull (columnName cols t.col)
    | .in_ => .compare (columnName cols t.col) .eq
    | .other _ => .never

/-- **The statement a plan stands for.** -/
def planSelect (plan : VmsPlan) (schema table : List Nat) : Select where
  top := plan.hasLimit && plan.order.isEmpty
  cols := planProjection cols spatialWkt plan.usedMask
  schema := utf8ToWide schema
  table := utf8ToWide table
  conds := plan.terms.map (condOf cols)
  order := plan.order.map fun o => (columnName cols o.1, o.2)
  page :=
    if plan.order.isEmpty then .all
    else if plan.hasOffset then .window
    else if plan.hasLimit then .first
    else .all

theorem planSelect_wellFormed (plan : VmsPlan) (schema table : List Nat) :
    (planSelect cols spatialWkt plan schema table).WellFormed := by
  intro h
  cases horder : plan.order with
  | nil => simp [planSelect, horder] at h
  | cons o os => simp [planSelect, horder]

end Meaning

/-! ## The text is the printed statement -/

section Text

variable {cap : Nat} {cols : List VmsMetaColumn} {spatialWkt : Bool}

/-- When it succeeds, the step appends these pieces. -/
def Writes (f : List Nat → Option (List Nat)) (segs : List Seg) : Prop :=
  ∀ sql out, f sql = some out → out = sql ++ renderSegs segs

theorem Writes.nil : Writes some [] := by
  intro sql out h
  simpa [renderSegs] using (some.inj h).symm

theorem Writes.bind {f g : List Nat → Option (List Nat)} {a b : List Seg} (hf : Writes f a)
    (hg : Writes g b) : Writes (fun sql => (f sql).bind g) (a ++ b) := by
  intro sql out h
  obtain ⟨mid, hmid, hout⟩ := bind_eq_some_iff.mp h
  rw [hg mid out hout, hf sql mid hmid, renderSegs_append, append_assoc]

variable {sql out : List Nat}

theorem appendW_some {s : List Nat} (h : appendW cap s sql = some out) : out = sql ++ s := by
  rw [appendW] at h
  split_ifs at h
  exact (some.inj h).symm

theorem wideName_some {n : Nat} {name w : List Nat} (h : wideName n name = some w) : w = utf8ToWide name := by
  rw [wideName] at h
  split_ifs at h
  exact (some.inj h).symm

theorem appendW_writes (t : List Nat) : Writes (appendW cap t) [.text t] := by
  intro sql out h
  rw [appendW_some h]
  simp [renderSegs, Seg.render]

theorem appendBracketed_writes (n : Nat) (name : List Nat) :
    Writes (appendBracketed cap n name) [.name (utf8ToWide name)] := by
  intro sql out h
  obtain ⟨w, hw, hout⟩ := bind_eq_some_iff.mp h
  rw [appendW_some hout, wideName_some hw]
  simp [renderSegs, Seg.render]

theorem appendColProj_writes (c : VmsMetaColumn) :
    Writes (appendColProj cap spatialWkt c) (projOf spatialWkt c).segs := by
  intro sql out h
  rw [appendColProj] at h
  rw [projOf]
  by_cases hspatial : c.vtype = .spatial
  · rw [if_pos hspatial] at h ⊢
    obtain ⟨mid, h₁, h₂⟩ := bind_eq_some_iff.mp h
    rw [appendW_some h₂, appendBracketed_writes 296 c.name sql mid h₁]
    cases spatialWkt <;> simp [Proj.segs, Method.text, renderSegs, Seg.render, serverName]
  · rw [if_neg hspatial] at h ⊢
    by_cases hansi : ansiText c = true
    · rw [if_pos hansi] at h ⊢
      obtain ⟨w, hw, h⟩ := bind_eq_some_iff.mp h
      obtain ⟨s₁, h₁, h⟩ := bind_eq_some_iff.mp h
      obtain ⟨s₂, h₂, h₃⟩ := bind_eq_some_iff.mp h
      rw [appendW_some h₃, appendW_some h₂, appendW_some h₁, wideName_some hw]
      simp [Proj.segs, castText, renderSegs, Seg.render, serverName]
    · rw [if_neg hansi] at h ⊢
      exact appendBracketed_writes 298 c.name sql out h

/-- The loops write their items with the separator between them. -/
theorem appendList_writes {α : Type} {sep : List Nat} {item : α → List Nat → Option (List Nat)}
    {segs : α → List Seg} (hitem : ∀ a, Writes (item a) (segs a)) : ∀ l : List α,
    Writes (appendList cap sep item true l) (joinSegs sep (l.map segs)) ∧
      (l ≠ [] → Writes (appendList cap sep item false l) (.text sep :: joinSegs sep (l.map segs)))
  | [] => ⟨Writes.nil, fun h => absurd rfl h⟩
  | [a] => by
    have hfirst := (hitem a).bind Writes.nil
    have hsep : Writes (appendW cap sep) [.text sep] := appendW_writes sep
    have hlater := (hsep.bind (hitem a)).bind Writes.nil
    rw [append_nil] at hfirst hlater
    exact ⟨hfirst, fun _ => hlater⟩
  | a :: b :: l => by
    have ih : Writes (appendList cap sep item false (b :: l)) _ := (appendList_writes hitem (b :: l)).2 (by simp)
    exact ⟨(hitem a).bind ih, fun _ => ((appendW_writes sep).bind (hitem a)).bind ih⟩

theorem appendProjection_writes (mask : Nat) : Writes (appendProjection cap cols spatialWkt mask)
    (joinSegs (wide ", ") ((planProjection cols spatialWkt mask).map Proj.segs)) := by
  have hall : ∀ cs : List VmsMetaColumn, Writes (appendList cap (wide ", ") (appendColProj cap spatialWkt) true cs)
        (joinSegs (wide ", ") ((cs.map (projOf spatialWkt)).map Proj.segs)) := by
    intro cs
    rw [List.map_map]
    exact (appendList_writes appendColProj_writes cs).1
  intro sql out h
  rw [appendProjection] at h
  rw [planProjection]
  split_ifs at h with h0 h1 hnone
  · rw [if_pos (.inl h0)]; exact hall cols sql out h
  · rw [if_pos (.inr h1)]; exact hall cols sql out h
  · rw [if_neg (by simp [h0, h1]), if_pos hnone]; exact appendW_writes _ sql out h
  · rw [if_neg (by simp [h0, h1]), if_neg hnone]; exact hall _ sql out h

theorem appendFrom_writes (schema table : List Nat) : Writes (appendFrom cap schema table)
    [.text (wide " FROM "), .name (utf8ToWide schema), .text (wide "."), .name (utf8ToWide table)] := by
  intro sql out h
  obtain ⟨s₁, h₁, h⟩ := bind_eq_some_iff.mp h
  obtain ⟨s, hs, h⟩ := bind_eq_some_iff.mp h
  obtain ⟨s₂, h₂, h⟩ := bind_eq_some_iff.mp h
  obtain ⟨s₃, h₃, h⟩ := bind_eq_some_iff.mp h
  obtain ⟨t, ht, h⟩ := bind_eq_some_iff.mp h
  obtain ⟨s₄, h₄, h₅⟩ := bind_eq_some_iff.mp h
  have hfrom : wide " FROM [" = wide " FROM " ++ [91] := by decide
  have hdot : wide "].[" = [93] ++ (wide "." ++ [91]) := by decide
  have hclose : wide "]" = [93] := by decide
  rw [appendW_some h₅, appendW_some h₄, appendW_some h₃, appendW_some h₂, appendW_some h₁,
    wideName_some hs, wideName_some ht, hfrom, hdot, hclose]
  simp [renderSegs, Seg.render]

theorem columnName_of_columnAt {i : Int} {c : VmsMetaColumn} (h : columnAt cols i = some c) :
    columnName cols i = utf8ToWide c.name := by
  rw [columnName, h]
  rfl

theorem appendTerm_writes (t : VmsPlanTerm) : Writes (appendTerm cap cols t) (condOf cols t).segs := by
  intro sql out h
  rw [appendTerm] at h
  rw [condOf]
  split_ifs at h ⊢ with hneg
  · exact appendW_writes _ sql out h
  · obtain ⟨c, hc, h⟩ := bind_eq_some_iff.mp h
    rw [columnName_of_columnAt hc]
    have hthen : ∀ s : List Nat, (appendCol cap c.name sql).bind (appendW cap s) = some out →
        out = sql ++ renderSegs [.name (utf8ToWide c.name), .text s] :=
      fun s => (appendBracketed_writes 298 c.name).bind (appendW_writes s) sql out
    cases hop : t.op <;> rw [hop] at h
    case other n =>
      obtain ⟨_, _, h⟩ := bind_eq_some_iff.mp h
      cases h
    all_goals exact hthen _ h

theorem appendOrder_writes (o : Int × Bool) :
    Writes (appendOrder cap cols o) (orderSegs (columnName cols o.1, o.2)) := by
  intro sql out h
  obtain ⟨c, hc, h⟩ := bind_eq_some_iff.mp h
  rw [columnName_of_columnAt hc]
  obtain ⟨i, desc⟩ := o
  cases desc with
  | true => exact (appendBracketed_writes 298 c.name).bind (appendW_writes _) sql out h
  | false => exact (appendBracketed_writes 298 c.name).bind Writes.nil sql out h

/-- A clause is its keyword and its list, or nothing. -/
theorem clause_writes {α : Type} {head sep : List Nat} {item : α → List Nat → Option (List Nat)}
    {segs : α → List Seg} (hitem : ∀ a, Writes (item a) (segs a)) {l : List α} {mid : List Nat}
    (hhead : (if l = [] then some sql else appendW cap head sql) = some mid)
    (hlist : appendList cap sep item true l mid = some out) :
    out = sql ++ renderSegs (if l = [] then [] else .text head :: joinSegs sep (l.map segs)) := by
  have hout := (appendList_writes hitem l).1 mid out hlist
  by_cases hl : l = []
  · subst hl
    rw [if_pos rfl] at hhead ⊢
    rw [hout, ← some.inj hhead]
    rfl
  · rw [if_neg hl] at hhead ⊢
    rw [hout, appendW_some hhead, renderSegs_cons, Seg.render, append_assoc]

variable {plan : VmsPlan}

theorem appendPaging_writes (cols : List VmsMetaColumn) (spatialWkt : Bool)
    (schema table : List Nat) (h : appendPaging cap plan sql = some out) :
    out = sql ++ (renderSegs (planSelect cols spatialWkt plan schema table).page.segs ++
      (if plan.hasLimit && plan.order.isEmpty then wide " TOP (?)" else [])) := by
  rw [appendPaging] at h
  simp only [planSelect]
  revert h
  cases plan.order with
  | nil =>
    cases plan.hasLimit with
    | false =>
      intro h
      simpa [Page.segs, renderSegs] using h.symm
    | true =>
      intro h
      rw [if_neg (by simp), if_pos rfl, if_neg (by simp)] at h
      rw [appendW_some h]
      simp [Page.segs, renderSegs]
  | cons o os =>
    cases plan.hasOffset with
    | true =>
      intro h
      rw [if_pos (by simp)] at h
      rw [appendW_some h]
      simp [Page.segs, renderSegs, Seg.render]
    | false =>
      cases plan.hasLimit with
      | false =>
        intro h
        simpa [Page.segs, renderSegs] using h.symm
      | true =>
        intro h
        rw [if_neg (by simp), if_pos rfl, if_pos (by simp)] at h
        rw [appendW_some h]
        simp [Page.segs, renderSegs, Seg.render]

variable {schema table : List Nat}

section Text

variable {n : Int} (h : vmsPlanBuildSql cap cols spatialWkt plan schema table = some (sql, n))
include h

/-- **The text**: the printed statement without its TOP, and the TOP at the end. -/
theorem build_text :
    sql = renderSegs { planSelect cols spatialWkt plan schema table with top := false }.segs ++
      (if plan.hasLimit && plan.order.isEmpty then wide " TOP (?)" else []) ∧ sql.length < cap := by
  simp only [vmsPlanBuildSql, ite_none_left_eq_some, bind_eq_some_iff, ite_none_right_eq_some,
    some.injEq, Prod.mk.injEq] at h
  obtain ⟨-, -, s₁, h₁, s₂, h₂, s₃, h₃, s₄, h₄, s₅, h₅, s₆, h₆, s₇, h₇, s₈, h₈, hlen, rfl, -⟩ := h
  have hwhere := clause_writes appendTerm_writes h₄ h₅
  have horder := clause_writes appendOrder_writes h₆ h₇
  refine ⟨?_, hlen⟩
  rw [appendPaging_writes cols spatialWkt schema table h₈, horder, hwhere,
    appendFrom_writes schema table s₂ s₃ h₃, appendProjection_writes plan.usedMask s₁ s₂ h₂, appendW_some h₁]
  simp [Select.segs, whereSegs, orderBySegs, renderSegs_cons, renderSegs_append, topSegs, planSelect,
    Function.comp_def, Seg.render, renderSegs_nil]

/-- The statement writes a TOP. -/
def writesTop (plan : VmsPlan) : Prop := plan.hasLimit = true ∧ plan.order = []

theorem build_plain (htop : ¬ writesTop plan) :
    sql = renderSegs (planSelect cols spatialWkt plan schema table).segs := by
  have hfalse : (plan.hasLimit && plan.order.isEmpty) = false := by
    rw [writesTop] at htop
    simpa using htop
  have hsame : { planSelect cols spatialWkt plan schema table with top := false } =
      planSelect cols spatialWkt plan schema table := by simp [planSelect, hfalse]
  rw [(build_text h).1, hfalse, hsame, if_neg (by simp), append_nil]

/-- **What the text is worth**: it lexes to the statement the plan stands for, unless a TOP was written
    or a name has a closing bracket in it. -/
theorem build_lex_iff : lex .ascii sql = (planSelect cols spatialWkt plan schema table).toks ↔
      ¬ writesTop plan ∧ ∀ n ∈ (planSelect cols spatialWkt plan schema table).names, 93 ∉ n := by
  by_cases htop : writesTop plan
  · refine iff_of_false (fun heq => ?_) fun hc => hc.1 htop
    rw [(build_text h).1] at heq
    exact lex_segs_ne_top rfl (by simp [planSelect, htop.1, htop.2]) _ heq
  · rw [build_plain h htop, lex_segs]
    exact ⟨fun hn => ⟨htop, hn⟩, And.right⟩

end Text

end Text

end VirtualMssql.Plan
