/-
  PUSHDOWN — do the rows come out right when part of a query runs on the server?

  SQLite hands constraints and an ORDER BY to xBestIndex, and is told which of them it need not look at
  again.  The rows it ends up with are those of the statement sent, filtered by the constraints that are
  left to it.  Over a table with any rows (NULL, integers, other values) and without LIMIT and OFFSET,
  `pushdown_preserves` says that these are exactly the rows of a full scan filtered by all constraints, in
  the order asked for when SQLite was told not to sort.

  The argument runs through `scan_exec`: the statement sent selects the rows of which the constraints
  PUSHED hold, and `allHold_eq`: nothing is lost between those and the constraints left to SQLite.

  What a constraint means is fixed where the server evaluates it too (a comparison of a number with a
  value that SQLite takes for an integer, a null test) and left open everywhere else.
-/
import VirtualMssql.Filter
import VirtualMssql.PlanUsage
import VirtualMssql.Lib.TSqlExec

namespace VirtualMssql.Pushdown

open Plan VirtualMssql.Filter TSql Query List Option Function
open Utf

variable {α : Type}

/-! ## The table on the server -/

/-- The table behind a virtual table: the same columns, and numbers in the INT64 ones. -/
structure Remote (tab : VmsVtab) (t : Table α) : Prop where
  names : t.names = tab.cols.map serverName
  ints : ∀ (i : Nat) (c : VmsMetaColumn), tab.cols[i]? = some c → c.vtype = .int64 →
    ∀ r ∈ t.rows, ∀ x, r[i]? = some x → x.isNumber = true

/-! ## What the query asks for -/

/-- The comparison of an operator code. -/
def cmpOf : ConstraintOp → Option CmpOp
  | .eq => some .eq
  | .lt => some .lt
  | .le => some .le
  | .gt => some .gt
  | .ge => some .ge
  | _ => none

/-- The right sides of the constraints, and the meaning of those that are left open. -/
structure Sides (α : Type) where
  rhs : Nat → SqliteValue
  other : Nat → List (Cell α) → Bool

def columnCell (row : List (Cell α)) (i : Int) : Option (Cell α) :=
  if i < 0 then none else row[i.toNat]?

/-- Does the constraint, number `i`, hold of the row?  A comparison with NULL does not; a LIMIT or an
    OFFSET says nothing about a row. -/
def holds (q : Sides α) (c : IndexConstraint) (i : Nat) (row : List (Cell α)) : Bool :=
  match c.op with
  | .limit => true
  | .offset => true
  | .isNull => (columnCell row c.iColumn).elim (q.other i row) Cell.isNull
  | .isNotNull => (columnCell row c.iColumn).elim (q.other i row) fun x => !x.isNull
  | op =>
    match columnCell row c.iColumn, cmpOf op, (q.rhs i).numericInteger with
    | some x, some o, some v => if x.isNumber then o.eval x v == some true else q.other i row
    | _, _, _ => q.other i row

/-- All constraints. -/
def allHold (info : IndexInfo) (q : Sides α) (row : List (Cell α)) : Bool :=
  info.aConstraint.zipIdx.all fun c => holds q c.1 c.2 row

/-- The constraints that are not flagged `omit`. -/
def leftHold (info : IndexInfo) (usage : List ConstraintUsage) (q : Sides α) (row : List (Cell α)) :
    Bool :=
  info.aConstraint.zipIdx.all fun c =>
    (usage[c.2]?).elim false ConstraintUsage.omitted || holds q c.1 c.2 row

/-- The values SQLite passes are the right sides, where the usage asks for them. -/
def ArgvFor (usage : List ConstraintUsage) (q : Sides α) (argv : List FilterArg) : Prop :=
  ∀ (i j : Nat) (u : ConstraintUsage), usage[i]? = some u → u.argvIndex = j + 1 →
    (argv[j]?).map FilterArg.value = some (q.rhs i)

/-- How SQLite sorts rows by a column: ties allowed, NULL below the integers and these by value. -/
structure Collation (α : Type) where
  lt : Int → List (Cell α) → List (Cell α) → Bool
  weak : ∀ i, WeakOrder (lt i)
  numbers : ∀ i a b x y, columnCell a i = some x → columnCell b i = some y → x.isNumber = true →
    y.isNumber = true → lt i a b = x.lt y

def sortLt (coll : Collation α) (o : IndexOrderBy) (a b : List (Cell α)) : Bool :=
  if o.desc then coll.lt o.iColumn b a else coll.lt o.iColumn a b

/-- The order of an ORDER BY list. -/
def sortLe (coll : Collation α) (os : List IndexOrderBy) : List (Cell α) → List (Cell α) → Bool :=
  lexLe (os.map (sortLt coll))

/-! ## The plan of the scan -/

section Fields

variable (tab : VmsVtab) (key : Option VmsStableKey) (info : IndexInfo)

/-- Only the projection depends on the key. -/
theorem bestIndexPlan_eq : ∃ mask, bestIndexPlan tab key info =
    { (vmsPlanCompile tab.cols info).plan with usedMask := mask } := by
  unfold bestIndexPlan
  cases key with
  | none => exact ⟨_, rfl⟩
  | some k =>
    simp only
    split_ifs
    all_goals exact ⟨_, rfl⟩

theorem bestIndexPlan_terms : (bestIndexPlan tab key info).terms = pushTerms 0 (pushed tab.cols info) := by
  obtain ⟨mask, h⟩ := bestIndexPlan_eq tab key info
  rw [h]
  exact compiled_terms tab.cols info

theorem bestIndexPlan_order : (bestIndexPlan tab key info).order = compileOrder tab.cols info := by
  obtain ⟨mask, h⟩ := bestIndexPlan_eq tab key info
  rw [h]
  rfl

theorem bestIndexPlan_tail : (bestIndexPlan tab key info).hasLimit = consumesLimit info.aConstraint ∧
      (bestIndexPlan tab key info).hasOffset = consumesOffset info.aConstraint ∧
      (bestIndexPlan tab key info).limitArg = (vmsPlanCompile tab.cols info).plan.limitArg ∧
      (bestIndexPlan tab key info).offsetArg = (vmsPlanCompile tab.cols info).plan.offsetArg := by
  obtain ⟨mask, h⟩ := bestIndexPlan_eq tab key info
  rw [h]
  exact ⟨hasLimit_eq tab.cols info, hasOffset_eq tab.cols info, rfl, rfl⟩

theorem bestIndexPlan_nargs : (bestIndexPlan tab key info).nargs =
    valueArgs tab.cols info + tailArgs false info.aConstraint := by
  obtain ⟨mask, h⟩ := bestIndexPlan_eq tab key info
  rw [h]
  exact compiled_nargs tab.cols info

end Fields

/-! ## A term on the server is a constraint in SQLite -/

section Server

variable {tab : VmsVtab} {info : IndexInfo} {t : Table α} {q : Sides α} {argv : List FilterArg}

/-- The conjunct of every IN that was pushed is TRUE of the rows of which the constraint holds. -/
def InAgrees (tab : VmsVtab) (info : IndexInfo) (t : Table α) (q : Sides α) (argv : List FilterArg) : Prop :=
  ∀ (k : Nat) (p : Pushed) (tm : VmsPlanTerm) (c : IndexConstraint),
    (pushed tab.cols info)[k]? = some p → p.op = .in_ →
    (pushTerms 0 (pushed tab.cols info))[k]? = some tm → info.aConstraint[p.index]? = some c →
    ∀ row ∈ t.rows, ((condOf tab.cols (adjustTerm argv tm)).eval t row (termValue argv tm) = some true ↔
      holds q c p.index row = true)

theorem inAgrees_of_none (h : ∀ p ∈ pushed tab.cols info, p.op ≠ .in_) : InAgrees tab info t q argv :=
  fun _ p _ _ hp hop => absurd hop (h p (mem_of_getElem? hp))

/-- The values SQLite passes, as xFilter takes them: no argument was refused, and an IN that was pushed is
    sent as what it means. -/
structure Passed (tab : VmsVtab) (info : IndexInfo) (t : Table α) (q : Sides α) (argv : List FilterArg) :
    Prop where
  ins : InAgrees tab info t q argv
  args : ArgvFor (vmsPlanCompile tab.cols info).usage q argv
  mapped : ∃ xs, (pushTerms 0 (pushed tab.cols info)).mapM (mapTerm argv) = some xs

variable {j : Nat} {c : VmsMetaColumn}

theorem cell_serverName (hr : Remote tab t) (hc : tab.cols[j]? = some c) (row : List (Cell α)) :
    t.cell row (serverName c) = row[j]? := by
  obtain ⟨hj, rfl⟩ := List.getElem?_eq_some_iff.mp hc
  have hj' : j < t.names.length := by rw [hr.names, length_map]; exact hj
  have hname : t.names[j] = serverName tab.cols[j] := by
    simp [hr.names]
  rw [Table.cell, ← hname, t.nodup.idxOf_getElem j hj']

theorem serverName_mem (hr : Remote tab t) (hc : tab.cols[j]? = some c) : serverName c ∈ t.names := by
  rw [hr.names]
  exact mem_map_of_mem (mem_of_getElem? hc)

theorem columnAt_nat (cols : List VmsMetaColumn) (j : Nat) : columnAt cols j = cols[j]? := by
  rw [columnAt, if_neg (by omega), Int.toNat_natCast]

variable {cols : List VmsMetaColumn}

theorem columnName_nat (hc : cols[j]? = some c) : columnName cols j = serverName c :=
  columnName_of_columnAt ((columnAt_nat cols j).trans hc)

theorem columnCell_nat (row : List (Cell α)) (j : Nat) : columnCell row j = row[j]? := by
  rw [columnCell, if_neg (by omega), Int.toNat_natCast]

variable {row : List (Cell α)}

/-- A row has a cell in every column. -/
theorem row_cell (hr : Remote tab t) (hrow : row ∈ t.rows) (hj : j < tab.cols.length) : ∃ x, row[j]? = some x := by
  have hlen : row.length = tab.cols.length := by
    rw [t.width row hrow, hr.names, length_map]
  exact ⟨_, getElem?_eq_getElem (by omega)⟩

theorem colIsInt_column (h : colIsInt cols j = true) : ∃ c, cols[j]? = some c ∧ c.vtype = .int64 := by
  rw [colIsInt, Int.toNat_natCast] at h
  cases hc : cols[j]? with
  | none => simp [hc] at h
  | some c =>
    rw [hc] at h
    exact ⟨c, rfl, by simpa using h⟩

/-- An INT64 column holds numbers, by its name too. -/
theorem numeric_column (hr : Remote tab t) (hc : tab.cols[j]? = some c) (hint : c.vtype = .int64) :
    t.Numeric (serverName c) := by
  intro row hrow
  obtain ⟨x, hx⟩ := row_cell hr hrow (List.getElem?_eq_some_iff.mp hc).1
  exact ⟨x, by rw [cell_serverName hr hc, hx], hr.ints j c hc hint row hrow x hx⟩

variable {p : Pushed}

/-- An IN that was pushed was an IN. -/
theorem pushed_in (cols : List VmsMetaColumn) (info : IndexInfo) (hp : p ∈ pushed cols info) (hop : p.op = .in_) :
    ∃ c, info.aConstraint[p.index]? = some c ∧ c.op = .in_ ∧ c.iColumn = p.col ∧
      p.col < cols.length ∧ colIsInt cols p.col = true := by
  obtain ⟨c, hc, _, hicol, hlt, ⟨hcmp, _⟩ | ⟨hcop, _, hint⟩⟩ := mem_pushed cols info hp
  · rw [hop] at hcmp
    cases h : c.op <;> simp [h, compareOp] at hcmp
  · exact ⟨c, hc, hcop, hicol, hlt, hint⟩

/-- Without op 31 none is pushed. -/
theorem pushed_ne_in {cols : List VmsMetaColumn} {info : IndexInfo} (h : ∀ c ∈ info.aConstraint, c.op ≠ .in_) :
    ∀ p ∈ pushed cols info, p.op ≠ .in_ := by
  intro p hp hop
  obtain ⟨c, hc, hcop, _⟩ := pushed_in cols info hp hop
  exact h c (mem_of_getElem? hc) hcop

variable {k : Nat} {tm : VmsPlanTerm}

/-- The slot of `argv` that a term reads is the one the usage of its constraint names. -/
theorem pushed_slot (argv : List FilterArg) (hp : (pushed tab.cols info)[k]? = some p)
    (htm : (pushTerms 0 (pushed tab.cols info))[k]? = some tm) (hnull : p.op.isNullTest = false) :
    ∃ j u, (vmsPlanCompile tab.cols info).usage[p.index]? = some u ∧ u.omitted = true ∧
      u.argvIndex = j + 1 ∧ argAt argv tm.argIndex = argv[j]? := by
  obtain ⟨tm', htm', _, _, harg⟩ := pushTerms_getElem? (n := 0) hp
  obtain rfl : tm = tm' := some.inj (htm.symm.trans htm')
  have hnonneg := harg hnull
  refine ⟨tm.argIndex.toNat, _, usage_pushed tab.cols info hp (by rw [compiled_terms]; exact htm), rfl,
    by simp only; omega, ?_⟩
  rw [argAt]
  split_ifs with h
  · rfl
  · exact (getElem?_eq_none (by omega)).symm

/-- What the `k`-th constraint pushed has become. -/
theorem pushed_term (hq : Passed tab info t q argv) (hp : (pushed tab.cols info)[k]? = some p) (hin : p.op ≠ .in_) :
    ∃ tm, (pushTerms 0 (pushed tab.cols info))[k]? = some tm ∧ tm.col = p.col ∧ tm.op = p.op ∧
      adjustTerm argv tm = tm ∧
      (p.op.isNullTest = false → (q.rhs p.index).numericInteger = some (termValue argv tm)) := by
  obtain ⟨tm, htm, hcol, hop, harg⟩ := pushTerms_getElem? (n := 0) hp
  have hnoIn : tm.op ≠ .in_ := by rw [hop]; exact hin
  refine ⟨tm, htm, hcol, hop, adjustTerm_kept fun h => absurd h hnoIn, fun hnull => ?_⟩
  obtain ⟨j, u, husage, _, hj, hat⟩ := pushed_slot argv hp htm hnull
  obtain ⟨a, ha, hvalue⟩ := map_eq_some_iff.mp (hq.args p.index j u husage hj)
  obtain ⟨xs, hxs⟩ := hq.mapped
  have hv := mapTerm_integer hxs (mem_of_getElem? htm) (by rw [hop]; exact hnull) hnoIn
  rw [hat, ha, bind_some] at hv
  rw [← hvalue, hv]

/-- **A conjunct is TRUE of a row exactly when its constraint holds.** -/
theorem cond_eval (hr : Remote tab t) (hq : Passed tab info t q argv) (hp : (pushed tab.cols info)[k]? = some p)
    (htm : (pushTerms 0 (pushed tab.cols info))[k]? = some tm) {c : IndexConstraint}
    (hc : info.aConstraint[p.index]? = some c) (hrow : row ∈ t.rows) :
    (condOf tab.cols (adjustTerm argv tm)).eval t row (termValue argv tm) = some true ↔
      holds q c p.index row = true := by
  by_cases hin : p.op = .in_
  · exact hq.ins k p tm c hp hin htm hc row hrow
  obtain ⟨tm', htm', hcol, hop, hadjust, hvalue⟩ := pushed_term hq hp hin
  obtain rfl : tm = tm' := some.inj (htm.symm.trans htm')
  obtain ⟨d, hd, _, hicol, hlt, hkind⟩ := mem_pushed tab.cols info (mem_of_getElem? hp)
  obtain rfl : c = d := some.inj (hc.symm.trans hd)
  obtain ⟨mc, hmc⟩ : ∃ mc, tab.cols[p.col]? = some mc := ⟨_, getElem?_eq_getElem hlt⟩
  obtain ⟨x, hx⟩ := row_cell hr hrow hlt
  have hcell : t.cell row (columnName tab.cols tm.col) = some x := by
    rw [hcol, columnName_nat hmc, cell_serverName hr hmc, hx]
  have hcolumn : columnCell row c.iColumn = some x := by rw [hicol, columnCell_nat, hx]
  have hneg : ¬ tm.col < 0 := by rw [hcol]; omega
  have hcompare : ∀ o, cmpOf c.op = some o → colIsInt tab.cols p.col = true →
      p.op.isNullTest = false → (holds q c p.index row = true ↔ o.eval x (termValue argv tm) = some true) := by
    intro o ho hint hnull
    obtain ⟨mc', hmc', hvtype⟩ := colIsInt_column hint
    have hnumber := hr.ints p.col mc' hmc' hvtype row hrow x hx
    rw [holds, hcolumn, hvalue hnull]
    cases hcop : c.op <;> rw [hcop] at ho <;> simp [cmpOf] at ho <;> simp [ho, cmpOf, hnumber]
  rw [hadjust, condOf, if_neg hneg, hop]
  rcases hkind with ⟨hcmp, hint⟩ | ⟨_, hin', _⟩
  · cases hcop : c.op <;> rw [hcop] at hcmp <;> simp only [compareOp, Option.some.injEq, reduceCtorEq] at hcmp
    case isNull =>
      rw [← hcmp]
      simp [Cond.eval, hcell, holds, hcop, hcolumn]
    case isNotNull =>
      rw [← hcmp]
      simp [Cond.eval, hcell, holds, hcop, hcolumn]
    all_goals
      rw [← hcmp] at hint ⊢
      rw [hcompare _ (by rw [hcop]; rfl) (by simpa [VmsPlanOp.isNullTest] using hint) (by rw [← hcmp]; rfl)]
      simp [Cond.eval, hcell]
  · exact absurd hin' hin

/-- The constraints that were pushed. -/
def pushedHold (tab : VmsVtab) (info : IndexInfo) (q : Sides α) (row : List (Cell α)) : Bool :=
  (pushed tab.cols info).all fun p =>
    (info.aConstraint[p.index]?).elim true fun c => holds q c p.index row

/-- **Nothing is lost between the two**: a constraint was pushed, or is left to SQLite, or is a LIMIT or
    an OFFSET. -/
theorem allHold_eq (tab : VmsVtab) : allHold info q = fun row : List (Cell α) =>
    pushedHold tab info q row && leftHold info (vmsPlanCompile tab.cols info).usage q row := by
  funext row
  rw [Bool.eq_iff_iff, Bool.and_eq_true]
  simp only [allHold, pushedHold, leftHold, List.all_eq_true, Prod.forall, mem_zipIdx_iff_getElem?, Bool.or_eq_true]
  constructor
  · intro h
    refine ⟨fun p hp => ?_, fun c i hc => .inr (h c i hc)⟩
    obtain ⟨c, hc, _⟩ := mem_pushed tab.cols info hp
    rw [hc]
    exact h c p.index hc
  · rintro ⟨hpushed, hleft⟩ c i hc
    by_cases hl : c.op = .limit
    · simp [holds, hl]
    by_cases ho : c.op = .offset
    · simp [holds, ho]
    by_cases hi : i ∈ (pushed tab.cols info).map Pushed.index
    · obtain ⟨p, hp, rfl⟩ := mem_map.mp hi
      have := hpushed p hp
      rw [hc] at this
      exact this
    · refine (hleft c i hc).resolve_left fun h => ?_
      rw [usage_other tab.cols info hc hl (fun h => absurd h ho) hi] at h
      cases h

variable {key : Option VmsStableKey}

/-- The conjuncts of the statement are the terms, as the arguments leave them. -/
theorem intended_conds : (intended tab (bestIndexPlan tab key info) argv).conds =
      (pushTerms 0 (pushed tab.cols info)).map fun tm => condOf tab.cols (adjustTerm argv tm) := by
  simp [intended, planSelect, adjustPlan, bestIndexPlan_terms, comp_def]

/-- The value meant for the marker of a term. -/
theorem markerValue_term (htm : (pushTerms 0 (pushed tab.cols info))[k]? = some tm) :
    markerValue (bestIndexPlan tab key info) argv (.cond k) = termValue argv tm := by
  simp [markerValue, bestIndexPlan_terms, htm]

/-- The conjuncts keep the rows of which the constraints pushed hold. -/
theorem whereKeeps_eq (hr : Remote tab t) (hq : Passed tab info t q argv) (hrow : row ∈ t.rows) :
    whereKeeps t (markerValue (bestIndexPlan tab key info) argv)
      (intended tab (bestIndexPlan tab key info) argv).conds row = pushedHold tab info q row := by
  rw [Bool.eq_iff_iff, whereKeeps_iff, intended_conds, pushedHold, List.all_eq_true]
  constructor
  · intro h p hp
    obtain ⟨k, hp'⟩ := mem_iff_getElem?.mp hp
    obtain ⟨tm, htm, _⟩ := pushTerms_getElem? (n := 0) hp'
    obtain ⟨c, hc, _⟩ := mem_pushed tab.cols info hp
    have hk := h k _ (by rw [getElem?_map, htm]; rfl)
    rw [markerValue_term htm, cond_eval hr hq hp' htm hc hrow] at hk
    rw [hc]
    exact hk
  · intro h k cond hcond
    rw [getElem?_map] at hcond
    obtain ⟨tm, htm, rfl⟩ := Option.map_eq_some_iff.mp hcond
    obtain ⟨p, hp⟩ := pushTerms_pushed htm
    obtain ⟨c, hc, _⟩ := mem_pushed tab.cols info (mem_of_getElem? hp)
    rw [markerValue_term htm, cond_eval hr hq hp htm hc hrow]
    have hholds := h p (mem_of_getElem? hp)
    rw [hc] at hholds
    exact hholds

/-! ## The order of the server is the order of SQLite -/

theorem orderLt_eq (hr : Remote tab t) (coll : Collation α) {o : IndexOrderBy}
    (h0 : 0 ≤ o.iColumn) (hint : colIsInt tab.cols o.iColumn = true) {a b : List (Cell α)}
    (ha : a ∈ t.rows) (hb : b ∈ t.rows) :
    orderLt t (columnName tab.cols o.iColumn, o.desc) a b = sortLt coll o a b := by
  obtain ⟨j, hj⟩ := Int.eq_ofNat_of_zero_le h0
  rw [hj] at hint
  obtain ⟨c, hc, hvtype⟩ := colIsInt_column hint
  have hlt := (List.getElem?_eq_some_iff.mp hc).1
  obtain ⟨x, hx⟩ := row_cell hr ha hlt
  obtain ⟨y, hy⟩ := row_cell hr hb hlt
  have hxn := hr.ints j c hc hvtype a ha x hx
  have hyn := hr.ints j c hc hvtype b hb y hy
  have hname : columnName tab.cols o.iColumn = serverName c := hj ▸ columnName_nat hc
  have hca : columnCell a o.iColumn = some x := by rw [hj, columnCell_nat, hx]
  have hcb : columnCell b o.iColumn = some y := by rw [hj, columnCell_nat, hy]
  have hab := coll.numbers o.iColumn a b x y hca hcb hxn hyn
  have hba := coll.numbers o.iColumn b a y x hcb hca hyn hxn
  simp [orderLt, sortLt, hname, cell_serverName hr hc, hx, hy, hab, hba]

/-- **A consumed ORDER BY** sorts on the server as SQLite would have. -/
theorem orderLe_eq (hr : Remote tab t) (coll : Collation α)
    (horder : compileOrder tab.cols info ≠ []) {a b : List (Cell α)} (ha : a ∈ t.rows) (hb : b ∈ t.rows) :
    orderLe t (intended tab (bestIndexPlan tab key info) argv).order a b = sortLe coll info.aOrderBy a b := by
  obtain ⟨heq, hall⟩ := (compileOrder_cases tab.cols info).resolve_left horder
  have horders : (intended tab (bestIndexPlan tab key info) argv).order =
      info.aOrderBy.map fun o => (columnName tab.cols o.iColumn, o.desc) := by
    simp [intended, planSelect, adjustPlan, bestIndexPlan_order, heq, comp_def]
  rw [orderLe, horders, sortLe, List.map_map]
  refine lexLe_congr fun o ho => ?_
  obtain ⟨h0, _, hint⟩ := hall o ho
  exact ⟨orderLt_eq hr coll h0 hint ha hb, orderLt_eq hr coll h0 hint hb ha⟩

/-! ## Running the statement -/

theorem intended_typed (hr : Remote tab t) : (intended tab (bestIndexPlan tab key info) argv).Typed t := by
  constructor
  · intro cond hcond
    rw [intended_conds] at hcond
    obtain ⟨tm, htm, rfl⟩ := mem_map.mp hcond
    obtain ⟨k, p, hp, _, hcol, hop⟩ := mem_pushTerms htm
    -- an IN that became a contradiction names no column
    by_cases hkept : TermKept argv tm
    swap
    · rw [condOf, if_pos (adjustTerm_not_kept hkept)]
      exact trivial
    rw [adjustTerm_kept hkept, condOf, if_neg (by rw [hcol]; omega), hop]
    obtain ⟨c, _, _, _, hcollt, hkind⟩ := mem_pushed tab.cols info (mem_of_getElem? hp)
    obtain ⟨mc, hmc⟩ : ∃ mc, tab.cols[p.col]? = some mc := ⟨_, getElem?_eq_getElem hcollt⟩
    have hin := serverName_mem hr hmc
    have hnum : colIsInt tab.cols p.col = true → t.Numeric (serverName mc) := by
      intro hint
      obtain ⟨mc', hmc', hvtype⟩ := colIsInt_column hint
      obtain rfl : mc = mc' := Option.some.inj (hmc.symm.trans hmc')
      exact numeric_column hr hmc hvtype
    rw [hcol, columnName_nat hmc]
    rcases hkind with ⟨hcmp, hint⟩ | ⟨_, hinop, hint⟩
    · cases hpop : p.op <;> rw [hpop] at hint <;>
        simp only [VmsPlanOp.isNullTest, Bool.true_or, Bool.false_or] at hint <;>
        first
          | exact trivial
          | exact hin
          | exact ⟨hin, hnum hint⟩
    · rw [hinop]
      exact ⟨hin, hnum hint⟩
  · intro o ho
    rcases compileOrder_cases tab.cols info with hnil | ⟨heq, hall⟩
    · simp [intended, planSelect, adjustPlan, bestIndexPlan_order, hnil] at ho
    · simp only [intended, planSelect, adjustPlan, bestIndexPlan_order, heq, List.map_map, List.mem_map] at ho
      obtain ⟨item, hitem, rfl⟩ := ho
      obtain ⟨h0, _, hint⟩ := hall item hitem
      obtain ⟨j, hj⟩ := Int.eq_ofNat_of_zero_le h0
      rw [hj] at hint
      obtain ⟨c, hc, hvtype⟩ := colIsInt_column hint
      simp only [comp, hj, columnName_nat hc]
      exact ⟨serverName_mem hr hc, numeric_column hr hc hvtype⟩

section Sent

variable {env : FilterEnv} {shared : Bool} {sql : List Nat} {params : List Int}
    (hargs : valueArgs tab.cols info + tailArgs false info.aConstraint ≤ vmsPlanMaxArgs)
    (hnames : ∀ c, EmitsColumn tab.cols (bestIndexPlan tab key info) argv c → 93 ∉ c.name)
    (htop : ¬ writesTop (adjustPlan (bestIndexPlan tab key info) argv))
    (hsent : .sql shared sql params ∈
      (vmsVtabFilter tab env 1 (some (vmsPlanSerialize (bestIndexPlan tab key info))) argv).1)

include hargs hnames htop hsent

/-- **The statement that was sent**: the intended one, with the values meant for its markers. -/
theorem scan_read : readSelect sql = some (intended tab (bestIndexPlan tab key info) argv) ∧
      params = (intended tab (bestIndexPlan tab key info) argv).markers.map
        (markerValue (bestIndexPlan tab key info) argv) ∧
      ∃ xs, (pushTerms 0 (pushed tab.cols info)).mapM (mapTerm argv) = some xs := by
  have hfits := bestIndexPlan_fits tab key info
  have hreceived : received (bestIndexPlan tab key info) = bestIndexPlan tab key info := by
    rw [received, if_pos]
    rw [bestIndexPlan_nargs]
    exact_mod_cast hargs
  obtain ⟨m, hm, hbuild, hparams⟩ := filter_sent hfits hsent
  rw [hreceived] at hm
  have hplan : m.plan = adjustPlan (bestIndexPlan tab key info) argv := by rw [mapArgs_some hm]
  rw [hplan] at hbuild
  obtain ⟨hschema, htable, n, hbuild⟩ := buildFor_some hbuild
  have hlex := (build_lex_iff hbuild).mpr ⟨htop, (names_iff argv hfits.ops hschema htable).mpr hnames⟩
  refine ⟨?_, hparams.trans (sqlParams_eq tab hfits.ops hm htop), ?_⟩
  · rw [readSelect, hlex]
    exact parseSelect_toks _ (planSelect_wellFormed _ _ _ _ _)
  · obtain ⟨xs, hxs, _⟩ := map_eq_some_iff.mp hm
    rw [bestIndexPlan_terms] at hxs
    exact ⟨xs, hxs⟩

/-- **The rows it selects**: those of which the constraints pushed hold, in the order of the plan, cut to
    its window. -/
theorem scan_exec {db : List Nat → List Nat → Option (Table α)}
    (hr : Remote tab t) (hdb : db (utf8ToWide tab.schema) (utf8ToWide tab.table) = some t)
    (hin : InAgrees tab info t q argv) (hargv : ArgvFor (vmsPlanCompile tab.cols info).usage q argv)
    {offset : Nat} {limit : Option Nat} (hwindow : windowOf (intended tab (bestIndexPlan tab key info) argv)
      (markerValue (bestIndexPlan tab key info) argv) = some (offset, limit)) :
    ∃ s, readSelect sql = some s ∧ (∃ out, Exec db s params out) ∧ ∀ out, Exec db s params out →
      Answer t.rows (pushedHold tab info q) (orderLe t (intended tab (bestIndexPlan tab key info) argv).order)
        offset limit out := by
  obtain ⟨hread, rfl, hmapped⟩ := scan_read hargs hnames htop hsent
  have hkeep : ∀ r ∈ t.rows, whereKeeps t (markerValue (bestIndexPlan tab key info) argv)
      (intended tab (bestIndexPlan tab key info) argv).conds r = pushedHold tab info q r :=
    fun r hrow => whereKeeps_eq hr ⟨hin, hargv, hmapped⟩ hrow
  refine ⟨_, hread, ?_, fun out hout => ?_⟩
  · obtain ⟨out, hout⟩ := exists_answer t.rows (pushedHold tab info q) offset limit (orderLe_total t _)
      (orderLe_trans t _)
    refine ⟨out, (exec_map_iff hdb (intended_typed hr) _ out).mpr ⟨offset, limit, hwindow, ?_⟩⟩
    exact hout.congr (fun r hrow => (hkeep r hrow).symm) fun _ _ _ _ => rfl
  · obtain ⟨offset', limit', hw, hanswer⟩ := (exec_map_iff hdb (intended_typed hr) _ out).mp hout
    cases hw.symm.trans hwindow
    exact hanswer.congr hkeep fun _ _ _ _ => rfl

end Sent

end Server

/-! ## Without LIMIT and OFFSET -/

/-- **The scan is worth a full scan**: the text is a statement, it has an answer, and every answer,
    filtered by what is left to SQLite, has exactly the rows of the table of which all constraints hold,
    in the order asked for when that was said to be done. -/
def FilterPreserved (tab : VmsVtab) (info : IndexInfo) (t : Table α) (q : Sides α)
    (coll : Collation α) (db : List Nat → List Nat → Option (Table α)) (sql : List Nat)
    (params : List Int) : Prop :=
  ∃ s, readSelect sql = some s ∧ (∃ out, Exec db s params out) ∧
    ∀ out, Exec db s params out →
      (out.filter (leftHold info (vmsPlanCompile tab.cols info).usage q)).Perm
          (t.rows.filter (allHold info q)) ∧
        ((vmsPlanCompile tab.cols info).orderByConsumed = true →
          (out.filter (leftHold info (vmsPlanCompile tab.cols info).usage q)).Pairwise
            fun a b => sortLe coll info.aOrderBy a b = true)

theorem tailArgs_none {cs : List IndexConstraint} (h : ∀ c ∈ cs, c.op ≠ .limit ∧ c.op ≠ .offset)
    (seen : Bool) : tailArgs seen cs = 0 := by
  induction cs with
  | nil => rfl
  | cons c cs ih =>
    obtain ⟨hl, ho⟩ := h c mem_cons_self
    rw [tailArgs, if_neg fun hc => hl hc.2.2.1, if_neg fun hc => ho hc.2.2.1]
    exact ih (forall_mem_cons.mp h).2

theorem valueArgs_le (cols : List VmsMetaColumn) (info : IndexInfo) : valueArgs cols info ≤ vmsPlanMaxArgs :=
  le_trans (length_filter_le ..) (pushed_length cols info)

section NoTail

variable (tab : VmsVtab) (key : Option VmsStableKey) (info : IndexInfo) (argv : List FilterArg)
    (hops : ∀ c ∈ info.aConstraint, c.op ≠ .limit ∧ c.op ≠ .offset)

include hops

/-- Without LIMIT and OFFSET the plan has neither. -/
theorem no_window : (adjustPlan (bestIndexPlan tab key info) argv).hasLimit = false ∧
      (adjustPlan (bestIndexPlan tab key info) argv).hasOffset = false := by
  have hlimit : consumesLimit info.aConstraint = false := by
    rw [consumesLimit, List.any_eq_false]
    intro c hc htakes
    simp only [takesLimit, Bool.and_eq_true, beq_iff_eq] at htakes
    exact (hops c hc).1 htakes.2
  have hoffset := consumesOffset_false tab.cols hlimit
  obtain ⟨hlimit', hoffset', _⟩ := bestIndexPlan_tail tab key info
  exact ⟨by simp [adjustPlan, hlimit', hlimit], by simp [adjustPlan, hoffset', hoffset]⟩

/-- Then the arguments always fit, and no TOP is written. -/
theorem no_tail : valueArgs tab.cols info + tailArgs false info.aConstraint ≤ vmsPlanMaxArgs ∧
      ¬ writesTop (adjustPlan (bestIndexPlan tab key info) argv) := by
  rw [tailArgs_none hops false]
  refine ⟨valueArgs_le tab.cols info, fun h => ?_⟩
  simp [writesTop, (no_window tab key info argv hops).1] at h

end NoTail

/-- Pushdown preserves meaning, as long as every IN that was pushed is sent as what it means. -/
theorem preserves_of_inAgrees {tab : VmsVtab} {key : Option VmsStableKey} {info : IndexInfo}
    {env : FilterEnv} {argv : List FilterArg} {t : Table α} {q : Sides α} {coll : Collation α}
    {db : List Nat → List Nat → Option (Table α)} (hr : Remote tab t)
    (hdb : db (utf8ToWide tab.schema) (utf8ToWide tab.table) = some t)
    (hnames : ∀ c, EmitsColumn tab.cols (bestIndexPlan tab key info) argv c → 93 ∉ c.name)
    (hops : ∀ c ∈ info.aConstraint, c.op ≠ .limit ∧ c.op ≠ .offset) (hin : InAgrees tab info t q argv)
    (hargv : ArgvFor (vmsPlanCompile tab.cols info).usage q argv) {shared : Bool} {sql : List Nat} {params : List Int}
    (hsent : .sql shared sql params ∈
      (vmsVtabFilter tab env 1 (some (vmsPlanSerialize (bestIndexPlan tab key info))) argv).1) :
    FilterPreserved tab info t q coll db sql params := by
  obtain ⟨hargs, htop⟩ := no_tail tab key info argv hops
  obtain ⟨hadjusted, hnooffset⟩ := no_window tab key info argv hops
  obtain ⟨s, hread, hsome, hexec⟩ := scan_exec (q := q) hargs hnames htop hsent hr hdb hin hargv
    (show _ = some (0, none) by simp [windowOf, intended, planSelect, hadjusted, hnooffset])
  refine ⟨s, hread, hsome, fun out hout => ?_⟩
  have hanswer := hexec out hout
  rw [allHold_eq tab]
  refine ⟨(hanswer.then_filter _).1, fun hconsumed => ?_⟩
  have horder : compileOrder tab.cols info ≠ [] := by
    have : (!(compileOrder tab.cols info).isEmpty) = true := hconsumed
    simpa using this
  exact ((hanswer.congr (fun _ _ => rfl) fun a ha b hb =>
    orderLe_eq hr coll horder ha hb).then_filter _).2

/-- **WHERE and ORDER BY pushdown preserves meaning.** -/
theorem pushdown_preserves (tab : VmsVtab) (key : Option VmsStableKey) (info : IndexInfo)
    (env : FilterEnv) (argv : List FilterArg) (t : Table α) (q : Sides α) (coll : Collation α)
    (db : List Nat → List Nat → Option (Table α)) (hr : Remote tab t)
    (hdb : db (utf8ToWide tab.schema) (utf8ToWide tab.table) = some t)
    (hnames : ∀ c ∈ tab.cols, 93 ∉ c.name)
    (hops : ∀ c ∈ info.aConstraint, c.op ≠ .limit ∧ c.op ≠ .offset ∧ c.op ≠ .in_)
    (hargv : ArgvFor (vmsPlanCompile tab.cols info).usage q argv) {shared : Bool} {sql : List Nat}
    {params : List Int}
    (hsent : .sql shared sql params ∈
      (vmsVtabFilter tab env 1 (some (vmsPlanSerialize (bestIndexPlan tab key info))) argv).1) :
    FilterPreserved tab info t q coll db sql params := by
  exact preserves_of_inAgrees hr hdb (fun c hc => hnames c (emitsColumn_mem hc))
    (fun c hc => ⟨(hops c hc).1, (hops c hc).2.1⟩) (inAgrees_of_none (pushed_ne_in fun c hc => (hops c hc).2.2))
      hargv hsent

/-- One argument, for the only constraint. -/
theorem single_slot {i j : Nat} {u : ConstraintUsage} (hu : [(⟨1, true⟩ : ConstraintUsage)][i]? = some u)
    (hj : u.argvIndex = j + 1) : i = 0 ∧ j = 0 := by
  obtain ⟨hi, rfl⟩ := List.getElem?_eq_some_iff.mp hu
  rw [List.length_singleton] at hi
  obtain rfl : i = 0 := by omega
  exact ⟨rfl, by simpa using hj.symm⟩

theorem argv_single {q : Sides α} {a : FilterArg} (h : a.value = q.rhs 0) : ArgvFor [⟨1, true⟩] q [a] := by
  intro i j u hu hj
  obtain ⟨rfl, rfl⟩ := single_slot hu hj
  exact congrArg some h

/-- A collation that knows numbers only. -/
def rankCollation (α : Type) : Collation α where
  lt i a b := ((columnCell a i).getD .null).lt ((columnCell b i).getD .null)
  weak i := Cell.lt_weak.on fun row => (columnCell row i).getD .null
  numbers i a b x y ha hb _ _ := by rw [ha, hb]; rfl

/-- `a > ? AND a LIKE ? ORDER BY a DESC`; the LIKE is left to SQLite. -/
def scanInfo : IndexInfo :=
  { aConstraint := [⟨0, .gt, true⟩, ⟨0, .other 65, true⟩], aOrderBy := [⟨0, true⟩], colUsed := 1 }

def scanTable : Table Unit where
  names := [[97]]
  rows := [[.int 1], [.null], [.int 7], [.int 5]]
  nodup := by decide
  width := by decide

def scanSides : Sides Unit := { rhs := fun _ => .integer 1, other := fun _ row => row != [.int 5] }

theorem remote_scanTable : Remote smallTab scanTable where
  names := by decide
  ints := by
    intro i c hc _ r hr x hx
    have hi : i = 0 := by
      have := (List.getElem?_eq_some_iff.mp hc).1
      simp only [smallTab, length_singleton] at this
      omega
    subst hi
    simp only [scanTable, mem_cons, not_mem_nil, or_false] at hr
    rcases hr with rfl | rfl | rfl | rfl <;> (simp at hx; subst hx; rfl)

theorem pushdown_preserves_scan :
    FilterPreserved smallTab scanInfo scanTable scanSides (rankCollation Unit)
      (fun _ _ => some scanTable) (wide "SELECT [a] FROM [s].[t] WHERE [a] > ? ORDER BY [a] DESC")
      [1] := by
  refine pushdown_preserves smallTab none scanInfo {} [integerArg 1] scanTable scanSides
    (rankCollation Unit) _ remote_scanTable rfl (by decide) (by decide) ?_
    (show (.sql false _ _ : Sent) ∈ _ by decide +kernel)
  have husage : (vmsPlanCompile smallTab.cols scanInfo).usage = [⟨1, true⟩, {}] := by decide +kernel
  rw [husage]
  intro i j u hu hj
  match i with
  | 0 =>
    obtain rfl : (⟨1, true⟩ : ConstraintUsage) = u := by simpa using hu
    obtain rfl : j = 0 := by simpa using hj.symm
    rfl
  | 1 =>
    obtain rfl : ({} : ConstraintUsage) = u := by simpa using hu
    cases hj
  | i + 2 => cases hu

end VirtualMssql.Pushdown
