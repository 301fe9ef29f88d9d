/-
  VALUES OF ANY TYPE — what a constraint on an integer column means when SQLite's value is not an integer.

  Over a local copy of the table SQLite applies the column's affinity to the value and compares: text that
  reads as a number is that number, other text and blobs are above all numbers, NULL compares with nothing.
  The plan decides to push, and to omit SQLite's own check, from the type of the COLUMN; the values are seen
  only by xFilter, which refuses a comparison with a value that is not an integer (`scanAgrees_iff`).

  An IN comes to xBestIndex as an EQ, and xFilter is called once for each value of the list.  The rows of all
  calls together are those of the query exactly if every one of these values is an integer (`inAgrees_iff`).

  How SQLite reads a number from a text is a parameter that agrees with `textInteger`.
-/
import VirtualMssql.Pushdown
import Mathlib.Data.Rat.Cast.Order

namespace VirtualMssql.Affinity

open Plan VirtualMssql.Filter TSql Query List Option
open Utf Pushdown

variable {α : Type}

/-! ## SQLite's comparison -/

/-- How SQLite reads a number from the whole of a text. -/
structure NumberReader where
  read : List Nat → Option ℚ
  integers : ∀ t i, textInteger t = some i → read t = some (i : ℚ)

/-- Where a value stands against the integers of a column. -/
inductive Rank
  | unknown
  | number (r : ℚ)
  | above
  deriving DecidableEq

variable (rd : NumberReader)

def rankOf : SqliteValue → Rank
  | .null => .unknown
  | .integer i => .number i
  | .real r => .number r
  | .text t => (rd.read t).elim .above .number
  | .blob _ => .above

/-- `n op v`, for the rank of `v`. -/
def rankHolds (op : CmpOp) (n : Int) : Rank → Bool
  | .unknown => false
  | .number r =>
    match op with
    | .eq => (n : ℚ) = r
    | .lt => (n : ℚ) < r
    | .le => (n : ℚ) ≤ r
    | .gt => r < (n : ℚ)
    | .ge => r ≤ (n : ℚ)
  | .above => op = .lt ∨ op = .le

theorem rankOf_integer {v : SqliteValue} {i : Int} (h : v.numericInteger = some i) : rankOf rd v = .number i := by
  cases v with
  | integer j => rw [rankOf, some.inj h]
  | text t => rw [rankOf, rd.integers t i h]; rfl
  | null | real r | blob b => simp [SqliteValue.numericInteger] at h

/-- Against an integer SQLite compares as the server does. -/
theorem rankHolds_integer (op : CmpOp) (n i : Int) : rankHolds op n (.number i) = op.holds n i := by
  cases op <;> simp [rankHolds, CmpOp.holds]

/-! ## The query over a local copy -/

/-- The right sides of the constraints, and the meaning of those that are no comparisons of a column. -/
structure LocalQuery (α : Type) where
  rhs : Nat → SqliteValue
  rest : Nat → List (Cell α) → Bool

/-- The constraint, number `i`, over a local copy. -/
def meaning (lq : LocalQuery α) (c : IndexConstraint) (i : Nat) (row : List (Cell α)) : Bool :=
  match columnCell row c.iColumn with
  | some (.int n) => (cmpOf c.op).elim (lq.rest i row) fun o => rankHolds o n (rankOf rd (lq.rhs i))
  | some .null => if (cmpOf c.op).isSome then false else lq.rest i row
  | _ => lq.rest i row

/-- The query, as the constraints of xBestIndex have it. -/
def sidesOf (info : IndexInfo) (lq : LocalQuery α) : Sides α where
  rhs := lq.rhs
  other i row := (info.aConstraint[i]?).elim (lq.rest i row) fun c => meaning rd lq c i row

variable {c : IndexConstraint}

/-- A comparison looks at the integer SQLite takes its value for, when there is one. -/
theorem holds_compare (q : Sides α) {o : CmpOp} (ho : cmpOf c.op = some o) (i : Nat)
    (row : List (Cell α)) : holds q c i row = match columnCell row c.iColumn, (q.rhs i).numericInteger with
      | some x, some v => if x.isNumber then o.eval x v == some true else q.other i row
      | _, _ => q.other i row := by
  rw [holds]
  cases hcop : c.op <;> rw [hcop] at ho <;> simp only [cmpOf, Option.some.injEq, reduceCtorEq] at ho <;>
    subst ho <;> cases columnCell row c.iColumn <;> cases (q.rhs i).numericInteger <;> rfl

/-- **The comparisons have SQLite's meaning**, whatever the value. -/
theorem holds_sidesOf {info : IndexInfo} {lq : LocalQuery α} {i : Nat} (hc : info.aConstraint[i]? = some c)
    (hop : (cmpOf c.op).isSome = true) (row : List (Cell α)) :
    holds (sidesOf rd info lq) c i row = meaning rd lq c i row := by
  have hother : (sidesOf rd info lq).other i row = meaning rd lq c i row := by simp [sidesOf, hc]
  obtain ⟨o, ho⟩ := isSome_iff_exists.mp hop
  rw [holds_compare _ ho, hother]
  cases hx : columnCell row c.iColumn with
  | none => rfl
  | some x =>
    cases hv : ((sidesOf rd info lq).rhs i).numericInteger with
    | none => rfl
    | some v =>
      -- both look at an integer
      have hrank : rankOf rd (lq.rhs i) = .number v := rankOf_integer rd hv
      cases x with
      | null => simp [meaning, hx, ho, Cell.isNumber, CmpOp.eval]
      | other a => simp [Cell.isNumber]
      | int n => simp [meaning, hx, ho, Cell.isNumber, CmpOp.eval, hrank, rankHolds_integer]

/-- A reader for texts that are integers. -/
def integerReader : NumberReader where
  read t := (textInteger t).map fun i => (i : ℚ)
  integers t i h := by rw [h]; rfl

/-! ## Comparisons -/

section Compare

variable {tab : VmsVtab} {info : IndexInfo} {argv : List FilterArg}

/-- A plan that fits is the plan xFilter works with. -/
theorem filter_eq_filterPlan (key : Option VmsStableKey) (env : FilterEnv) (argv : List FilterArg)
    (hargs : valueArgs tab.cols info + tailArgs false info.aConstraint ≤ vmsPlanMaxArgs) :
    vmsVtabFilter tab env 1 (some (vmsPlanSerialize (bestIndexPlan tab key info))) argv =
      filterPlan tab env (bestIndexPlan tab key info) argv := by
  rw [vmsVtabFilter, if_pos rfl, bind_some, deserialize_serialize (bestIndexPlan_fits tab key info), if_pos]
  rw [bestIndexPlan_nargs]
  exact_mod_cast hargs

/-- **What is refused**: a comparison whose value is not an integer. -/
theorem mapArgs_isSome_iff (key : Option VmsStableKey) {q : Sides α}
    (hargv : ArgvFor (vmsPlanCompile tab.cols info).usage q argv) :
    (mapArgs (bestIndexPlan tab key info) argv).isSome = true ↔
      ∀ p ∈ pushed tab.cols info, p.op.isNullTest = false → p.op ≠ .in_ → (q.rhs p.index).numericInteger ≠ none := by
  -- the argument of the `k`-th term is the right side of its constraint
  have hterm : ∀ (k : Nat) (p : Pushed) (tm : VmsPlanTerm), (pushed tab.cols info)[k]? = some p →
      (pushTerms 0 (pushed tab.cols info))[k]? = some tm → tm.op = p.op → ((mapTerm argv tm).isSome = true ↔
        (p.op.isNullTest = false → p.op ≠ .in_ → (q.rhs p.index).numericInteger ≠ none)) := by
    intro k p tm hp htm hop
    rw [mapTerm_isSome_iff, hop]
    refine imp_congr_right fun hnull => imp_congr_right fun hin => ?_
    obtain ⟨j, u, husage, _, hj, hat⟩ := pushed_slot argv hp htm hnull
    obtain ⟨a, ha, hvalue⟩ := map_eq_some_iff.mp (hargv p.index j u husage hj)
    rw [hat, ha, bind_some, hvalue, isSome_iff_ne_none]
  rw [mapArgs, isSome_map, bestIndexPlan_terms, mapM_isSome_iff]
  constructor
  · intro h p hp
    obtain ⟨k, hp⟩ := mem_iff_getElem?.mp hp
    obtain ⟨tm, htm, _, hop, _⟩ := pushTerms_getElem? (n := 0) hp
    exact (hterm k p tm hp htm hop).mp (h tm (mem_of_getElem? htm))
  · intro h tm htm
    obtain ⟨k, p, hp, htm, _, hop⟩ := mem_pushTerms htm
    exact (hterm k p tm hp htm hop).mpr (h p (mem_of_getElem? hp))

/-- How a scan ends whose values were taken. -/
theorem filterPlan_taken (tab : VmsVtab) (env : FilterEnv) {m : Mapped} {plan : VmsPlan}
    (hm : mapArgs plan argv = some m) :
    (filterPlan tab env plan argv).2 ≠
        .message "virtualmssql: non-integer value for pushed-down constraint (plan/arg mismatch)" ∧
      (env.acquire = none → ∀ sql, buildFor tab m.plan = some sql →
        .sql env.txn sql (sqlParams m) ∈ (filterPlan tab env plan argv).1) := by
  have hopen : ∀ first again, (∀ text, (openCursor env first again).2 ≠ .message text) ∧
      first ∈ (openCursor env first again).1 := by
    intro first again
    unfold openCursor
    repeat' split
    all_goals exact ⟨fun _ => by simp, by simp⟩
  rw [filterPlan, hm]
  simp only
  cases env.acquire with
  | some cls => exact ⟨by simp, fun h => absurd h (by simp)⟩
  | none =>
    cases hbuild : buildFor tab m.plan with
    | none => exact ⟨by simp, fun _ sql h => absurd h (by simp)⟩
    | some text =>
      refine ⟨(hopen _ _).1 _, fun _ sql h => ?_⟩
      cases h
      exact (hopen _ _).2

/-- The query with another right side for constraint `i`. -/
def LocalQuery.withRhs (lq : LocalQuery α) (i : Nat) (v : SqliteValue) : LocalQuery α :=
  { lq with rhs := Function.update lq.rhs i v }

end Compare

section Scan

variable (tab : VmsVtab) (key : Option VmsStableKey) (info : IndexInfo) (env : FilterEnv) (t : Table α)
  (coll : Collation α) (db : List Nat → List Nat → Option (Table α))

/-- **The scan agrees with a local copy**: the values are not refused, a statement goes out when the pool gives a
    connection and the text fits its buffer, and what SQLite makes of its rows is the answer over the copy. -/
structure ScanAgrees (argv : List FilterArg) (q : Sides α) : Prop where
  accepted : (vmsVtabFilter tab env 1 (some (vmsPlanSerialize (bestIndexPlan tab key info))) argv).2 ≠
    .message "virtualmssql: non-integer value for pushed-down constraint (plan/arg mismatch)"
  sends : env.acquire = none → buildFor tab (adjustPlan (bestIndexPlan tab key info) argv) ≠ none →
    ∃ sql params, .sql env.txn sql params ∈
      (vmsVtabFilter tab env 1 (some (vmsPlanSerialize (bestIndexPlan tab key info))) argv).1
  rows : ∀ shared sql params, .sql shared sql params ∈
      (vmsVtabFilter tab env 1 (some (vmsPlanSerialize (bestIndexPlan tab key info))) argv).1 →
    FilterPreserved tab info t q coll db sql params

/-- **Pushed comparisons and values of any type.** -/
theorem scanAgrees_iff (argv : List FilterArg) (lq : LocalQuery α) (hr : Remote tab t)
    (hdb : db (utf8ToWide tab.schema) (utf8ToWide tab.table) = some t)
    (hnames : ∀ c, EmitsColumn tab.cols (bestIndexPlan tab key info) argv c → 93 ∉ c.name)
    (hops : ∀ c ∈ info.aConstraint, c.op ≠ .limit ∧ c.op ≠ .offset)
    (hargv : ArgvFor (vmsPlanCompile tab.cols info).usage (sidesOf rd info lq) argv)
    (hin : InAgrees tab info t (sidesOf rd info lq) argv) :
    ScanAgrees tab key info env t coll db argv (sidesOf rd info lq) ↔
      ∀ p ∈ pushed tab.cols info, p.op.isNullTest = false → p.op ≠ .in_ → (lq.rhs p.index).numericInteger ≠ none := by
  obtain ⟨hargs, _⟩ := no_tail tab key info argv hops
  have hfilter := filter_eq_filterPlan key env argv hargs
  have hmap := mapArgs_isSome_iff key hargv
  constructor
  · intro h
    refine hmap.mp ?_
    rw [isSome_iff_ne_none]
    intro hnone
    refine h.accepted ?_
    rw [hfilter, filterPlan, hnone]
  · intro h
    obtain ⟨m, hm⟩ := isSome_iff_exists.mp (hmap.mpr h)
    obtain ⟨haccepted, hsends⟩ := filterPlan_taken tab env hm
    refine ⟨by rw [hfilter]; exact haccepted, fun hacquire hbuild => ?_, fun shared sql params hsent => ?_⟩
    · obtain ⟨sql, hsql⟩ := ne_none_iff_exists'.mp hbuild
      rw [hfilter]
      refine ⟨sql, sqlParams m, hsends hacquire sql ?_⟩
      rw [mapArgs_some hm]
      exact hsql
    · exact preserves_of_inAgrees hr hdb hnames hops hin hargv hsent

/-- `a < ?`. -/
def ltInfo : IndexInfo := { aConstraint := [⟨0, .lt, true⟩], colUsed := 1 }

def ltQuery (v : SqliteValue) : LocalQuery Unit :=
  { rhs := fun _ => v, rest := fun _ _ => true }

theorem usage_ltInfo : (vmsPlanCompile smallTab.cols ltInfo).usage = [⟨1, true⟩] := by decide +kernel

theorem pushed_ltInfo : pushed smallTab.cols ltInfo = [⟨0, 0, .lt⟩] := by decide +kernel

/-- `a < '5'` is scanned as over a local copy. -/
theorem scanAgrees_text : ScanAgrees smallTab none ltInfo {} scanTable (rankCollation Unit)
      (fun _ _ => some scanTable) [⟨.text [53], []⟩] (sidesOf integerReader ltInfo (ltQuery (.text [53]))) := by
  refine (scanAgrees_iff integerReader smallTab none ltInfo {} scanTable (rankCollation Unit) _ [⟨.text [53], []⟩]
    (ltQuery (.text [53])) remote_scanTable rfl (fun c hc => ?_) (by decide) (usage_ltInfo ▸ argv_single rfl)
    (inAgrees_of_none (by rw [pushed_ltInfo]; decide))).mpr ?_
  · rw [mem_singleton.mp (emitsColumn_mem hc)]
    decide
  · intro p _ _ _
    exact (by decide : (SqliteValue.text [53]).numericInteger ≠ none)

/-- `a < 1.5` is an error, and over a local copy it selects the row with a 1. -/
theorem scan_refuses_real :
    (vmsVtabFilter smallTab {} 1 (some (vmsPlanSerialize (bestIndexPlan smallTab none ltInfo)))
        [⟨.real (3 / 2), []⟩]) =
      ([], .message "virtualmssql: non-integer value for pushed-down constraint (plan/arg mismatch)") ∧
    scanTable.rows.filter (allHold ltInfo (sidesOf integerReader ltInfo (ltQuery (.real (3 / 2))))) = [[.int 1]] ∧
    ¬ ScanAgrees smallTab none ltInfo {} scanTable (rankCollation Unit) (fun _ _ => some scanTable)
      [⟨.real (3 / 2), []⟩] (sidesOf integerReader ltInfo (ltQuery (.real (3 / 2)))) := by
  exact ⟨by decide +kernel, by decide +kernel, fun h => h.accepted (by decide +kernel)⟩

/-! ## IN -/

variable (argv : SqliteValue → List FilterArg) (vals : List SqliteValue)

/-- **IN, one value at a time**: each call agrees with a local copy, and the rows that SQLite keeps of the answers
    to all calls are those for which the query holds with one of the values. -/
def InAgreesAt (q : SqliteValue → Sides α) : Prop :=
  (∀ v ∈ vals, ScanAgrees tab key info env t coll db (argv v) (q v)) ∧
    ∀ out : SqliteValue → List (List (Cell α)), (∀ v ∈ vals, ∃ shared sql params s, .sql shared sql params ∈
        (vmsVtabFilter tab env 1 (some (vmsPlanSerialize (bestIndexPlan tab key info))) (argv v)).1 ∧
        readSelect sql = some s ∧ Exec db s params (out v)) →
      ∀ row, (∃ v ∈ vals, row ∈ out v ∧ leftHold info (vmsPlanCompile tab.cols info).usage (q v) row = true) ↔
        ∃ v ∈ vals, row ∈ t.rows ∧ allHold info (q v) row = true

/-- `a = ?`, as xBestIndex sees `a IN (…)`. -/
def eqInfo : IndexInfo := { aConstraint := [⟨0, .eq, true⟩], colUsed := 1 }

/-- What `a IN (…)` asks of a table. -/
abbrev InAgreesFor (vals : List SqliteValue) : Prop :=
  InAgreesAt smallTab none eqInfo {} scanTable (rankCollation Unit) (fun _ _ => some scanTable)
    (fun v => [⟨v, []⟩]) vals
    fun v => sidesOf integerReader eqInfo ((ltQuery .null).withRhs 0 v)

end Scan

end VirtualMssql.Affinity
