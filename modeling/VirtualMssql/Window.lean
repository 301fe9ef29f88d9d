/-
  WINDOWS — LIMIT and OFFSET, when the server cuts.

  A window cut by the server is cut BEFORE what SQLite still has to filter and sort, and SQLite applies
  the LIMIT once more.  `window_preserves` says when the rows come out right all the same: when no LIMIT
  is consumed, when it is negative and no OFFSET is lost with it, or when it is positive and the server
  has everything that comes before it.  `window_loses_row` is what happens otherwise.
-/
import VirtualMssql.Pushdown

namespace VirtualMssql.Window

open Plan VirtualMssql.Filter TSql Query List
open Pushdown Utf

variable {α : Type}

/-! ## The query and its window -/

/-- The LIMIT and the OFFSET of the query: every such entry has that right side, and without an OFFSET
    entry it is zero. -/
structure Paged (info : IndexInfo) (q : Sides α) (L O : Int) : Prop where
  limit : ∀ (i : Nat) (c : IndexConstraint), info.aConstraint[i]? = some c → c.op = .limit →
    q.rhs i = .integer L
  offset : ∀ (i : Nat) (c : IndexConstraint), info.aConstraint[i]? = some c → c.op = .offset →
    q.rhs i = .integer O
  hasLimit : ∃ c ∈ info.aConstraint, c.op = .limit
  noOffset : (∀ c ∈ info.aConstraint, c.op ≠ .offset) → O = 0

/-- A negative LIMIT is none. -/
def limitOf (L : Int) : Option Nat := if L < 0 then none else some L.toNat

/-- SQLite was told that the OFFSET is done. -/
def offsetFlagged (info : IndexInfo) (usage : List ConstraintUsage) : Bool :=
  info.aConstraint.zipIdx.any fun c =>
    c.1.op == .offset && (usage[c.2]?).elim false ConstraintUsage.omitted

variable (tab : VmsVtab) (info : IndexInfo)

/-- **What SQLite returns** from the rows of a scan: filtered by the constraints left to it, sorted
    unless that was said to be done, and cut by the LIMIT, and by the OFFSET unless it was flagged. -/
def SqliteReturns (q : Sides α) (coll : Collation α) (L O : Int)
    (scanned out : List (List (Cell α))) : Prop :=
  let c := vmsPlanCompile tab.cols info
  let offset := if offsetFlagged info c.usage then 0 else O.toNat
  if c.orderByConsumed then out = window offset (limitOf L) (scanned.filter (leftHold info c.usage q))
  else Answer scanned (leftHold info c.usage q) (sortLe coll info.aOrderBy) offset (limitOf L) out

/-- **The window comes out right**: the text is a statement, it has an answer, and whatever SQLite
    returns from an answer is a correct answer to the whole query. -/
def WindowPreserved (t : Table α) (q : Sides α)
    (coll : Collation α) (db : List Nat → List Nat → Option (Table α)) (L O : Int) (sql : List Nat)
    (params : List Int) : Prop :=
  ∃ s, readSelect sql = some s ∧ (∃ out, Exec db s params out) ∧
    ∀ scanned, Exec db s params scanned → ∀ out, SqliteReturns tab info q coll L O scanned out →
      Answer t.rows (allHold info q) (sortLe coll info.aOrderBy) O.toNat (limitOf L) out

/-- Every constraint on rows was pushed. -/
def AllPushed : Prop :=
  ∀ (i : Nat) (c : IndexConstraint), info.aConstraint[i]? = some c → c.op ≠ .limit → c.op ≠ .offset →
    i ∈ (pushed tab.cols info).map Pushed.index

/-- **When a window is safe**: no LIMIT is consumed; or it is negative and no OFFSET is lost with it; or
    it is positive and the server has everything that comes before it, all constraints and the ORDER BY,
    and the OFFSET unless there is none to apply. -/
structure WindowSafe (tab : VmsVtab) (key : Option VmsStableKey) (info : IndexInfo) (argv : List FilterArg)
    (L O : Int) : Prop where
  noIn : ∀ p ∈ pushed tab.cols info, p.op ≠ .in_
  args : valueArgs tab.cols info + tailArgs false info.aConstraint ≤ vmsPlanMaxArgs
  names : ∀ c, EmitsColumn tab.cols (bestIndexPlan tab key info) argv c → 93 ∉ c.name
  window : consumesLimit info.aConstraint = false ∨
    (L < 0 ∧ (consumesOffset info.aConstraint = true → O ≤ 0)) ∨
    (1 ≤ L ∧ consumesOrder tab.cols info.aOrderBy = true ∧ AllPushed tab info ∧
      if consumesOffset info.aConstraint then 0 ≤ O else O ≤ 0)

/-! ## Safe windows -/

section Safe

variable {tab} {info} {t : Table α} {q : Sides α} {argv : List FilterArg}
  {L O : Int} {key : Option VmsStableKey} {coll : Collation α} {scanned out : List (List (Cell α))}

section Arguments

variable (hargv : ArgvFor (vmsPlanCompile tab.cols info).usage q argv)
include hargv

theorem argInteger_of_usage {i n : Nat} (hu : (vmsPlanCompile tab.cols info).usage[i]? = some ⟨n + 1, true⟩)
    {v dflt : Int} (hv : q.rhs i = .integer v) : argInteger argv n dflt = v := by
  obtain ⟨a, ha, hvalue⟩ := Option.map_eq_some_iff.mp (hargv i n _ hu rfl)
  have hlt := (List.getElem?_eq_some_iff.mp ha).1
  have hat : argAt argv (n : Int) = some a := by
    rw [argAt, if_pos ⟨by omega, by omega⟩, Int.toNat_natCast, ha]
  simp [argInteger, hat, hvalue, hv, SqliteValue.numericInteger]

theorem planLimit_eq (hpaged : Paged info q L O) (h : consumesLimit info.aConstraint = true) :
    planLimit (bestIndexPlan tab key info) argv = L := by
  obtain ⟨hlimit, _, harg, _⟩ := bestIndexPlan_tail tab key info
  obtain ⟨l, i, c, hl, hc, hop, hu⟩ := usage_limit tab.cols info (by rw [hasLimit_eq]; exact h)
  rw [planLimit, hlimit, h, if_pos rfl, harg, hl]
  exact argInteger_of_usage hargv hu (hpaged.limit i c hc hop)

theorem planOffset_eq (hpaged : Paged info q L O) (h : consumesOffset info.aConstraint = true) :
    planOffset (bestIndexPlan tab key info) argv = O := by
  obtain ⟨_, hoffset, _, harg⟩ := bestIndexPlan_tail tab key info
  obtain ⟨o, i, c, ho, hc, hop, hu⟩ := usage_offset tab.cols info (by rw [hasOffset_eq]; exact h)
  rw [planOffset, hoffset, h, if_pos rfl, harg, ho]
  exact argInteger_of_usage hargv hu (hpaged.offset i c hc hop)

end Arguments

/-- SQLite is told that the OFFSET is done exactly when the plan has it. -/
theorem offsetFlagged_eq (tab : VmsVtab) (info : IndexInfo) :
    offsetFlagged info (vmsPlanCompile tab.cols info).usage = consumesOffset info.aConstraint := by
  rw [← hasOffset_eq tab.cols info]
  cases h : (vmsPlanCompile tab.cols info).plan.hasOffset with
  | true =>
    obtain ⟨o, i, c, _, hc, hop, hu⟩ := usage_offset tab.cols info h
    rw [offsetFlagged, any_eq_true]
    exact ⟨(c, i), mem_zipIdx_iff_getElem?.mpr hc, by simp [hop, hu]⟩
  | false =>
    rw [offsetFlagged, any_eq_false]
    rintro ⟨c, i⟩ hmem hflag
    simp only [Bool.and_eq_true, beq_iff_eq] at hflag
    rw [usage_offset_none tab.cols info h (mem_zipIdx_iff_getElem?.mp hmem) hflag.1] at hflag
    cases hflag.2

/-- When everything was pushed there is nothing left to filter. -/
theorem leftHold_true (h : AllPushed tab info) (row : List (Cell α)) :
    leftHold info (vmsPlanCompile tab.cols info).usage q row = true := by
  rw [leftHold, all_eq_true]
  rintro ⟨c, i⟩ hmem
  have hc := mem_zipIdx_iff_getElem?.mp hmem
  by_cases hl : c.op = .limit
  · simp [holds, hl]
  by_cases ho : c.op = .offset
  · simp [holds, ho]
  obtain ⟨p, hp, hpi⟩ := mem_map.mp (h i c hc hl ho)
  obtain ⟨k, hk, rfl⟩ := mem_iff_getElem.mp hp
  obtain ⟨tm, htm, _⟩ := pushTerms_getElem? (n := 0) (getElem?_eq_getElem hk)
  have hu := usage_pushed tab.cols info (getElem?_eq_getElem hk) (by rw [compiled_terms]; exact htm)
  rw [hpi] at hu
  simp [hu]

/-- The order of a consumed ORDER BY is the one asked for. -/
theorem consumed_answer (hr : Remote tab t)
    (h : consumesOrder tab.cols info.aOrderBy = true) {keep : List (Cell α) → Bool} {offset : Nat}
    {limit : Option Nat}
    (hout : Answer t.rows keep (orderLe t (intended tab (bestIndexPlan tab key info) argv).order) offset
      limit out) : Answer t.rows keep (sortLe coll info.aOrderBy) offset limit out := by
  have horder : compileOrder tab.cols info ≠ [] := by
    have := compileOrder_isEmpty tab.cols info
    rw [h] at this
    simpa using this
  exact hout.congr (fun _ _ => rfl) fun a ha b hb => orderLe_eq hr coll horder ha hb

theorem orderByConsumed_eq (tab : VmsVtab) (info : IndexInfo) :
    (vmsPlanCompile tab.cols info).orderByConsumed = consumesOrder tab.cols info.aOrderBy := by
  have h := compileOrder_isEmpty tab.cols info
  show (!(compileOrder tab.cols info).isEmpty) = _
  rw [h, Bool.not_not]

/-- The server cuts nothing: SQLite does, after it has filtered and sorted. -/
theorem returns_of_uncut (hr : Remote tab t)
    (hoffset : (if offsetFlagged info (vmsPlanCompile tab.cols info).usage then 0 else O.toNat) = O.toNat)
    (hscan : Answer t.rows (pushedHold tab info q)
      (orderLe t (intended tab (bestIndexPlan tab key info) argv).order) 0 none scanned)
    (hout : SqliteReturns tab info q coll L O scanned out) :
    Answer t.rows (allHold info q) (sortLe coll info.aOrderBy) O.toNat (limitOf L) out := by
  simp only [SqliteReturns, hoffset, orderByConsumed_eq] at hout
  rw [allHold_eq tab]
  split_ifs at hout with hconsumed
  · rw [hout]
    exact (consumed_answer hr hconsumed hscan).then_window _
  · exact hscan.then_answer hout

/-- The server cuts, and nothing is left to do but to cut again. -/
theorem returns_of_cut (hr : Remote tab t)
    (hL : 1 ≤ L) (horder : consumesOrder tab.cols info.aOrderBy = true) (hall : AllPushed tab info)
    (hoffset : (if offsetFlagged info (vmsPlanCompile tab.cols info).usage then 0 else O.toNat) = 0)
    (hscan : Answer t.rows (pushedHold tab info q)
      (orderLe t (intended tab (bestIndexPlan tab key info) argv).order) O.toNat (some L.toNat) scanned)
    (hout : SqliteReturns tab info q coll L O scanned out) :
    Answer t.rows (allHold info q) (sortLe coll info.aOrderBy) O.toNat (limitOf L) out := by
  have hleft : leftHold info (vmsPlanCompile tab.cols info).usage q = fun _ => true :=
    funext fun r => leftHold_true hall r
  have hkeep : allHold info q = pushedHold tab info q := by
    simp [allHold_eq tab, hleft]
  have hlimit : limitOf L = some L.toNat := if_neg (by omega)
  have hsame : out = scanned := by
    simp only [SqliteReturns, hoffset, orderByConsumed_eq, horder, if_true, hleft, hlimit, filter_true] at hout
    obtain ⟨sorted, _, _, rfl⟩ := hscan
    rw [hout, window_again]
  rw [hkeep, hlimit, hsame]
  exact consumed_answer hr horder hscan

/-- The window of a plan that keeps its LIMIT and has an ORDER BY. -/
theorem windowOf_cut {plan : VmsPlan} (hl : (adjustPlan plan argv).hasLimit = true)
    (horder : (adjustPlan plan argv).order.isEmpty = false) (hlimit : planLimit plan argv = L) (hL : 1 ≤ L) :
    windowOf (intended tab plan argv) (markerValue plan argv) = if (adjustPlan plan argv).hasOffset then
        if planOffset plan argv < 0 then none else some ((planOffset plan argv).toNat, some L.toNat)
      else some (0, some L.toNat) := by
  have hL' : ¬ L < 1 := by omega
  cases ho : (adjustPlan plan argv).hasOffset <;>
    simp [windowOf, intended, planSelect, horder, ho, hl, markerValue, hlimit, hL']

/-- **LIMIT and OFFSET pushdown preserves meaning when the window is safe.** -/
theorem window_preserves (tab : VmsVtab) (key : Option VmsStableKey) (info : IndexInfo)
    (env : FilterEnv) (argv : List FilterArg) (t : Table α) (q : Sides α) (coll : Collation α)
    (db : List Nat → List Nat → Option (Table α)) (L O : Int) (hr : Remote tab t)
    (hdb : db (utf8ToWide tab.schema) (utf8ToWide tab.table) = some t) (hpaged : Paged info q L O)
    (hargv : ArgvFor (vmsPlanCompile tab.cols info).usage q argv) (hsafe : WindowSafe tab key info argv L O)
    {shared : Bool} {sql : List Nat} {params : List Int}
    (hsent : .sql shared sql params ∈
      (vmsVtabFilter tab env 1 (some (vmsPlanSerialize (bestIndexPlan tab key info))) argv).1) :
    WindowPreserved tab info t q coll db L O sql params := by
  obtain ⟨hlimit, hoffset, _⟩ := bestIndexPlan_tail tab key info
  have horderEmpty : (adjustPlan (bestIndexPlan tab key info) argv).order.isEmpty =
      !consumesOrder tab.cols info.aOrderBy := by
    simp [adjustPlan, bestIndexPlan_order, compileOrder_isEmpty]
  -- it remains to say which window the server cuts, and that SQLite does the rest
  have hfinish : ∀ (offset : Nat) (limit : Option Nat),
      ¬ writesTop (adjustPlan (bestIndexPlan tab key info) argv) →
      windowOf (intended tab (bestIndexPlan tab key info) argv)
        (markerValue (bestIndexPlan tab key info) argv) = some (offset, limit) →
      (∀ scanned out, Answer t.rows (pushedHold tab info q)
          (orderLe t (intended tab (bestIndexPlan tab key info) argv).order) offset limit scanned →
        SqliteReturns tab info q coll L O scanned out →
        Answer t.rows (allHold info q) (sortLe coll info.aOrderBy) O.toNat (limitOf L) out) →
      WindowPreserved tab info t q coll db L O sql params := by
    intro offset limit htop hwindow hreturns
    obtain ⟨s, hread, hsome, hexec⟩ := scan_exec (q := q) hsafe.args hsafe.names htop hsent
      hr hdb (inAgrees_of_none hsafe.noIn) hargv hwindow
    exact ⟨s, hread, hsome, fun scanned hscanned out => hreturns scanned out (hexec scanned hscanned)⟩
  have huncut : (adjustPlan (bestIndexPlan tab key info) argv).hasLimit = false →
      (adjustPlan (bestIndexPlan tab key info) argv).hasOffset = false →
      (consumesOffset info.aConstraint = true → O ≤ 0) →
      WindowPreserved tab info t q coll db L O sql params := by
    intro hl ho hO
    refine hfinish 0 none (fun h => by simp [writesTop, hl] at h)
      (by simp [windowOf, intended, planSelect, hl, ho]) fun scanned out h₁ h₂ =>
        returns_of_uncut hr ?_ h₁ h₂
    rw [offsetFlagged_eq]
    split_ifs with hflag
    · have := hO hflag
      omega
    · rfl
  cases hconsumed : consumesLimit info.aConstraint with
  | false =>
    have hnoOffset := consumesOffset_false tab.cols hconsumed
    refine huncut (by simp [adjustPlan, hlimit, hconsumed])
      (by simp [adjustPlan, hoffset, hnoOffset]) fun h => ?_
    rw [hnoOffset] at h
    cases h
  | true =>
    have hplanLimit : planLimit (bestIndexPlan tab key info) argv = L := planLimit_eq hargv hpaged hconsumed
    rcases hsafe.window with hnone | ⟨hneg, hO⟩ | ⟨hL, horder, hall, hO⟩
    · rw [hconsumed] at hnone
      cases hnone
    · have hoff : limitOff (bestIndexPlan tab key info) argv = true := by
        simp [limitOff, hlimit, hconsumed, hplanLimit, hneg]
      exact huncut (by simp [adjustPlan, hoff]) (by simp [adjustPlan, hoff]) hO
    · have hoff : limitOff (bestIndexPlan tab key info) argv = false := by
        simp only [limitOff, hplanLimit, Bool.and_eq_false_iff, decide_eq_false_iff_not]
        exact .inr (by omega)
      rw [horder, Bool.not_true] at horderEmpty
      have htop : ¬ writesTop (adjustPlan (bestIndexPlan tab key info) argv) := by
        rintro ⟨_, hnil⟩
        rw [hnil] at horderEmpty
        cases horderEmpty
      refine hfinish O.toNat (some L.toNat) htop ?_ fun scanned out h₁ h₂ =>
        returns_of_cut hr hL horder hall ?_ h₁ h₂
      · rw [windowOf_cut (by simp [adjustPlan, hoff, hlimit, hconsumed]) horderEmpty hplanLimit hL]
        rw [show (adjustPlan (bestIndexPlan tab key info) argv).hasOffset =
          consumesOffset info.aConstraint by simp [adjustPlan, hoff, hoffset]]
        split_ifs at hO ⊢ with hcons h
        · rw [planOffset_eq hargv hpaged hcons] at h
          omega
        · rw [planOffset_eq hargv hpaged hcons]
        · rw [show O.toNat = 0 by omega]
      · rw [offsetFlagged_eq]
        split_ifs at hO ⊢
        · rfl
        · omega

end Safe

/-- `ORDER BY a LIMIT 1`. -/
def firstInfo : IndexInfo :=
  { aConstraint := [⟨-1, .limit, true⟩], aOrderBy := [⟨0, false⟩], colUsed := 1 }

def firstText : List Nat :=
  wide "SELECT [a] FROM [s].[t] ORDER BY [a] OFFSET 0 ROWS FETCH NEXT ? ROWS ONLY"

def firstSides : Sides Unit := { rhs := fun _ => .integer 1, other := fun _ _ => true }

theorem window_preserves_first :
    WindowPreserved smallTab firstInfo scanTable firstSides (rankCollation Unit)
      (fun _ _ => some scanTable) 1 0 firstText [1] := by
  have husage : (vmsPlanCompile smallTab.cols firstInfo).usage = [⟨1, true⟩] := by decide +kernel
  have honly : ∀ (i : Nat) (c : IndexConstraint), firstInfo.aConstraint[i]? = some c → c.op = .limit := by
    intro i c hc
    rw [mem_singleton.mp (mem_of_getElem? hc)]
  refine window_preserves smallTab none firstInfo {} [integerArg 1] scanTable firstSides
    (rankCollation Unit) _ 1 0 remote_scanTable rfl
    ⟨fun _ _ _ _ => rfl, fun i c hc hop => ?_, ⟨_, mem_cons_self, rfl⟩, fun _ => rfl⟩
    (husage ▸ argv_single rfl) ⟨by decide +kernel, by decide +kernel, fun c hc => ?_,
      .inr (.inr ⟨by decide, by decide +kernel, fun i c hc hl => absurd (honly i c hc) hl, by decide⟩)⟩
    (show (.sql false _ _ : Sent) ∈ _ by decide +kernel)
  · rw [honly i c hc] at hop
    cases hop
  · rw [mem_singleton.mp (emitsColumn_mem hc)]
    decide

/-- `a LIKE ? ORDER BY a LIMIT 1`. -/
def likeInfo : IndexInfo :=
  { aConstraint := [⟨0, .other 65, true⟩, ⟨-1, .limit, true⟩], aOrderBy := [⟨0, false⟩], colUsed := 1 }

/-- Two rows; the LIKE holds of the second. -/
def likeTable : Table Unit :=
  { scanTable with rows := [[.int 1], [.int 7]], width := by decide }

def likeSides : Sides Unit := { rhs := fun _ => .integer 1, other := fun _ row => row == [.int 7] }

/-- The server cuts to the first row, SQLite then filters it out, and the row that should have come is
    lost. -/
theorem window_loses_row :
    (.sql false firstText [1] : Sent) ∈ (vmsVtabFilter smallTab {} 1
        (some (vmsPlanSerialize (bestIndexPlan smallTab none likeInfo))) [integerArg 1]).1 ∧
      ¬ WindowPreserved smallTab likeInfo likeTable likeSides (rankCollation Unit)
        (fun _ _ => some likeTable) 1 0 firstText [1] := by
  refine ⟨by decide +kernel, ?_⟩
  rintro ⟨s, hread, _, hall⟩
  have hs : readSelect firstText = some ⟨false, [.column [97]], [115], [116], [], [([97], false)],
      .first⟩ := by decide +kernel
  obtain rfl := Option.some.inj (hs.symm.trans hread)
  have hscan : Exec (fun _ _ => some likeTable) ⟨false, [.column [97]], [115], [116], [],
      [([97], false)], .first⟩ [1] [[.int 1]] := by
    refine ⟨likeTable, 0, some 1, rfl, ⟨by simp, fun o ho => ?_⟩, rfl, by decide,
      [[.int 1], [.int 7]], by decide, by decide, rfl⟩
    obtain rfl : o = ([97], false) := by simpa using ho
    refine ⟨by decide, fun r hr => ?_⟩
    simp only [likeTable, mem_cons, not_mem_nil, or_false] at hr
    rcases hr with rfl | rfl <;> exact ⟨_, rfl, rfl⟩
  have hreturns : SqliteReturns smallTab likeInfo likeSides (rankCollation Unit) 1 0 [[.int 1]] [] := by
    rw [SqliteReturns, if_pos (by decide +kernel)]
    decide +kernel
  obtain ⟨sorted, hperm, _, hout⟩ := hall _ hscan _ hreturns
  have hkept : likeTable.rows.filter (allHold likeInfo likeSides) = [[.int 7]] := by decide +kernel
  rw [hkept, perm_singleton] at hperm
  rw [hperm] at hout
  cases hout

end VirtualMssql.Window
