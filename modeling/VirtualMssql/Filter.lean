/-
  FILTER — `vms_vtab_best_index` and `vms_vtab_filter`: from SQLite's constraints to statements sent.

  xBestIndex compiles a plan and hands it over as bytes; xFilter reads it back, puts the values of
  `argv` into it, builds the text, and collects the values to bind.  The text and the values are made
  in two places, and once more when a failed open is retried.

  `markers_agree_iff` says when they fit together: the text is the statement the plan stands for and
  every `?` in it is bound to the value it means, unless a LIMIT without ORDER BY was kept (its TOP is
  written at the end, where no statement has it) or a name in the text has a closing bracket.

  A table source is modelled; a query source has no plan and sends its own text.
-/
import VirtualMssql.PlanSql
import VirtualMssql.Sqlite
import VirtualMssql.Lib.Outcome

namespace VirtualMssql.Filter

open Plan TSql Utf List Function

/-! ## The table and its callers -/

/-- `struct VmsVtab`, what the scan of a table source reads of it. -/
structure VmsVtab where
  schema : List Nat
  table : List Nat
  cols : List VmsMetaColumn
  rwMode : Bool := false
  spatialWkt : Bool := false

/-- `VmsErrClass`. -/
inductive VmsErrClass
  | ok
  | driverNotFound
  | connect
  | transport
  | timeout
  | cancelled
  | exec
  | quarantined
  | noMemory
  | invalidArg
  | internal
  deriving DecidableEq, Repr

/-- An argument of xFilter: its value, and the items `sqlite3_vtab_in_first` and `sqlite3_vtab_in_next`
    give for it (none unless it is the right side of an IN). -/
structure FilterArg where
  value : SqliteValue
  inList : List SqliteValue := []

/-- What the pool and the server answer during one xFilter; `none` is success. -/
structure FilterEnv where
  txn : Bool := false
  acquire : Option VmsErrClass := none
  opened : Option VmsErrClass := none
  acquireAgain : Option VmsErrClass := none
  openedAgain : Option VmsErrClass := none

/-- What goes to the server: a built text with its values, on the pinned connection or on a lease, or
    the scan that `vms_cursor_open` builds from the metadata. -/
inductive Sent
  | sql (shared : Bool) (text : List Nat) (params : List Int)
  | tableScan
  deriving DecidableEq

inductive FilterResult
  | opened
  | message (text : String)
  | failed (cls : VmsErrClass)
  deriving DecidableEq

/-! ## `vms_vtab_best_index` -/

/-- The bits of the stable-key columns. -/
def keyMask (cols : List VmsMetaColumn) (key : VmsStableKey) : Nat :=
  key.parts.foldl (fun m k =>
    cols.zipIdx.foldl (fun m c =>
      if stricmp c.1.name k.name && c.2 < 62 then m ||| bit32 c.2 else m) m) 0

/-- `vms_vtab_best_index` of a table source: the plan; `key` is the key of the DML context, when there
    is one. -/
def bestIndexPlan (tab : VmsVtab) (key : Option VmsStableKey) (info : IndexInfo) : VmsPlan :=
  let plan := (vmsPlanCompile tab.cols info).plan
  match key with
  | some k => if tab.rwMode then { plan with usedMask := plan.usedMask ||| keyMask tab.cols k } else plan
  | none => plan

/-! ## `vms_vtab_filter`: the arguments -/

/-- `argv[i]`, when there is one. -/
def argAt (argv : List FilterArg) (i : Int) : Option FilterArg :=
  if 0 ≤ i ∧ i < argv.length then argv[i.toNat]? else none

/-- The integers of an IN list, 64 at most. -/
def inItems (v : Option FilterArg) : List Int :=
  ((v.elim [] FilterArg.inList).filterMap SqliteValue.numericInteger).take 64

/-- One term and its argument: the term as it goes into the text, and its value.  An IN list without
    integers, or with several, makes the term a contradiction; a comparison with anything but an
    integer is an error. -/
def mapTerm (argv : List FilterArg) (t : VmsPlanTerm) : Option (VmsPlanTerm × Int) :=
  match t.op with
  | .isNull => some (t, 0)
  | .isNotNull => some (t, 0)
  | .in_ =>
    match inItems (argAt argv t.argIndex) with
    | [] => some ({ t with col := -1 }, 0)
    | i :: is => if is.all (· == i) then some (t, i) else some ({ t with col := -2 }, 0)
  | _ =>
    match (argAt argv t.argIndex).bind fun v => v.value.numericInteger with
    | some i => some (t, i)
    | none => none

/-- An argument that has to be an integer, or a default. -/
def argInteger (argv : List FilterArg) (i dflt : Int) : Int :=
  ((argAt argv i).bind fun v => v.value.numericInteger).getD dflt

variable (plan : VmsPlan) (argv : List FilterArg)

def planLimit : Int :=
  if plan.hasLimit then argInteger argv plan.limitArg (-1) else -1

def planOffset : Int :=
  if plan.hasOffset then argInteger argv plan.offsetArg 0 else 0

/-- The plan with its arguments put in. -/
structure Mapped where
  plan : VmsPlan
  termParams : List Int
  limit : Int
  offset : Int

/-- The argument mapping; a negative LIMIT switches both flags off. -/
def mapArgs : Option Mapped :=
  (plan.terms.mapM (mapTerm argv)).map fun ts =>
    let off := plan.hasLimit && decide (planLimit plan argv < 0)
    { plan := { plan with
        terms := ts.map Prod.fst
        hasLimit := plan.hasLimit && !off
        hasOffset := plan.hasOffset && !off }
      termParams := ts.map Prod.snd
      limit := planLimit plan argv
      offset := planOffset plan argv }

/-! ## `vms_vtab_filter`: the statement -/

/-- The values of the terms that have a marker. -/
def termParams (ts : List (VmsPlanTerm × Int)) : List Int :=
  ts.filterMap fun t => if t.1.op.isNullTest || t.1.col < 0 then none else some t.2

/-- The values to bind: TOP, the terms, OFFSET and FETCH. -/
def sqlParams (m : Mapped) : List Int :=
  (if m.plan.hasLimit && m.plan.order.isEmpty && !m.plan.hasOffset then [m.limit] else []) ++
    termParams (m.plan.terms.zip m.termParams) ++
    (if m.plan.hasOffset && !m.plan.order.isEmpty then [m.offset, m.limit]
     else if m.plan.hasLimit && !m.plan.order.isEmpty then [m.limit] else [])

/-- The buffer of the text, in wide characters. -/
def sqlWchars : Nat := 2048

def buildFor (tab : VmsVtab) (plan : VmsPlan) : Option (List Nat) :=
  (vmsPlanBuildSql sqlWchars tab.cols tab.spatialWkt plan tab.schema tab.table).map Prod.fst

/-- The plan of a full scan inside a transaction. -/
def fullPlan : VmsPlan := { usedMask := 0xFFFFFFFF, limitArg := 0, offsetArg := 0 }

def retryable : VmsErrClass → Bool
  | .transport | .connect | .timeout => true
  | _ => false

/-- Opening the cursor, and once more when that fails for the transport outside a transaction; the
    text and the values of the second attempt are made anew. -/
def openCursor (env : FilterEnv) (first : Sent) (again : Option Sent) : List Sent × FilterResult :=
  match env.opened with
  | none => ([first], .opened)
  | some cls =>
    if env.txn || !retryable cls then ([first], .failed cls)
    else match env.acquireAgain with
      | some cls => ([first], .failed cls)
      | none =>
        match again with
        | none => ([first], .failed .ok)
        | some second =>
          match env.openedAgain with
          | none => ([first, second], .opened)
          | some cls => ([first, second], .failed cls)

/-- The scan of a plan. -/
def filterPlan (tab : VmsVtab) (env : FilterEnv) (plan : VmsPlan) (argv : List FilterArg) :
    List Sent × FilterResult :=
  match mapArgs plan argv with
  | none => ([], .message
      "virtualmssql: non-integer value for pushed-down constraint (plan/arg mismatch)")
  | some m =>
    match env.acquire with
    | some cls => ([], .failed cls)
    | none =>
      match buildFor tab m.plan with
      | none => ([], .message "virtualmssql: plan SQL build failed")
      | some sql =>
        openCursor env (.sql env.txn sql (sqlParams m))
          ((buildFor tab m.plan).map fun sql => .sql false sql (sqlParams m))

/-- The scan without a plan. -/
def filterAll (tab : VmsVtab) (env : FilterEnv) : List Sent × FilterResult :=
  match env.acquire with
  | some cls => ([], .failed cls)
  | none =>
    if env.txn then
      match buildFor tab fullPlan with
      | none => ([], .failed .internal)
      | some sql => openCursor env (.sql true sql []) none
    else openCursor env .tableScan (some .tableScan)

/-- `vms_vtab_filter` of a table source: what is sent, and how it ends. -/
def vmsVtabFilter (tab : VmsVtab) (env : FilterEnv) (idxNum : Nat) (idxStr : Option (List Int))
    (argv : List FilterArg) : List Sent × FilterResult :=
  match if idxNum = 1 then idxStr.bind vmsPlanDeserialize else none with
  | some plan => filterPlan tab env plan argv
  | none => filterAll tab env

/-! ## What the arguments mean -/

/-- The term as the arguments leave it: an IN without exactly one integer is a contradiction. -/
def adjustTerm (argv : List FilterArg) (t : VmsPlanTerm) : VmsPlanTerm :=
  match t.op with
  | .in_ =>
    match inItems (argAt argv t.argIndex) with
    | [] => { t with col := -1 }
    | i :: is => if is.all (· == i) then t else { t with col := -2 }
  | _ => t

/-- The value of a term: the integer it is compared with. -/
def termValue (argv : List FilterArg) (t : VmsPlanTerm) : Int :=
  match t.op with
  | .isNull => 0
  | .isNotNull => 0
  | .in_ =>
    match inItems (argAt argv t.argIndex) with
    | [] => 0
    | i :: is => if is.all (· == i) then i else 0
  | _ => argInteger argv t.argIndex 0

/-- A LIMIT below zero means no limit, and then the OFFSET is not sent either. -/
def limitOff : Bool :=
  plan.hasLimit && decide (planLimit plan argv < 0)

def adjustPlan : VmsPlan :=
  { plan with
    terms := plan.terms.map (adjustTerm argv)
    hasLimit := plan.hasLimit && !limitOff plan argv
    hasOffset := plan.hasOffset && !limitOff plan argv }

variable {argv} {t : VmsPlanTerm} {plan} {cols : List VmsMetaColumn}
  {tab : VmsVtab}

theorem mapTerm_some {x : VmsPlanTerm × Int} (h : mapTerm argv t = some x) :
    x = (adjustTerm argv t, termValue argv t) := by
  obtain ⟨col, op, arg⟩ := t
  cases op with
  | isNull | isNotNull => exact (Option.some.inj h).symm
  | in_ =>
    simp only [mapTerm, adjustTerm, termValue] at h ⊢
    cases hitems : inItems (argAt argv arg) with
    | nil => rw [hitems] at h; exact (Option.some.inj h).symm
    | cons i is =>
      rw [hitems] at h
      simp only at h ⊢
      split_ifs at h ⊢
      all_goals exact (Option.some.inj h).symm
  | _ =>
    simp only [mapTerm, adjustTerm, termValue, argInteger] at h ⊢
    cases hv : (argAt argv arg).bind fun v => v.value.numericInteger with
    | none => simp [hv] at h
    | some i => rw [hv] at h; exact (Option.some.inj h).symm

/-- A null test and an IN are never refused; a comparison needs an integer. -/
theorem mapTerm_isSome_iff : (mapTerm argv t).isSome = true ↔ (t.op.isNullTest = false → t.op ≠ .in_ →
    ((argAt argv t.argIndex).bind fun a => a.value.numericInteger).isSome = true) := by
  obtain ⟨col, op, arg⟩ := t
  cases op with
  | isNull | isNotNull => simp [mapTerm, VmsPlanOp.isNullTest]
  | in_ =>
    simp only [mapTerm]
    split
    · simp
    · split_ifs <;> simp
  | _ =>
    simp only [mapTerm]
    cases (argAt argv arg).bind fun a => a.value.numericInteger <;> simp [VmsPlanOp.isNullTest]

/-- The mapping refuses when it refuses a term. -/
theorem mapM_isSome_iff {β γ : Type} (f : β → Option γ) (ts : List β) :
    (ts.mapM f).isSome = true ↔ ∀ t ∈ ts, (f t).isSome = true := by
  induction ts with
  | nil => simp
  | cons t ts ih =>
    rw [forall_mem_cons, ← ih, mapM_cons]
    cases f t with
    | none => simp
    | some y => cases ts.mapM f <;> simp

/-- A comparison that was not refused has an integer for its argument. -/
theorem mapTerm_integer {ts : List VmsPlanTerm} {xs : List (VmsPlanTerm × Int)}
    (h : ts.mapM (mapTerm argv) = some xs) (ht : t ∈ ts) (hnull : t.op.isNullTest = false) (hin : t.op ≠ .in_) :
    ((argAt argv t.argIndex).bind fun a => a.value.numericInteger) = some (termValue argv t) := by
  have hmapped := (mapM_isSome_iff (mapTerm argv) ts).mp (Option.isSome_of_eq_some h) t ht
  obtain ⟨v, hv⟩ := Option.isSome_iff_exists.mp (mapTerm_isSome_iff.mp hmapped hnull hin)
  have hvalue : termValue argv t = argInteger argv t.argIndex 0 := by
    obtain ⟨col, op, arg⟩ := t
    cases op with
    | isNull | isNotNull => simp [VmsPlanOp.isNullTest] at hnull
    | in_ => exact absurd rfl hin
    | _ => rfl
  rw [hvalue, argInteger, hv, Option.getD_some]

/-- **What the mapping gives**, when it does not refuse an argument. -/
theorem mapArgs_some {m : Mapped} (h : mapArgs plan argv = some m) :
    m = ⟨adjustPlan plan argv, plan.terms.map (termValue argv), planLimit plan argv, planOffset plan argv⟩ := by
  obtain ⟨ts, hts, h⟩ := Option.map_eq_some_iff.mp h
  have hmap : ts.map id = plan.terms.map fun t => (adjustTerm argv t, termValue argv t) :=
    (Outcome.mapM_map_iff hts).mpr fun t _ x hx => mapTerm_some hx
  rw [← h, ← map_id ts, hmap]
  simp [adjustPlan, limitOff]

/-- The value a marker is to get. -/
def markerValue (plan : VmsPlan) (argv : List FilterArg) : Marker → Int
  | .top => planLimit plan argv
  | .cond a => (plan.terms[a]?).elim 0 (termValue argv)
  | .offset => planOffset plan argv
  | .fetch => planLimit plan argv

/-- The statement a plan and its arguments stand for. -/
def intended (tab : VmsVtab) (plan : VmsPlan) (argv : List FilterArg) : Select :=
  planSelect tab.cols tab.spatialWkt (adjustPlan plan argv) tab.schema tab.table

/-- **The text and the values fit together**: the text is the intended statement, clause by clause;
    it has as many markers as there are values; and the `k`-th value is the one the `k`-th marker
    means. -/
structure Agrees (tab : VmsVtab) (plan : VmsPlan) (argv : List FilterArg) (sql : List Nat)
    (params : List Int) : Prop where
  reads : lex .ascii sql = (intended tab plan argv).toks
  count : questionMarks (lex .ascii sql) = params.length
  values : params = (intended tab plan argv).markers.map (markerValue plan argv)

/-! ## The values are those of the markers -/

theorem adjustTerm_op (argv : List FilterArg) (t : VmsPlanTerm) : (adjustTerm argv t).op = t.op := by
  rw [adjustTerm]
  split
  · split
    · rfl
    · split_ifs <;> rfl
  · rfl

/-- A conjunct has a marker where the parameter loop takes a value. -/
theorem condOf_takesValue (cols : List VmsMetaColumn) (ht : ∀ n, t.op ≠ .other n) :
    (condOf cols t).takesValue = !(t.op.isNullTest || decide (t.col < 0)) := by
  rw [condOf]
  by_cases hcol : t.col < 0
  · simp [hcol, Cond.takesValue]
  · rw [if_neg hcol]
    cases hop : t.op with
    | other n => exact absurd hop (ht n)
    | _ => simp [Cond.takesValue, VmsPlanOp.isNullTest, hcol]

theorem termParams_cons (x : VmsPlanTerm × Int) (xs : List (VmsPlanTerm × Int)) : termParams (x :: xs) =
      (if x.1.op.isNullTest || decide (x.1.col < 0) then [] else [x.2]) ++ termParams xs := by
  rw [termParams, filterMap_cons]
  cases x.1.op.isNullTest || decide (x.1.col < 0) <;> rfl

/-- The values of the terms are those of the markers of their conjuncts.  Induction on the terms, with
    the number of the first. -/
theorem termParams_eq (cols : List VmsMetaColumn) (argv : List FilterArg) (value : Marker → Int) :
    ∀ (ts : List VmsPlanTerm) (a : Nat), (∀ t ∈ ts, ∀ n, t.op ≠ .other n) →
      (∀ k t, ts[k]? = some t → value (.cond (a + k)) = termValue argv t) →
      termParams (ts.map fun t => (adjustTerm argv t, termValue argv t)) =
        (condMarkers a (ts.map fun t => condOf cols (adjustTerm argv t))).map value
  | [], _, _, _ => rfl
  | t :: ts, a, hops, hvalue => by
    have ih := termParams_eq cols argv value ts (a + 1) ((forall_mem_cons.mp hops).2) (fun k u hk => by
        have h := hvalue (k + 1) u (by simpa using hk)
        rw [← h]
        congr 2
        omega)
    have hop : ∀ n, (adjustTerm argv t).op ≠ .other n := by
      rw [adjustTerm_op]
      exact hops t mem_cons_self
    have htakes := condOf_takesValue cols hop
    have hhead : value (.cond a) = termValue argv t := hvalue 0 t rfl
    rw [map_cons, map_cons, condMarkers, map_append, ← ih, termParams_cons, htakes]
    cases (adjustTerm argv t).op.isNullTest || decide ((adjustTerm argv t).col < 0) with
    | true => rfl
    | false => simp [hhead]

/-- **The values are those of the markers**, as long as no TOP is written. -/
theorem sqlParams_eq (tab : VmsVtab) {m : Mapped} (hops : ∀ t ∈ plan.terms, ∀ n, t.op ≠ .other n)
    (hm : mapArgs plan argv = some m) (htop : ¬ writesTop (adjustPlan plan argv)) :
    sqlParams m = (intended tab plan argv).markers.map (markerValue plan argv) := by
  have hterms := termParams_eq tab.cols argv (markerValue plan argv) plan.terms 0 hops
    (fun k t hk => by simp [markerValue, hk])
  have hzip : ((adjustPlan plan argv).terms.zip (plan.terms.map (termValue argv))) =
      plan.terms.map fun t => (adjustTerm argv t, termValue argv t) := zip_map'
  have hconds : (intended tab plan argv).conds = plan.terms.map fun t => condOf tab.cols (adjustTerm argv t) := by
    simp [intended, planSelect, adjustPlan, comp_def]
  rw [mapArgs_some hm, sqlParams]
  simp only [Select.markers, hconds, map_append, hzip, hterms]
  simp only [intended, planSelect]
  by_cases horder : (adjustPlan plan argv).order = []
  · have hlimit : (adjustPlan plan argv).hasLimit = false := by simpa [writesTop, horder] using htop
    simp [horder, hlimit, Page.markers]
  · have hempty : (adjustPlan plan argv).order.isEmpty = false := by simpa using horder
    rcases Bool.eq_false_or_eq_true (adjustPlan plan argv).hasOffset with hoffset | hoffset <;>
      rcases Bool.eq_false_or_eq_true (adjustPlan plan argv).hasLimit with hlimit | hlimit <;>
        simp [hempty, hoffset, hlimit, Page.markers, markerValue]

/-! ## The names in the text -/

/-- A term whose column stands in the text: not an IN that the arguments made a contradiction. -/
def TermKept (argv : List FilterArg) (t : VmsPlanTerm) : Prop :=
  t.op = .in_ → ∃ i is, inItems (argAt argv t.argIndex) = i :: is ∧ ∀ j ∈ is, j = i

/-- The columns of a projection. -/
def projectedColumns (cols : List VmsMetaColumn) (mask : Nat) : List VmsMetaColumn :=
  if mask = 0 ∨ mask = 0xFFFFFFFF then cols else projected cols mask

/-- **The columns whose names the text has**: the projection, the terms and the ORDER BY. -/
def EmitsColumn (cols : List VmsMetaColumn) (plan : VmsPlan) (argv : List FilterArg)
    (c : VmsMetaColumn) : Prop :=
  c ∈ projectedColumns cols plan.usedMask ∨
    (∃ t ∈ plan.terms, TermKept argv t ∧ columnAt cols t.col = some c) ∨
    ∃ o ∈ plan.order, columnAt cols o.1 = some c

variable {c : VmsMetaColumn}

theorem bracket_mem_serverName : 93 ∈ serverName c ↔ 93 ∈ c.name := by
  constructor
  · exact mem_of_utf8ToWide (by decide)
  · intro h
    obtain ⟨a, b, hab⟩ := append_of_mem h
    rw [serverName, hab, utf8ToWide_ascii (by decide)]
    simp

theorem projOf_name (wkt : Bool) (c : VmsMetaColumn) : (projOf wkt c).name? = some (serverName c) := by
  rw [projOf]
  split_ifs <;> rfl

theorem mem_planProjection_names {wkt : Bool} {mask : Nat} {n : List Nat} :
    (∃ p ∈ planProjection cols wkt mask, p.name? = some n) ↔ ∃ c ∈ projectedColumns cols mask, serverName c = n := by
  have hmap : ∀ cs : List VmsMetaColumn, (∃ p ∈ cs.map (projOf wkt), p.name? = some n) ↔
      ∃ c ∈ cs, serverName c = n := by
    intro cs
    simp [projOf_name]
  rw [planProjection, projectedColumns]
  split_ifs with hall hnone
  · exact hmap cols
  · simp [hnone, Proj.name?]
  · exact hmap _

/-- The arguments leave the column of a kept term alone, and make the others contradictions. -/
theorem adjustTerm_kept (h : TermKept argv t) : adjustTerm argv t = t := by
  rw [adjustTerm]
  split
  · rename_i hop
    obtain ⟨i, is, hitems, hall⟩ := h hop
    rw [hitems]
    exact if_pos (by simpa using hall)
  · rfl

theorem adjustTerm_not_kept (h : ¬ TermKept argv t) : (adjustTerm argv t).col < 0 := by
  rw [TermKept] at h
  push Not at h
  obtain ⟨hop, hitems⟩ := h
  rw [adjustTerm, hop]
  simp only
  cases hi : inItems (argAt argv t.argIndex) with
  | nil => exact (by decide : (-1 : Int) < 0)
  | cons i is =>
    obtain ⟨j, hj, hne⟩ := hitems i is hi
    have hall : ¬ is.all (· == i) = true := by
      simp only [all_eq_true, beq_iff_eq]
      exact fun hc => hne (hc j hj)
    simp only [if_neg hall]
    exact (by decide : (-2 : Int) < 0)

theorem condOf_name (hop : ∀ n, t.op ≠ .other n) (hcol : 0 ≤ t.col) :
    (condOf cols t).name? = some (columnName cols t.col) := by
  rw [condOf, if_neg (by omega)]
  cases h : t.op with
  | other n => exact absurd h (hop n)
  | _ => rfl

theorem columnAt_some {i : Int} (h : columnAt cols i = some c) : 0 ≤ i ∧ c ∈ cols := by
  rw [columnAt] at h
  split_ifs at h
  exact ⟨by omega, mem_of_getElem? h⟩

theorem mem_of_projected {mask : Nat} (h : c ∈ projectedColumns cols mask) : c ∈ cols := by
  rw [projectedColumns] at h
  split_ifs at h
  · exact h
  · obtain ⟨⟨d, i⟩, hd, rfl⟩ := mem_map.mp h
    exact fst_mem_of_mem_zipIdx (mem_of_mem_filter hd)

/-- No bracket in a column's name, or no column. -/
theorem bracket_columnName {i : Int} : 93 ∉ columnName cols i ↔ ∀ c, columnAt cols i = some c → 93 ∉ c.name := by
  rw [columnName]
  cases columnAt cols i with
  | none => simp
  | some c => simp [bracket_mem_serverName]

/-- **The names of the statement are free of brackets when the columns' are.** -/
theorem names_iff (argv : List FilterArg) (hops : ∀ t ∈ plan.terms, ∀ n, t.op ≠ .other n)
    (hschema : 93 ∉ utf8ToWide tab.schema) (htable : 93 ∉ utf8ToWide tab.table) :
    (∀ n ∈ (intended tab plan argv).names, 93 ∉ n) ↔ ∀ c, EmitsColumn tab.cols plan argv c → 93 ∉ c.name := by
  have hnames : ∀ n, n ∈ (intended tab plan argv).names ↔
      (∃ c ∈ projectedColumns tab.cols plan.usedMask, serverName c = n) ∨
        n = utf8ToWide tab.schema ∨ n = utf8ToWide tab.table ∨
        (∃ t ∈ plan.terms, (condOf tab.cols (adjustTerm argv t)).name? = some n) ∨
        ∃ o ∈ plan.order, columnName tab.cols o.1 = n := by
    intro n
    simp only [Select.names, intended, planSelect, adjustPlan, mem_append, mem_cons,
      not_mem_nil, or_false, map_map, filterMap_map, mem_filterMap, mem_map,
      comp, or_assoc]
    rw [mem_planProjection_names]
  constructor
  · rintro h c (hc | ⟨t, ht, hkept, hc⟩ | ⟨o, ho, hc⟩)
    · have := h _ ((hnames _).mpr (.inl ⟨c, hc, rfl⟩))
      rwa [bracket_mem_serverName] at this
    · have hname : (condOf tab.cols (adjustTerm argv t)).name? = some (columnName tab.cols t.col) := by
        rw [adjustTerm_kept hkept]
        exact condOf_name (hops t ht) (columnAt_some hc).1
      exact bracket_columnName.mp (h _ ((hnames _).mpr (.inr (.inr (.inr (.inl ⟨t, ht, hname⟩)))))) c hc
    · exact bracket_columnName.mp (h _ ((hnames _).mpr (.inr (.inr (.inr (.inr ⟨o, ho, rfl⟩)))))) c hc
  · intro h n hn
    rcases (hnames n).mp hn with ⟨c, hc, rfl⟩ | rfl | rfl | ⟨t, ht, hname⟩ | ⟨o, ho, rfl⟩
    · rw [bracket_mem_serverName]
      exact h c (.inl hc)
    · exact hschema
    · exact htable
    · by_cases hkept : TermKept argv t
      · rw [adjustTerm_kept hkept] at hname
        by_cases hcol : 0 ≤ t.col
        · rw [condOf_name (hops t ht) hcol] at hname
          rw [← Option.some.inj hname, bracket_columnName]
          exact fun c hc => h c (.inr (.inl ⟨t, ht, hkept, hc⟩))
        · rw [condOf, if_pos (by omega)] at hname
          simp [Cond.name?] at hname
      · rw [condOf, if_pos (adjustTerm_not_kept hkept)] at hname
        simp [Cond.name?] at hname
    · rw [bracket_columnName]
      exact fun c hc => h c (.inr (.inr ⟨o, ho, hc⟩))

/-! ## Every statement that is sent -/

/-- The plan xFilter works with: the one xBestIndex made, or the full scan when it cannot be read
    back. -/
def received (plan : VmsPlan) : VmsPlan := if plan.nargs ≤ vmsPlanMaxArgs then plan else fullPlan

variable {env : FilterEnv}

theorem mem_openCursor {first st : Sent} {again : Option Sent}
    (h : st ∈ (openCursor env first again).1) : st = first ∨ again = some st := by
  revert h
  fun_cases openCursor env first again <;> intro h
  case case5 | case6 => simpa [eq_comm (b := st)] using h
  all_goals exact .inl (by simpa using h)

variable {sql : List Nat} {params : List Int} {shared : Bool}

theorem filterPlan_sent (h : .sql shared sql params ∈ (filterPlan tab env plan argv).1) :
    ∃ m, mapArgs plan argv = some m ∧ buildFor tab m.plan = some sql ∧ params = sqlParams m := by
  revert h
  fun_cases filterPlan tab env plan argv <;> intro h
  case case4 m hm _ text hbuild =>
    -- the first attempt and the retry send the same
    rw [hbuild] at h
    rcases mem_openCursor h with he | he <;> cases he <;> exact ⟨m, hm, hbuild, rfl⟩
  all_goals simp at h

theorem filterAll_sent (h : .sql shared sql params ∈ (filterAll tab env).1) :
    buildFor tab fullPlan = some sql ∧ params = [] := by
  revert h
  fun_cases filterAll tab env <;> intro h
  case case1 | case2 => simp at h
  case case3 hbuild =>
    rcases mem_openCursor h with he | he <;> cases he
    exact ⟨hbuild, rfl⟩
  case case4 => rcases mem_openCursor h with he | he <;> cases he

theorem bestIndexPlan_fits (tab : VmsVtab) (key : Option VmsStableKey) (info : IndexInfo) :
    PlanFits (bestIndexPlan tab key info) := by
  have hfits := compiled_fits tab.cols info
  unfold bestIndexPlan
  cases key with
  | none => exact hfits
  | some k =>
    simp only
    split_ifs
    · exact ⟨hfits.magic, hfits.terms, hfits.order, hfits.ops, hfits.nargs⟩
    · exact hfits

/-- **Every statement sent** is the text of the received plan with its arguments put in, and its
    values. -/
theorem filter_sent {tab : VmsVtab} {env : FilterEnv} {plan : VmsPlan} (hplan : PlanFits plan)
    {argv : List FilterArg} {sql : List Nat} (h : .sql shared sql params ∈
      (vmsVtabFilter tab env 1 (some (vmsPlanSerialize plan)) argv).1) :
    ∃ m, mapArgs (received plan) argv = some m ∧ buildFor tab m.plan = some sql ∧ params = sqlParams m := by
  rw [vmsVtabFilter, if_pos rfl, Option.bind_some, deserialize_serialize hplan] at h
  rw [received]
  split_ifs at h ⊢ with hargs
  · exact filterPlan_sent h
  · obtain ⟨hbuild, rfl⟩ := filterAll_sent h
    exact ⟨⟨fullPlan, [], -1, 0⟩, rfl, hbuild, rfl⟩

theorem received_ops (hplan : PlanFits plan) : ∀ t ∈ (received plan).terms, ∀ n, t.op ≠ .other n := by
  rw [received]
  split_ifs
  · exact hplan.ops
  · simp [fullPlan]

/-- An identifier is the same in wide characters, and has no bracket. -/
theorem ident_wide {name : List Nat} (h : vmsMetaIdentValid name 128 = true) :
    utf8ToWide name = name ∧ 93 ∉ name := by
  refine ⟨utf8ToWide_of_ascii fun b hb => identChar_lt (identChar_of_valid h b hb), fun hm => ?_⟩
  exact (identChar_not_delim (identChar_of_valid h 93 hm)).2.1 rfl

theorem ident_free {name : List Nat} (h : vmsMetaIdentValid name 128 = true) : 93 ∉ utf8ToWide name := by
  rw [(ident_wide h).1]
  exact (ident_wide h).2

theorem buildFor_some (h : buildFor tab plan = some sql) : 93 ∉ utf8ToWide tab.schema ∧ 93 ∉ utf8ToWide tab.table ∧
      ∃ n, vmsPlanBuildSql sqlWchars tab.cols tab.spatialWkt plan tab.schema tab.table = some (sql, n) := by
  obtain ⟨⟨text, n⟩, hbuild, rfl⟩ := Option.map_eq_some_iff.mp h
  have hident := hbuild
  rw [vmsPlanBuildSql] at hident
  obtain ⟨_, hident⟩ := Option.ite_none_left_eq_some.mp hident
  obtain ⟨hident, _⟩ := Option.ite_none_left_eq_some.mp hident
  have hvalid : vmsMetaIdentValid tab.schema 128 = true ∧ vmsMetaIdentValid tab.table 128 = true := by
    simpa using hident
  exact ⟨ident_free hvalid.1, ident_free hvalid.2, n, hbuild⟩

theorem writesTop_adjust : writesTop (adjustPlan plan argv) ↔
      plan.hasLimit = true ∧ 0 ≤ planLimit plan argv ∧ plan.order = [] := by
  simp only [writesTop, adjustPlan, limitOff]
  cases plan.hasLimit <;> simp

/-- **When the text and the values fit together.**  For every statement xFilter sends, at the first
    attempt or at the retry: exactly when no LIMIT was kept without an ORDER BY, and no column in the
    text has a closing bracket in its name. -/
theorem markers_agree_iff (tab : VmsVtab) (key : Option VmsStableKey) (info : IndexInfo)
    (env : FilterEnv) (argv : List FilterArg) {shared : Bool} {sql : List Nat} {params : List Int}
    (hsent : .sql shared sql params ∈
      (vmsVtabFilter tab env 1 (some (vmsPlanSerialize (bestIndexPlan tab key info))) argv).1) :
    Agrees tab (received (bestIndexPlan tab key info)) argv sql params ↔
      ¬ ((received (bestIndexPlan tab key info)).hasLimit = true ∧
          0 ≤ planLimit (received (bestIndexPlan tab key info)) argv ∧
          (received (bestIndexPlan tab key info)).order = []) ∧
        ∀ c, EmitsColumn tab.cols (received (bestIndexPlan tab key info)) argv c → 93 ∉ c.name := by
  have hfits := bestIndexPlan_fits tab key info
  obtain ⟨m, hm, hbuild, rfl⟩ := filter_sent hfits hsent
  have hops := received_ops hfits
  have hplan : m.plan = adjustPlan (received (bestIndexPlan tab key info)) argv := by
    rw [mapArgs_some hm]
  rw [hplan] at hbuild
  obtain ⟨hschema, htable, n, hbuild⟩ := buildFor_some hbuild
  have hlex := build_lex_iff hbuild
  have hnames := names_iff argv hops hschema htable
  rw [intended] at hnames
  rw [hnames, writesTop_adjust] at hlex
  rw [← hlex]
  constructor
  · exact Agrees.reads
  · intro hreads
    have htop : ¬ writesTop (adjustPlan (received (bestIndexPlan tab key info)) argv) := by
      rw [writesTop_adjust]
      exact (hlex.mp hreads).1
    have hvalues := sqlParams_eq tab hops hm htop
    refine ⟨hreads, ?_, hvalues⟩
    rw [hreads, hvalues, length_map]
    exact count_markers _

theorem emitsColumn_mem (h : EmitsColumn cols plan argv c) : c ∈ cols := by
  rcases h with h | ⟨t, _, _, h⟩ | ⟨o, _, h⟩
  · exact mem_of_projected h
  all_goals exact (columnAt_some h).2

/-- The table `[s].[t]` with the integer column `a`. -/
def smallTab : VmsVtab := { schema := [115], table := [116], cols := [intColumn] }

def integerArg (i : Int) : FilterArg := { value := .integer i }

/-- `WHERE a = ? ORDER BY a LIMIT ?`. -/
def pagedInfo : IndexInfo :=
  { aConstraint := [⟨0, .eq, true⟩, ⟨-1, .limit, true⟩], aOrderBy := [⟨0, false⟩], colUsed := 1 }

def pagedText : List Nat :=
  wide "SELECT [a] FROM [s].[t] WHERE [a] = ? ORDER BY [a] OFFSET 0 ROWS FETCH NEXT ? ROWS ONLY"

/-- With an ORDER BY the text and the values fit together. -/
theorem markers_agree_paged :
    Agrees smallTab (received (bestIndexPlan smallTab none pagedInfo)) [integerArg 5, integerArg 3]
      pagedText [5, 3] := by
  refine (markers_agree_iff smallTab none pagedInfo {} [integerArg 5, integerArg 3]
    (show (.sql false _ _ : Sent) ∈ _ by decide +kernel)).mpr ⟨by decide +kernel, fun c hc => ?_⟩
  obtain rfl : c = intColumn := by simpa [smallTab] using emitsColumn_mem hc
  decide

/-- `LIMIT ? OFFSET ?`, without an ORDER BY. -/
def topInfo : IndexInfo :=
  { aConstraint := [⟨-1, .limit, true⟩, ⟨-1, .offset, true⟩], colUsed := 1 }

/-- `LIMIT 5 OFFSET 2`: the text has a marker, at its end, and nothing is bound to it. -/
theorem top_unbound : (.sql false (wide "SELECT [a] FROM [s].[t] TOP (?)") [] : Sent) ∈
        (vmsVtabFilter smallTab {} 1 (some (vmsPlanSerialize (bestIndexPlan smallTab none topInfo)))
          [integerArg 5, integerArg 2]).1 ∧
      ¬ Agrees smallTab (received (bestIndexPlan smallTab none topInfo)) [integerArg 5, integerArg 2]
        (wide "SELECT [a] FROM [s].[t] TOP (?)") [] := by
  refine ⟨by decide +kernel, fun h => absurd h.count ?_⟩
  decide +kernel

end VirtualMssql.Filter
