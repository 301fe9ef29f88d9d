/-
  LEASES — the connections that xConnect and xFilter borrow from the pool.

  Both calls take a connection with `vms_pool_acquire`, work on it, and give it back with `vms_pool_release` on every
  way out; xConnect takes a second one for a query in cached mode, and xFilter when a failed open is tried again.
  The calls are written as programs whose calls to the outside may be answered by anything, so every combination of
  failures is some list of answers.  What a text says is computed as in `Filter` and `Connect`.

  Inside a transaction the scan runs on the pinned connection, which is no lease, while the lease lies idle.

  `leases_settled`: whatever is answered, every lease is given back exactly once and not used afterwards.
-/
import VirtualMssql.Connect
import VirtualMssql.Lib.Ledger

namespace VirtualMssql.Leases

open Calls Ledger Connect MetaCache List
open Plan (vmsPlanDeserialize)
open Mat (VmsMatMode)
open VirtualMssql.Filter (VmsErrClass FilterArg FilterEnv FilterResult Mapped Sent mapArgs buildFor sqlParams fullPlan
  retryable)
open TSql (wide)

/-! ## Calls -/

/-- The calls to the outside; connections are named by numbers. -/
inductive Call
  | acquire
  | release (cn : Nat)
  | prepare (cn : Nat) (query : List Nat)
  | columns (cn : Nat) (schema table : List Nat)
  | cacheGet (fp : Nat)
  | cachePut (cols : List VmsMetaColumn) (fp : Nat)
  | cacheDrop
  | txnCurrent
  | matCreate (mode : VmsMatMode)
  | matBuild (cn : Nat)
  | matDestroy
  | matDb
  | matSelect
  | getSql
  | openSql (cn : Nat) (sql : List Nat) (params : List Int)
  | openShared (cn : Nat) (sql : List Nat) (params : List Int)
  | openTable (cn : Nat)
  | close
  | next

/-- An answer; every call reads its own part of it.  `cls` and `message` are what the call leaves in `err`. -/
structure Reply where
  cn : Option Nat := none
  ok : Bool := false
  cache : VmsCacheResult := .miss
  cols : List VmsMetaColumn := []
  text : List Nat := []
  cls : VmsErrClass := .ok
  message : List Nat := []

instance : Inhabited Reply := ⟨{}⟩

abbrev Code (α : Type) := Prog Call Reply α

/-- What a call does to a connection. -/
def acts : Call → Reply → List (Act Nat)
  | .acquire, x => x.cn.toList.map fun cn => ⟨.take, cn⟩
  | .release cn, _ => [⟨.give, cn⟩]
  | .prepare cn _, _ | .columns cn _ _, _ | .matBuild cn, _ | .openSql cn _ _, _ | .openShared cn _ _, _
  | .openTable cn, _ => [⟨.use, cn⟩]
  | _, _ => []

/-! ## `vms_vtab_connect` -/

/-- The columns, the fingerprint, and when they were read. -/
abbrev Shape := List VmsMetaColumn × Nat × Int

/-- A lease is taken for one call and given back, however that goes. -/
def probeWith (c : Nat → Call) (found : Reply → Shape) (refused : String) : Code (Except ConnectError Shape) := do
  let probe ← call .acquire
  match probe.cn with
  | none => pure (.error (.text (wide "virtualmssql: probe lease failed: " ++ probe.message)))
  | some cn =>
    let r ← call (c cn)
    if r.ok then
      let _ ← call (.release cn)
      pure (.ok (found r))
    else
      let _ ← call (.release cn)
      pure (.error (.text (wide refused ++ r.message)))

/-- A query is described. -/
def describeQuery (query : List Nat) : Code (Except ConnectError Shape) :=
  probeWith (.prepare · query) (fun r => (r.cols, 0, 0)) "virtualmssql: query rejected: "

variable (a : ConnectArgs) (query : Option (List Nat)) (now : Int) (fingerprint : Bool)

/-- The shape of a table in live mode. -/
def discoverLive : Code (Except ConnectError Shape) :=
  probeWith (.columns · a.schema a.table) (fun r => (r.cols, vmsMetaFingerprint fingerprint r.cols, now))
    "virtualmssql: metadata read failed: "

/-- The look at the server in cached mode.  For a query the lease is given back as it came. -/
def validateLive : Code LiveRead := do
  let probe ← call .acquire
  match probe.cn with
  | none => pure (.noLease probe.message)
  | some cn =>
    if query.isSome then
      let _ ← call (.release cn)
      pure (.failed [])
    else
      let r ← call (.columns cn a.schema a.table)
      let _ ← call (.release cn)
      pure (if r.ok then .cols r.cols else .failed r.message)

/-- The cache and the server's columns. -/
def compare (c : Reply) (fingerprint : Bool) : LiveRead → Code (Except ConnectError Shape)
  | .cols cols => do
    let liveFp := vmsMetaFingerprint fingerprint cols
    if c.cache = .miss then
      let _ ← call (.cachePut cols liveFp)
      pure (.ok (cols, liveFp, 0))
    else if liveFp ≠ 0 then
      let again ← call (.cacheGet liveFp)
      if again.cache = .drift then
        let _ ← call .cacheDrop
        pure (.error (driftText a))
      else if again.cache = .corrupt then pure (.error (corruptText a))
      else pure (.ok (cols, liveFp, 0))
    else pure (.ok (cols, liveFp, 0))
  | live =>
    if c.cache = .miss ∨ c.cache = .drift then pure (.error (unavailableText a live.message))
    else pure (.ok (c.cols, 0, -1))

/-- The shape in cached mode; a query is described live. -/
def discoverCached : Code (Except ConnectError Shape) := do
  let c ← call (.cacheGet 0)
  if c.cache = .corrupt then pure (.error (corruptText a))
  else
    let live ← validateLive a query
    match query with
    | some q => describeQuery q
    | none => compare a c fingerprint live

/-- `vms_vtab_connect`, from its first lease to its last: before and behind it no connection is touched. -/
def discover : Code (Except ConnectError Shape) :=
  if a.metadataCached then discoverCached a query fingerprint
  else
    match query with
    | some q => describeQuery q
    | none => discoverLive a now fingerprint

/-! ## `vms_vtab_filter` -/

/-- `struct VmsVtab`, with what it has for a query source. -/
structure VmsVtab extends Filter.VmsVtab where
  isQuerySource : Bool := false
  matMode : VmsMatMode := .off
  mat : Bool := false

/-- The scan is placed on its first row. -/
def first : Code FilterResult := do
  let r ← call .next
  pure (if r.ok then .opened else .failed r.cls)

/-- The rows of a materialized query come from its snapshot. -/
def readSnapshot : Code FilterResult := do
  let db ← call .matDb
  if db.ok then
    let st ← call .matSelect
    if st.ok then first else pure (.message "virtualmssql: snapshot read failed")
  else first

variable (tab : VmsVtab) (m : Option Mapped)

variable (lease : Nat)

/-- A materialized query: the snapshot is built on the lease, once. -/
def filterMaterialized : Code FilterResult :=
  if tab.mat then do
    let _ ← call (.release lease)
    readSnapshot
  else do
    let mat ← call (.matCreate tab.matMode)
    if mat.ok then
      let built ← call (.matBuild lease)
      if built.ok then
        let _ ← call (.release lease)
        readSnapshot
      else
        let _ ← call .matDestroy
        let _ ← call (.release lease)
        pure (.failed built.cls)
    else
      let _ ← call (.release lease)
      pure (.message "virtualmssql: materializer init failed")

/-- A query that is streamed. -/
def filterStreaming : Code FilterResult := do
  let sql ← call .getSql
  if sql.ok then
    let r ← call (.openSql lease sql.text [])
    let _ ← call (.release lease)
    if r.ok then first else pure (.failed r.cls)
  else
    let _ ← call (.release lease)
    pure (.message "virtualmssql: query copy failed")

/-- The first open: how it went, or a message when the lease is given back already. -/
def openFirst : Option Mapped → Code (Except FilterResult (Bool × VmsErrClass))
  | some m =>
    match buildFor tab.toVmsVtab m.plan with
    | none => do
      let _ ← call (.release lease)
      pure (.error (.message "virtualmssql: plan SQL build failed"))
    | some sql => do
      let txn ← call .txnCurrent
      match txn.cn with
      | some cn =>
        let r ← call (.openShared cn sql (sqlParams m))
        pure (.ok (r.ok, r.cls))
      | none =>
        let r ← call (.openSql lease sql (sqlParams m))
        pure (.ok (r.ok, r.cls))
  | none => do
    let txn ← call .txnCurrent
    match txn.cn with
    | some cn =>
      match buildFor tab.toVmsVtab fullPlan with
      | some sql =>
        let r ← call (.openShared cn sql [])
        pure (.ok (r.ok, r.cls))
      | none => pure (.ok (false, .internal))
    | none =>
      let r ← call (.openTable lease)
      pure (.ok (r.ok, r.cls))

/-- The second open; a text that is not built leaves `err` as it was cleared. -/
def openAgain : Option Mapped → Code (Bool × VmsErrClass)
  | some m =>
    match buildFor tab.toVmsVtab m.plan with
    | none => pure (false, .ok)
    | some sql => do
      let r ← call (.openSql lease sql (sqlParams m))
      pure (r.ok, r.cls)
  | none => do
    let r ← call (.openTable lease)
    pure (r.ok, r.cls)

/-- The retry: once, outside a transaction, and only for the transport. -/
def retry (cls : VmsErrClass) : Code FilterResult := do
  let txn ← call .txnCurrent
  if txn.cn.isNone && retryable cls then
    let l ← call .acquire
    match l.cn with
    | none => pure (.failed l.cls)
    | some lease =>
      let r ← openAgain tab lease m
      let _ ← call (.release lease)
      if r.1 then first else pure (.failed r.2)
  else pure (.failed cls)

/-- Behind the first open the lease goes back, whatever comes. -/
def afterOpen (ok : Bool) (cls : VmsErrClass) : Code FilterResult := do
  let _ ← call (.release lease)
  if ok then first else retry tab m cls

def filterTable : Code FilterResult := do
  let out ← openFirst tab lease m
  match out with
  | .error e => pure e
  | .ok (ok, cls) => afterOpen tab m lease ok cls

/-- Behind the arguments. -/
def filterLeased : Code FilterResult := do
  let l ← call .acquire
  match l.cn with
  | none => pure (.failed l.cls)
  | some lease =>
    if tab.isQuerySource then
      if tab.matMode ≠ .off then filterMaterialized tab lease else filterStreaming lease
    else filterTable tab m lease

/-- The plan that xFilter is given, for a table source. -/
def givenPlan (idxNum : Nat) (idxStr : Option (List Int)) : Option Plan.VmsPlan :=
  if idxNum = 1 ∧ tab.isQuerySource = false then idxStr.bind vmsPlanDeserialize else none

/-- The arguments, and what follows. -/
def filterScan (idxNum : Nat) (idxStr : Option (List Int)) (argv : List FilterArg) :
    Code FilterResult :=
  match givenPlan tab idxNum idxStr with
  | some plan =>
    match mapArgs plan argv with
    | none => pure (.message "virtualmssql: non-integer value for pushed-down constraint (plan/arg mismatch)")
    | some m => filterLeased tab (some m)
  | none => filterLeased tab none

/-- `vms_vtab_filter`; a scan that is open is closed first. -/
def vmsVtabFilter (tab : VmsVtab) (scanOpen : Bool) (idxNum : Nat) (idxStr : Option (List Int))
    (argv : List FilterArg) : Code FilterResult :=
  if scanOpen then do
    let _ ← call .close
    filterScan tab idxNum idxStr argv
  else filterScan tab idxNum idxStr argv

/-! ## The book of the leases -/

/-- Nothing is held behind the program. -/
abbrev Closes {α : Type} (p : Code α) (b : Book Nat) : Prop := Leaves acts (fun b _ => b.Closed) p b

section Rules
variable {α : Type} {Q : Book Nat → α → Prop} {b : Book Nat} {cn : Nat} {k : Reply → Code α}

/-- A lease is refused, or taken. -/
theorem leaves_acquire (hnone : ∀ x, x.cn = none → Leaves acts Q (k x) b)
    (hsome : ∀ x cn, x.cn = some cn → Leaves acts Q (k x) (b.enter ⟨.take, cn⟩)) :
    Leaves acts Q (call .acquire >>= k) b := by
  refine leaves_call fun x => ?_
  cases hx : x.cn with
  | none =>
    rw [show acts .acquire x = [] by simp [acts, hx]]
    exact hnone x hx
  | some cn =>
    rw [show acts .acquire x = [⟨.take, cn⟩] by simp [acts, hx]]
    exact hsome x cn hx

theorem leaves_use {c : Call} (hc : ∀ x, acts c x = [⟨.use, cn⟩]) (hb : b.Held [cn])
    (h : ∀ x b', b'.Held [cn] → Leaves acts Q (k x) b') : Leaves acts Q (call c >>= k) b := by
  refine leaves_call fun x => ?_
  rw [hc x]
  exact h x _ (hb.use (mem_singleton.mpr rfl))

/-- Beside the first lease any connection may be used. -/
theorem leaves_useFirst {c : Call} {q : Nat} (hc : ∀ x, acts c x = [⟨.use, q⟩])
    (hb : b.HoldsFirst cn) (h : ∀ x b', b'.HoldsFirst cn → Leaves acts Q (k x) b') :
    Leaves acts Q (call c >>= k) b := by
  refine leaves_call fun x => ?_
  rw [hc x]
  exact h x _ (hb.use q)

theorem leaves_release (hb : b.Held [cn]) (h : ∀ x b', b'.Closed → Leaves acts Q (k x) b') :
    Leaves acts Q (call (.release cn) >>= k) b := leaves_call fun x => h x _ hb.give_only

/-- The lease goes back, and the call is over. -/
theorem closes_return {x : α} (hb : b.Held [cn]) : Closes (do let _ ← call (.release cn); pure x) b :=
  leaves_release hb fun _ _ hb => leaves_pure hb

/-- Where nothing is held, one is held behind a take. -/
theorem held_of_closed (hb : b.Closed) (cn : Nat) : (b.enter ⟨.take, cn⟩).Held [cn] := hb.held.take (by simp)

end Rules

/-! ## xConnect -/

section Connect
variable {b : Book Nat} (hb : b.Closed)
include hb

theorem probeWith_closes {c : Nat → Call} (hc : ∀ cn x, acts (c cn) x = [⟨.use, cn⟩]) (found : Reply → Shape)
    (refused : String) : Closes (probeWith c found refused) b := by
  refine leaves_acquire (fun probe hnone => ?_) fun probe cn hsome => ?_
  · simp only [hnone]
    exact leaves_pure hb
  · simp only [hsome]
    refine leaves_use (hc cn) (held_of_closed hb cn) fun r b hb => ?_
    split_ifs
    all_goals exact closes_return hb

theorem describeQuery_closes (query : List Nat) : Closes (describeQuery query) b :=
  probeWith_closes hb (fun _ _ => rfl) _ _

theorem discoverLive_closes : Closes (discoverLive a now fingerprint) b :=
  probeWith_closes hb (fun _ _ => rfl) _ _

theorem validateLive_closes : Closes (validateLive a query) b := by
  refine leaves_acquire (fun probe hnone => ?_) fun probe cn hsome => ?_
  · simp only [hnone]
    exact leaves_pure hb
  · simp only [hsome]
    split_ifs
    · exact closes_return (held_of_closed hb cn)
    · refine leaves_use (fun _ => rfl) (held_of_closed hb cn) fun r b hb => ?_
      exact closes_return hb

/-- The cache is compared without a connection. -/
theorem compare_closes (c : Reply) (fingerprint : Bool) (live : LiveRead) :
    Closes (compare a c fingerprint live) b := by
  fun_cases compare a c fingerprint live
  case case1 => exact leaves_skip (fun _ => rfl) fun _ => leaves_pure hb
  case case2 =>
    refine leaves_skip (fun _ => rfl) fun again => ?_
    split_ifs
    · exact leaves_skip (fun _ => rfl) fun _ => leaves_pure hb
    all_goals exact leaves_pure hb
  all_goals exact leaves_pure hb

theorem discoverCached_closes : Closes (discoverCached a query fingerprint) b := by
  refine leaves_skip (fun _ => rfl) fun c => ?_
  split_ifs
  · exact leaves_pure hb
  · refine (validateLive_closes a query hb).bind fun live b hb => ?_
    cases query with
    | some q => exact describeQuery_closes hb q
    | none => exact compare_closes a hb c fingerprint live

/-- **xConnect gives back what it takes.** -/
theorem discover_closes : Closes (discover a query now fingerprint) b := by
  unfold discover
  split_ifs
  · exact discoverCached_closes a query fingerprint hb
  · cases query with
    | some q => exact describeQuery_closes hb q
    | none => exact discoverLive_closes a now fingerprint hb

end Connect

/-! ## xFilter -/

section Scan
variable {b : Book Nat}

theorem first_closes (hb : b.Closed) : Closes first b := leaves_skip (fun _ => rfl) fun _ => leaves_pure hb

theorem readSnapshot_closes (hb : b.Closed) : Closes readSnapshot b := by
  refine leaves_skip (fun _ => rfl) fun db => ?_
  split_ifs
  · refine leaves_skip (fun _ => rfl) fun st => ?_
    split_ifs
    · exact first_closes hb
    · exact leaves_pure hb
  · exact first_closes hb

variable {lease}

theorem filterMaterialized_closes (hb : b.Held [lease]) : Closes (filterMaterialized tab lease) b := by
  rw [filterMaterialized]
  split_ifs
  · exact leaves_release hb fun _ _ hb => readSnapshot_closes hb
  · refine leaves_skip (fun _ => rfl) fun mat => ?_
    split_ifs
    · refine leaves_use (fun _ => rfl) hb fun built b hb => ?_
      split_ifs
      · exact leaves_release hb fun _ _ hb => readSnapshot_closes hb
      · exact leaves_skip (fun _ => rfl) fun _ => closes_return hb
    · exact closes_return hb

theorem filterStreaming_closes (hb : b.Held [lease]) : Closes (filterStreaming lease) b := by
  refine leaves_skip (fun _ => rfl) fun sql => ?_
  split_ifs
  · refine leaves_use (fun _ => rfl) hb fun r b hb => leaves_release hb fun _ b hb => ?_
    split_ifs
    · exact first_closes hb
    · exact leaves_pure hb
  · exact closes_return hb

/-- Behind the first open the lease is still there, unless there is a message already. -/
def FirstOpened (lease : Nat) (b : Book Nat) : Except FilterResult (Bool × VmsErrClass) → Prop
  | .error _ => b.Closed
  | .ok _ => b.Held [lease]

/-- **The first open.**  Inside a transaction it uses the pinned connection, whichever that is. -/
theorem openFirst_leaves (hb : b.HoldsFirst lease) :
    Leaves acts (FirstOpened lease) (openFirst tab lease m) b := by
  fun_cases openFirst tab lease m
  case case1 => exact leaves_release hb.held fun _ _ hb => leaves_pure hb
  case case2 =>
    refine leaves_skip (fun _ => rfl) fun txn => ?_
    cases txn.cn with
    | some cn | none => exact leaves_useFirst (fun _ => rfl) hb fun _ _ hb => leaves_pure hb.held
  case case3 =>
    refine leaves_skip (fun _ => rfl) fun txn => ?_
    cases txn.cn with
    | some cn =>
      cases buildFor tab.toVmsVtab fullPlan with
      | some sql => exact leaves_useFirst (fun _ => rfl) hb fun _ _ hb => leaves_pure hb.held
      | none => exact leaves_pure hb.held
    | none => exact leaves_useFirst (fun _ => rfl) hb fun _ _ hb => leaves_pure hb.held

theorem openAgain_leaves (hb : b.Held [lease]) :
    Leaves acts (fun b _ => b.Held [lease]) (openAgain tab lease m) b := by
  fun_cases openAgain tab lease m
  case case1 => exact leaves_pure hb
  case case2 => exact leaves_use (fun _ => rfl) hb fun _ _ hb => leaves_pure hb
  case case3 => exact leaves_use (fun _ => rfl) hb fun _ _ hb => leaves_pure hb

/-- **The retry takes a lease of its own.** -/
theorem retry_closes (cls : VmsErrClass) (hb : b.Closed) :
    Closes (retry tab m cls) b := by
  refine leaves_skip (fun _ => rfl) fun txn => ?_
  split_ifs
  · refine leaves_acquire (fun l hnone => ?_) fun l cn hsome => ?_
    · simp only [hnone]
      exact leaves_pure hb
    · simp only [hsome]
      refine (openAgain_leaves tab m (held_of_closed hb cn)).bind fun r b hb => leaves_release hb fun _ b hb => ?_
      split_ifs
      · exact first_closes hb
      · exact leaves_pure hb
  · exact leaves_pure hb

theorem afterOpen_closes (ok : Bool) (cls : VmsErrClass) (hb : b.Held [lease]) :
    Closes (afterOpen tab m lease ok cls) b := by
  refine leaves_release hb fun _ b hb => ?_
  split_ifs
  · exact first_closes hb
  · exact retry_closes tab m cls hb

theorem filterTable_closes (hb : b.HoldsFirst lease) :
    Closes (filterTable tab m lease) b := by
  refine (openFirst_leaves tab m hb).bind fun out b hb => ?_
  cases out with
  | error e => exact leaves_pure hb
  | ok r => exact afterOpen_closes tab m r.1 r.2 hb

theorem filterLeased_closes : Closes (filterLeased tab m) Book.empty := by
  refine leaves_acquire (fun l hnone => ?_) fun l lease hsome => ?_
  · simp only [hnone]
    exact leaves_pure Book.closed_empty
  · simp only [hsome]
    have hb := Book.take_first lease
    split_ifs
    · exact filterMaterialized_closes tab hb.held
    · exact filterStreaming_closes hb.held
    · exact filterTable_closes tab m hb

theorem filterScan_closes (idxNum : Nat) (idxStr : Option (List Int)) (argv : List FilterArg) :
    Closes (filterScan tab idxNum idxStr argv) Book.empty := by
  fun_cases filterScan tab idxNum idxStr argv
  case case1 => exact leaves_pure Book.closed_empty
  case case2 => exact filterLeased_closes tab _
  case case3 => exact filterLeased_closes tab none

/-- **xFilter gives back what it takes.** -/
theorem vmsVtabFilter_closes (tab : VmsVtab) (scanOpen : Bool) (idxNum : Nat) (idxStr : Option (List Int))
    (argv : List FilterArg) : Closes (vmsVtabFilter tab scanOpen idxNum idxStr argv) Book.empty := by
  rw [vmsVtabFilter]
  split_ifs
  · exact leaves_skip (fun _ => rfl) fun _ => filterScan_closes tab idxNum idxStr argv
  · exact filterScan_closes tab idxNum idxStr argv

end Scan

/-! ## The result -/

/-- What a run did to a connection. -/
def uses (cn : Nat) (calls : List (Call × Reply)) : List Kind := about cn (entries acts calls)

/-- **Leases are balanced.**  Whatever the pool, the server, the cache and the materializer answer, every connection
    is taken, used and given back once for every time it is taken, and not used before it is taken again. -/
theorem leases_settled (cn : Nat) (xs : List Reply) :
    (∀ a query now fingerprint, Settled (uses cn ((discover a query now fingerprint).run xs).1)) ∧
      ∀ tab scanOpen idxNum idxStr argv,
        Settled (uses cn ((vmsVtabFilter tab scanOpen idxNum idxStr argv).run xs).1) := by
  refine ⟨fun a query now fingerprint => ?_, fun tab scanOpen idxNum idxStr argv => ?_⟩
  · exact settled_of_leaves (discover_closes a query now fingerprint Book.closed_empty) xs cn
  · exact settled_of_leaves (vmsVtabFilter_closes tab scanOpen idxNum idxStr argv) xs cn

end VirtualMssql.Leases
