/-
  QUARANTINE — which operations notice that a connection is lost, and which of them ask.

  Every operation of the adapter runs a job that makes ODBC calls.  A job that captures a diagnostic of class 08
  may set the connection's flag `quarantined`, and an operation may look at the flag before it does anything.  Each
  job does so, or not, for itself.  The model has the jobs with their calls in order; a call is named by its job,
  and it may be answered by anything, an error with any diagnostic records included.

  `quarantine_complete_iff` says for every history of operations and every operation behind it when it is refused.
-/
import VirtualMssql.Lib.Prog
import VirtualMssql.Txn

namespace VirtualMssql.Quarantine

open Calls
open Txn (VmsConnection VmsTxnResult)

/-! ## Diagnostics -/

abbrev SqlState := List Char

inductive VmsErrClass
  | internal
  | driverNotFound
  | connect
  | cancelled
  | timeout
  | transport
  | exec
  deriving DecidableEq

/-- `classify_state`: the class, and whether the connection is lost. -/
def classifyState (st : SqlState) : VmsErrClass × Bool :=
  if st = [] then (.internal, false)
  else if ['I', 'M', '0'].isPrefixOf st then
    if st = ['I', 'M', '0', '0', '2'] ∨ st = ['I', 'M', '0', '0', '3'] then (.driverNotFound, false)
    else (.connect, false)
  else if st = ['H', 'Y', '0', '0', '8'] then (.cancelled, false)
  else if st = ['H', 'Y', 'T', '0', '0'] ∨ st = ['H', 'Y', 'T', '0', '1'] then (.timeout, false)
  else if ['0', '8'].isPrefixOf st then (.transport, true)
  else (.exec, false)

/-- What an ODBC call returns: with a success the number it delivers (a count, a value, a length), with an error
    its diagnostic records. -/
inductive Ret
  | success (value : Int)
  | info (value : Int)
  | noData
  | error (diag : List SqlState)
  deriving DecidableEq

instance : Inhabited Ret := ⟨.success 0⟩

/-- `SQL_SUCCEEDED`. -/
def Ret.succeeded : Ret → Bool
  | .success _ | .info _ => true
  | _ => false

def Ret.value : Ret → Int
  | .success n | .info n => n
  | _ => 0

def Ret.diag : Ret → List SqlState
  | .error diag => diag
  | _ => []

/-- `diag_capture`: only the first record is read. -/
def diagCapture (r : Ret) : VmsErrClass × Bool := classifyState (r.diag.headD [])

/-- A diagnostic of class 08 was returned. -/
def Ret.class08 (r : Ret) : Bool := r.diag.any (['0', '8'].isPrefixOf ·)

/-! ## Calls -/

/-- The job that makes a call; `getdata` are the functions both fetches call, `cursor` the jobs of a cursor.  For
    `job_txn_finalize`, whether the COMMIT of an open transaction is in flight. -/
inductive Job
  | exec
  | describe
  | fetch
  | getdata
  | cursor
  | more
  | begin_
  | commit
  | rollback
  | queryTimeout
  | verify
  | dml
  | pin
  | beginLazy
  | savepoint
  | doomed
  | finalize (inFlight : Bool)
  deriving DecidableEq

/-- The ODBC functions, and what is decided on this side: memory, conversions, the room in the pool. -/
inductive Fn
  | allocHandle
  | freeHandle
  | execDirect
  | fetch
  | getData
  | moreResults
  | numResultCols
  | describeCol
  | bindParameter
  | rowCount
  | freeStmt
  | endTran
  | setConnectAttr
  | here
  deriving DecidableEq

/-- A call, and the job it is made in. -/
structure Site where
  job : Job
  fn : Fn
  deriving DecidableEq

def Site.odbc (c : Site) : Bool := c.fn ≠ .here

/-- The call works on the connection.  Handles are made and given back without it: `vms_stmt_exec_direct` makes
    one before its job looks at the flag. -/
def Site.reaches (c : Site) : Bool := c.fn ≠ .here && c.fn ≠ .allocHandle && c.fn ≠ .freeHandle

abbrev Code (α : Type) := Prog Site Ret α

/-- The connection as it is left, and whether the call succeeds. -/
abbrev Change := Code (VmsConnection × Bool)

def ask (j : Job) (f : Fn) : Code Ret := call ⟨j, f⟩

variable (cn : VmsConnection)

/-- A lost connection is flagged. -/
def mark (q : Bool) : VmsConnection := { cn with quarantined := cn.quarantined || q }

/-! ## The jobs -/

/-- `job_exec`. -/
def jobExec : Change :=
  if cn.quarantined then pure (cn, false)
  else do
    let r ← ask .exec .execDirect
    if r.succeeded ∨ r = .noData then pure (cn, true) else pure (mark cn (diagCapture r).2, false)

/-- The loops that make a call for each column or parameter. -/
def each (j : Job) (f : Fn) : Nat → Code Bool
  | 0 => pure true
  | n + 1 => do
    let r ← ask j f
    if r.succeeded then each j f n else pure false

/-- `job_meta` and `job_cursor_meta`. -/
def jobMeta (j : Job) : Code Bool := do
  let n ← ask j .numResultCols
  if n.succeeded then
    if 0 < n.value then
      let mem ← ask j .here
      if mem.succeeded then each j .describeCol n.value.toNat else pure false
    else pure true
  else pure false

/-- `vms_stmt_exec_direct`. -/
def vmsStmtExecDirect : Change := do
  let mem ← ask .exec .here
  if mem.succeeded then
    let h ← ask .exec .allocHandle
    if h.succeeded then
      let (cn, ok) ← jobExec cn
      if ok then
        let ok ← jobMeta .describe
        if ok then pure (cn, true)
        else
          let _ ← ask .describe .freeHandle
          pure (cn, false)
      else
        let _ ← ask .exec .freeHandle
        pure (cn, false)
    else pure (cn, false)
  else pure (cn, false)

def sqlNullData : Int := -1

/-- Memory for a piece of this length. -/
def keepPiece (got : Int) : Code Bool :=
  if 0 < got then do
    let mem ← ask .getdata .here
    pure mem.succeeded
  else pure true

/-- The SQLGetData loop of `getdata_text` and `getdata_blob`: a value comes in pieces, `pieces` of them at most. -/
def getdataPieces : Nat → Code Bool
  | 0 => pure false
  | pieces + 1 => do
    let r ← ask .getdata .getData
    match r with
    | .noData => pure true
    | .error _ => pure false
    | .success got => if got = sqlNullData then pure true else keepPiece got
    | .info got =>
      if got = sqlNullData then pure true
      else
        let kept ← keepPiece got
        if kept then getdataPieces pieces else pure false

/-- `getdata_text`: the whole value is converted behind the loop. -/
def getdataText (pieces : Nat) : Code Bool := do
  let ok ← getdataPieces pieces
  if ok then
    let converted ← ask .getdata .here
    pure converted.succeeded
  else pure false

/-- `getdata_scalar_text`. -/
def getdataScalarText : Code Bool := do
  let r ← ask .getdata .getData
  if r.succeeded ∨ r = .noData then
    if r.value = sqlNullData then pure true
    else
      let converted ← ask .getdata .here
      pure converted.succeeded
  else pure false

/-- A column of `job_fetch`, or of `job_cursor_fetch`. -/
def decodeCol (pieces : Nat) : VmsColType → Code Bool
  | .int64 | .float64 => do
    let r ← ask .getdata .getData
    pure r.succeeded
  | .text | .bigtext => getdataText pieces
  | .decimal | .datetime | .guid => getdataScalarText
  | .spatial | .blob => getdataPieces pieces
  | .unsupported => pure false

def decodeRow (pieces : Nat) : List VmsColType → Code Bool
  | [] => pure true
  | c :: cs => do
    let ok ← decodeCol pieces c
    if ok then decodeRow pieces cs else pure false

/-- The rest of a fetch behind a row: its buffer is made, if there are columns, and filled. -/
def fetchRow (j : Job) (pieces : Nat) (cols : List VmsColType) : Code Bool :=
  if cols = [] then pure true
  else do
    let mem ← ask j .here
    if mem.succeeded then decodeRow pieces cols else pure false

/-- `job_fetch`, for a statement with these columns. -/
def jobFetch (cols : List VmsColType) (pieces : Nat) (cn : VmsConnection) : Change := do
  let r ← ask .fetch .fetch
  if r = .noData then pure (cn, true)
  else if r.succeeded then
    let ok ← fetchRow .fetch pieces cols
    pure (cn, ok)
  else pure (mark cn (diagCapture r).2, false)

/-- `vms_stmt_fetch`. -/
def vmsStmtFetch (cols : List VmsColType) (pieces : Nat) (cn : VmsConnection) : Change :=
  if cn.quarantined then pure (cn, false) else jobFetch cols pieces cn

/-- `vms_stmt_more_results`, `job_more`. -/
def vmsStmtMoreResults : Change := do
  let r ← ask .more .moreResults
  if r.succeeded ∨ r = .noData then pure (cn, true) else pure (mark cn (diagCapture r).2, false)

/-- The end of `job_dml`: the statement goes, however it went. -/
def dmlEnd (ok : Bool) : Change := do
  let _ ← ask .dml .freeStmt
  let _ ← ask .dml .freeHandle
  pure (cn, ok)

/-- `vms_conn_exec_dml`, `job_dml`. -/
def vmsConnExecDml (nparams : Nat) (cn : VmsConnection) : Change :=
  if cn.quarantined then pure (cn, false)
  else do
    let h ← ask .dml .allocHandle
    if h.succeeded then
      let mem ← ask .dml .here
      if mem.succeeded then
        let bound ← each .dml .bindParameter nparams
        if bound then
          let r ← ask .dml .execDirect
          if r.succeeded ∨ r = .noData then
            let _ ← ask .dml .rowCount
            dmlEnd cn true
          else dmlEnd cn false
        else dmlEnd cn false
      else dmlEnd cn false
    else pure (cn, false)

/-- The parameters of a cursor, and the arrays they are bound to. -/
def cursorParams (nparams : Nat) : Code Bool :=
  if nparams = 0 then pure true
  else do
    let vals ← ask .cursor .here
    let inds ← ask .cursor .here
    if vals.succeeded && inds.succeeded then each .cursor .bindParameter nparams else pure false

/-- The statement of a cursor: its parameters, `job_cursor_open` and `job_cursor_meta`. -/
def cursorExecute (nparams : Nat) : Code Bool := do
  let bound ← cursorParams nparams
  if bound then
    let r ← ask .cursor .execDirect
    if r.succeeded ∨ r = .noData then jobMeta .cursor else pure false
  else pure false

/-- `cursor_open_impl` on the connection of the parent. -/
def cursorOpenShared (nparams : Nat) : Code Bool := do
  let mem ← ask .cursor .here
  if mem.succeeded then
    let h ← ask .cursor .allocHandle
    if h.succeeded then
      let ok ← cursorExecute nparams
      if ok then pure true
      else
        let _ ← ask .cursor .freeStmt
        let _ ← ask .cursor .freeHandle
        pure false
    else pure false
  else pure false

/-- `vms_cursor_open_shared`. -/
def vmsCursorOpenShared (nparams : Nat) (cn : VmsConnection) : Change := do
  let ok ← cursorOpenShared nparams
  pure (cn, ok)

/-- `vms_cursor_fetch`, `job_cursor_fetch`, for a shared cursor that is closed or has these columns. -/
def vmsCursorFetch (closed : Bool) (cols : List VmsColType) (pieces : Nat) (cn : VmsConnection) :
    Change :=
  if closed then pure (cn, false)
  else do
    let r ← ask .cursor .fetch
    if r = .noData then pure (cn, true)
    else if r.succeeded then
      let ok ← fetchRow .cursor pieces cols
      pure (cn, ok)
    else pure (cn, false)

/-- `vms_cursor_close`, for a shared cursor. -/
def vmsCursorClose : Change := do
  let _ ← ask .cursor .freeStmt
  let _ ← ask .cursor .freeHandle
  pure (cn, true)

/-- `vms_tran_begin`, `job_begin`. -/
def vmsTranBegin : Change := do
  let r ← ask .begin_ .setConnectAttr
  pure (cn, r.succeeded)

/-- `vms_tran_commit`, `job_commit`. -/
def vmsTranCommit : Change := do
  let r ← ask .commit .endTran
  if r.succeeded then pure (cn, true) else pure (mark cn (diagCapture r).2, false)

/-- `vms_tran_rollback`, `job_rollback`. -/
def vmsTranRollback : Change := do
  let r ← ask .rollback .endTran
  pure (cn, r.succeeded)

/-- `vms_conn_set_query_timeout`. -/
def vmsConnSetQueryTimeout : Change := do
  let r ← ask .queryTimeout .setConnectAttr
  pure (cn, r.succeeded)

/-- `txn_exec_utf8`. -/
def txnExecUtf8 (j : Job) : Code Bool := do
  let wide ← ask j .here
  if wide.succeeded then
    let h ← ask j .allocHandle
    if h.succeeded then
      let r ← ask j .execDirect
      let _ ← ask j .freeStmt
      let _ ← ask j .freeHandle
      pure r.succeeded
    else pure false
  else pure false

/-- `vms_txn_pin`, `job_txn_pin`: manual commit, no BEGIN by the driver, and the primer. -/
def vmsTxnPin : Change :=
  if cn.txnPinned then pure (cn, true)
  else do
    let manual ← ask .pin .setConnectAttr
    if manual.succeeded then
      let autobegin ← ask .pin .setConnectAttr
      if autobegin.succeeded then
        let primed ← txnExecUtf8 .pin
        if primed then pure ({ cn with txnPinned := true }, true)
        else
          let _ ← ask .pin .setConnectAttr
          pure (cn, false)
      else pure (cn, false)
    else pure (cn, false)

/-- A query for one number: executed, fetched and read. -/
def queryValue (j : Job) : Code (Option Int) := do
  let r ← ask j .execDirect
  if r.succeeded then
    let row ← ask j .fetch
    if row.succeeded then
      let v ← ask j .getData
      if v.succeeded then pure (some v.value) else pure none
    else pure none
  else pure none

/-- `vms_txn_begin_lazy`, `job_txn_begin_lazy`. -/
def vmsTxnBeginLazy : Change :=
  if cn.txnActive then pure (cn, true)
  else if !cn.txnPinned then pure (cn, false)
  else do
    let h ← ask .beginLazy .allocHandle
    if h.succeeded then
      let trancount ← queryValue .beginLazy
      let _ ← ask .beginLazy .freeStmt
      let _ ← ask .beginLazy .freeHandle
      match trancount with
      | none => pure (cn, false)
      | some n =>
        if 0 < n then pure ({ cn with txnActive := true }, true)
        else
          let begun ← txnExecUtf8 .beginLazy
          if begun then pure ({ cn with txnActive := true }, true) else pure (cn, false)
    else pure (cn, false)

/-- `vms_txn_savepoint`, `job_txn_savepoint`, SAVE and ROLLBACK alike; a name that is no identifier is refused. -/
def vmsTxnSavepoint (valid : Bool) (cn : VmsConnection) : Change :=
  if !valid then pure (cn, false)
  else do
    let h ← ask .savepoint .allocHandle
    if h.succeeded then
      let r ← ask .savepoint .execDirect
      if r.succeeded then
        let _ ← ask .savepoint .freeStmt
        let _ ← ask .savepoint .freeHandle
        pure (cn, true)
      else
        let _ ← ask .savepoint .freeHandle
        pure (cn, false)
    else pure (cn, false)

/-- `vms_txn_doomed`, `job_txn_doomed`. -/
def vmsTxnDoomed : Code Bool :=
  if cn.txnActive then do
    let h ← ask .doomed .allocHandle
    if h.succeeded then
      let state ← queryValue .doomed
      let _ ← ask .doomed .freeStmt
      let _ ← ask .doomed .freeHandle
      pure (state == some (-1))
    else pure false
  else pure false

/-- `vms_txn_validate`. -/
def vmsTxnValidate : Change :=
  if !cn.txnActive then pure (cn, false)
  else do
    let doomed ← vmsTxnDoomed cn
    pure (cn, !doomed)

/-- `job_txn_finalize`, `vms_txn_commit` and `vms_txn_rollback`. -/
def jobTxnFinalize (rollbackOp : Bool) (cn : VmsConnection) : Code (VmsConnection × VmsTxnResult) := do
  let inFlight := !rollbackOp && cn.txnActive
  let ended := { cn with txnActive := false }
  let r ← ask (.finalize inFlight) .endTran
  if r.succeeded then
    let _ ← ask (.finalize inFlight) .setConnectAttr
    pure ({ ended with txnPinned := false }, .ok)
  else
    let (cls, q) := diagCapture r
    if q ∨ cls = .transport ∨ cls = .connect then pure (mark ended true, .unknown)
    else if cls = .timeout then pure (cn, .busy)
    else if inFlight then pure (mark ended true, .unknown)
    else pure (ended, .busy)

def vmsTxnFinalize (rollbackOp : Bool) (cn : VmsConnection) : Change := do
  let (cn, result) ← jobTxnFinalize rollbackOp cn
  pure (cn, result == .ok)

/-- `vms_conn_verify`, `job_verify`. -/
def vmsConnVerify : Code Bool :=
  if cn.quarantined then pure false
  else do
    let h ← ask .verify .allocHandle
    if h.succeeded then
      let trancount ← queryValue .verify
      if trancount = some 0 then
        let _ ← ask .verify .freeStmt
        let r ← ask .verify .execDirect
        let _ ← ask .verify .freeStmt
        let _ ← ask .verify .freeHandle
        pure r.succeeded
      else
        let _ ← ask .verify .freeHandle
        pure false
    else pure false

/-- `vms_pool_release`: does the connection go back to the idle list? -/
def vmsPoolRelease : Change := do
  let ok ← vmsConnVerify cn
  if ok then
    let room ← ask .verify .here
    pure (cn, room.succeeded)
  else pure (cn, false)

/-- `vms_pool_acquire`, for an idle connection: is it reused? -/
def vmsPoolReuse : Change := do
  let ok ← vmsConnVerify cn
  pure (cn, ok)

/-! ## Histories -/

/-- What is done with a connection of the pool. -/
inductive Op
  | execute
  | fetch (cols : List VmsColType) (pieces : Nat)
  | moreResults
  | dml (nparams : Nat)
  | openShared (nparams : Nat)
  | cursorFetch (closed : Bool) (cols : List VmsColType) (pieces : Nat)
  | cursorClose
  | begin_
  | commit
  | rollback
  | queryTimeout
  | pin
  | beginLazy
  | savepoint (valid : Bool)
  | validate
  | finalize (rollbackOp : Bool)
  | release
  | reuse

def Op.code : Op → Change
  | .execute => vmsStmtExecDirect cn
  | .fetch cols pieces => vmsStmtFetch cols pieces cn
  | .moreResults => vmsStmtMoreResults cn
  | .dml nparams => vmsConnExecDml nparams cn
  | .openShared nparams => vmsCursorOpenShared nparams cn
  | .cursorFetch closed cols pieces => vmsCursorFetch closed cols pieces cn
  | .cursorClose => vmsCursorClose cn
  | .begin_ => vmsTranBegin cn
  | .commit => vmsTranCommit cn
  | .rollback => vmsTranRollback cn
  | .queryTimeout => vmsConnSetQueryTimeout cn
  | .pin => vmsTxnPin cn
  | .beginLazy => vmsTxnBeginLazy cn
  | .savepoint valid => vmsTxnSavepoint valid cn
  | .validate => vmsTxnValidate cn
  | .finalize rollbackOp => vmsTxnFinalize rollbackOp cn
  | .release => vmsPoolRelease cn
  | .reuse => vmsPoolReuse cn

inductive Place
  | leased
  | idle
  | closed
  deriving DecidableEq

/-- Where a connection must be for the operation. -/
def Op.from_ : Op → Place
  | .reuse => .idle
  | _ => .leased

/-- Where it is behind the operation. -/
def Op.to : Op → Bool → Place
  | .release, true => .idle
  | .release, false | .reuse, false => .closed
  | _, _ => .leased

/-- A connection, where it is, and the calls that were made for it. -/
structure Session where
  cn : VmsConnection := { addr := 0 }
  place : Place := .leased
  events : List (Site × Ret) := []

/-- An operation with its answers; one that the connection is not there for changes nothing. -/
def step (s : Session) (i : Op × List Ret) : Session :=
  if s.place = i.1.from_ then
    let done := (i.1.code s.cn).run i.2
    { cn := done.2.1, place := i.1.to done.2.2, events := s.events ++ done.1 }
  else s

/-! ## Who sets the flag -/

/-- The call sets the flag when it is answered so. -/
def flags (c : Site) (r : Ret) : Bool :=
  match c.job, c.fn with
  | .exec, .execDirect | .fetch, .fetch | .more, .moreResults | .commit, .endTran => (diagCapture r).2
  | .finalize inFlight, .endTran =>
    !r.succeeded && ((diagCapture r).1 = .transport || (diagCapture r).1 = .connect ||
      (inFlight && (diagCapture r).1 ≠ .timeout))
  | _, _ => false

/-- The flag behind a call. -/
def raised (b : Bool) (c : Site) (r : Ret) : Bool := b || flags c r

/-- Whatever it is answered, the call sets no flag. -/
def Silent (c : Site) : Prop := ∀ r, flags c r = false

theorem Silent.raised {c : Site} (h : Silent c) (b : Bool) (r : Ret) : raised b c r = b := by
  rw [Quarantine.raised, h r, Bool.or_false]

/-- Behind silent calls the flag is as it was. -/
theorem silent_wp {α : Type} {p : Code α} {Q : Bool → α → Prop} {b : Bool} (hp : p.Only Silent) (hQ : ∀ a, Q b a) :
    p.wp raised Q b :=
  hp.wp (fun b _ r hc => hc.raised b r) hQ

/-- Only a failure loses the connection. -/
theorem diagCapture_succeeded {r : Ret} (h : r.succeeded = true ∨ r = .noData) : (diagCapture r).2 = false := by
  cases r with
  | error diag => simp [Ret.succeeded] at h
  | _ => rfl

/-- The class is transport exactly when the connection is lost. -/
theorem transport_iff (st : SqlState) : (classifyState st).1 = .transport ↔ (classifyState st).2 = true := by
  fun_cases classifyState st <;> simp

/-- The jobs whose calls are never looked at for the flag. -/
def Job.deaf : Job → Bool
  | .exec | .fetch | .more | .commit | .finalize _ => false
  | _ => true

variable {j : Job}

theorem silent_of_deaf (h : j.deaf = true) (f : Fn) : Silent ⟨j, f⟩ := by
  intro r
  cases j <;> first | rfl | simp [Job.deaf] at h

theorem each_silent (h : j.deaf = true) (f : Fn) : ∀ n, (each j f n).Only Silent
  | 0 => trivial
  | n + 1 => ⟨silent_of_deaf h f, fun r => by
    show (if r.succeeded then each j f n else pure false).Only Silent
    simp [each_silent h f n]⟩

theorem jobMeta_silent (h : j.deaf = true) : (jobMeta j).Only Silent := by
  simp [jobMeta, ask, silent_of_deaf h, each_silent h]

theorem keepPiece_silent (got : Int) : (keepPiece got).Only Silent := by
  simp [keepPiece, ask, Silent, flags]

theorem getdataPieces_silent : ∀ pieces, (getdataPieces pieces).Only Silent
  | 0 => trivial
  | pieces + 1 => ⟨fun _ => rfl, fun r => by
    cases r with
    | noData | error diag => trivial
    | success got =>
      show (if got = sqlNullData then pure true else keepPiece got).Only Silent
      simp [keepPiece_silent]
    | info got =>
      show (if got = sqlNullData then pure true
        else keepPiece got >>= fun kept => if kept then getdataPieces pieces else pure false).Only Silent
      rw [only_ite]
      refine ⟨fun _ => trivial, fun _ => (keepPiece_silent got).bind fun kept => ?_⟩
      simp [getdataPieces_silent pieces]⟩

theorem decodeCol_silent (pieces : Nat) (c : VmsColType) : (decodeCol pieces c).Only Silent := by
  have htext : (getdataText pieces).Only Silent :=
    (getdataPieces_silent pieces).bind fun ok => by simp [ask, Silent, flags]
  cases c with
  | text | bigtext => exact htext
  | spatial | blob => exact getdataPieces_silent pieces
  | _ => simp [decodeCol, getdataScalarText, ask, Silent, flags]

theorem decodeRow_silent (pieces : Nat) : ∀ cols, (decodeRow pieces cols).Only Silent
  | [] => trivial
  | c :: cs => (decodeCol_silent pieces c).bind fun ok => by simp [decodeRow_silent pieces cs]

theorem fetchRow_silent (h : Silent ⟨j, .here⟩) (pieces : Nat) (cols : List VmsColType) :
    (fetchRow j pieces cols).Only Silent := by
  simp [fetchRow, ask, h, decodeRow_silent]

theorem txnExecUtf8_silent (h : j.deaf = true) : (txnExecUtf8 j).Only Silent := by
  simp [txnExecUtf8, ask, silent_of_deaf h]

theorem cursorOpenShared_silent (nparams : Nat) : (cursorOpenShared nparams).Only Silent := by
  have hcursor := fun f => silent_of_deaf (j := .cursor) rfl f
  have hparams : (cursorParams nparams).Only Silent := by
    simp [cursorParams, ask, hcursor, each_silent (j := .cursor) rfl]
  have hexec : (cursorExecute nparams).Only Silent :=
    hparams.bind fun bound => by simp [ask, hcursor, jobMeta_silent (j := .cursor) rfl]
  refine ⟨hcursor _, fun mem => only_ite.mpr ⟨fun _ => ⟨hcursor _, fun h => only_ite.mpr ⟨fun _ => ?_, ?_⟩⟩, ?_⟩⟩
  · exact hexec.bind fun ok => by simp [ask, hcursor]
  all_goals exact fun _ => trivial

theorem queryValue_silent (h : j.deaf = true) : (queryValue j).Only Silent := by
  simp [queryValue, ask, silent_of_deaf h]

/-- The flag behind an operation is what its calls made of it. -/
def Kept (b : Bool) (done : VmsConnection × Bool) : Prop := done.1.quarantined = b

-- One lemma for each operation: what its calls make of the flag is what it leaves in it.

theorem jobExec_flags : (jobExec cn).wp raised Kept cn.quarantined := by
  unfold jobExec
  rw [wp_ite]
  refine ⟨fun _ => rfl, fun _ r => ?_⟩
  refine wp_ite.mpr ⟨fun h => ?_, fun _ => rfl⟩
  simp [Kept, raised, flags, diagCapture_succeeded h]

theorem vmsStmtExecDirect_flags : (vmsStmtExecDirect cn).wp raised Kept cn.quarantined := by
  have hhere : Silent ⟨.exec, .here⟩ := fun _ => rfl
  have halloc : Silent ⟨.exec, .allocHandle⟩ := fun _ => rfl
  have hfree : Silent ⟨.exec, .freeHandle⟩ := fun _ => rfl
  have hdrop : Silent ⟨.describe, .freeHandle⟩ := fun _ => rfl
  simp only [vmsStmtExecDirect, ask, call_bind, wp_ask, wp_ite, wp_bind, wp_pure, hhere.raised, halloc.raised]
  refine fun mem => ⟨fun _ h => ⟨fun _ => (jobExec_flags cn).mono ?_, fun _ => rfl⟩, fun _ => rfl⟩
  refine fun b done hkept => ⟨fun _ => silent_wp (jobMeta_silent rfl) fun ok => ⟨fun _ => hkept, fun _ r => ?_⟩,
    fun _ r => ?_⟩
  · rw [hdrop.raised]
    exact hkept
  · rw [hfree.raised]
    exact hkept

theorem vmsStmtFetch_flags (cols : List VmsColType) (pieces : Nat) :
    (vmsStmtFetch cols pieces cn).wp raised Kept cn.quarantined := by
  have hrow : (fetchRow .fetch pieces cols).wp raised (fun b ok => Kept b (cn, ok)) cn.quarantined :=
    silent_wp (fetchRow_silent (fun _ => rfl) pieces cols) fun _ => rfl
  simp only [vmsStmtFetch, jobFetch, ask, call_bind, wp_ask, wp_ite, wp_bind, wp_pure]
  refine ⟨fun _ => rfl, fun _ r => ⟨?_, fun hdata => ⟨fun hok => ?_, fun _ => rfl⟩⟩⟩
  · rintro rfl
    exact (Bool.or_false _).symm
  · have hsame : raised cn.quarantined ⟨.fetch, .fetch⟩ r = cn.quarantined := by
      simp [raised, flags, diagCapture_succeeded (.inl hok)]
    rw [hsame]
    exact hrow

theorem vmsStmtMoreResults_flags : (vmsStmtMoreResults cn).wp raised Kept cn.quarantined := by
  simp only [vmsStmtMoreResults, ask, call_bind, wp_ask, wp_ite, wp_pure]
  refine fun r => ⟨fun h => ?_, fun _ => rfl⟩
  simp [Kept, raised, flags, diagCapture_succeeded h]

theorem vmsTranCommit_flags : (vmsTranCommit cn).wp raised Kept cn.quarantined := by
  simp only [vmsTranCommit, ask, call_bind, wp_ask, wp_ite, wp_pure]
  refine fun r => ⟨fun h => ?_, fun _ => rfl⟩
  simp [Kept, raised, flags, diagCapture_succeeded (.inl h)]

theorem vmsTxnFinalize_flags (rollbackOp : Bool) : (vmsTxnFinalize rollbackOp cn).wp raised Kept cn.quarantined := by
  have hattr : Silent ⟨.finalize (!rollbackOp && cn.txnActive), .setConnectAttr⟩ := fun _ => rfl
  simp only [vmsTxnFinalize, jobTxnFinalize, ask, call_bind, wp_ask, wp_ite, wp_bind, wp_pure, hattr.raised]
  intro r
  have hq : (diagCapture r).2 = true ↔ (diagCapture r).1 = .transport := (transport_iff _).symm
  refine ⟨fun hok => ?_, fun hok => ⟨fun hlost => ?_, fun hlost =>
    ⟨fun htimeout => ?_, fun htimeout => ⟨fun hflight => ?_, fun hflight => ?_⟩⟩⟩⟩
  all_goals simp_all [Kept, raised, flags, mark]

theorem raised_deaf (h : j.deaf = true) (b : Bool) (f : Fn) (r : Ret) : raised b ⟨j, f⟩ r = b :=
  (silent_of_deaf h f).raised b r

theorem vmsConnExecDml_flags (nparams : Nat) : (vmsConnExecDml nparams cn).wp raised Kept cn.quarantined := by
  have hdml := raised_deaf (j := .dml) rfl
  simp only [vmsConnExecDml, dmlEnd, ask, call_bind, wp_ask, wp_ite, wp_bind, wp_pure, hdml]
  refine ⟨fun _ => rfl, fun _ h => ⟨fun _ mem => ⟨fun _ => silent_wp (each_silent rfl _ nparams) fun bound =>
    ?_, fun _ _ _ => rfl⟩, fun _ => rfl⟩⟩
  exact ⟨fun _ r => ⟨fun _ _ _ _ => rfl, fun _ _ _ => rfl⟩, fun _ _ _ => rfl⟩

theorem vmsCursorFetch_flags (closed : Bool) (cols : List VmsColType) (pieces : Nat) :
    (vmsCursorFetch closed cols pieces cn).wp raised Kept cn.quarantined := by
  have hcursor := raised_deaf (j := .cursor) rfl
  have hrow : (fetchRow .cursor pieces cols).wp raised (fun b ok => Kept b (cn, ok)) cn.quarantined :=
    silent_wp (fetchRow_silent (fun _ => rfl) pieces cols) fun _ => rfl
  simp only [vmsCursorFetch, ask, call_bind, wp_ask, wp_ite, wp_bind, wp_pure, hcursor]
  exact ⟨fun _ => rfl, fun _ r => ⟨fun _ => rfl, fun _ => ⟨fun _ => hrow, fun _ => rfl⟩⟩⟩

theorem vmsTxnPin_flags : (vmsTxnPin cn).wp raised Kept cn.quarantined := by
  have hpin := raised_deaf (j := .pin) rfl
  simp only [vmsTxnPin, ask, call_bind, wp_ask, wp_ite, wp_bind, wp_pure, hpin]
  refine ⟨fun _ => rfl, fun _ manual => ⟨fun _ autobegin => ⟨fun _ => ?_, fun _ => rfl⟩, fun _ => rfl⟩⟩
  exact silent_wp (txnExecUtf8_silent rfl) fun primed => ⟨fun _ => rfl, fun _ _ => rfl⟩

theorem vmsTxnBeginLazy_flags : (vmsTxnBeginLazy cn).wp raised Kept cn.quarantined := by
  have hlazy := raised_deaf (j := .beginLazy) rfl
  simp only [vmsTxnBeginLazy, ask, call_bind, wp_ask, wp_ite, wp_bind, wp_pure, hlazy]
  refine ⟨fun _ => rfl, fun _ => ⟨fun _ => rfl, fun _ h => ⟨fun _ => ?_, fun _ => rfl⟩⟩⟩
  refine silent_wp (queryValue_silent rfl) fun trancount _ _ => ?_
  cases trancount with
  | none => rfl
  | some n =>
    refine wp_ite.mpr ⟨fun _ => rfl, fun _ => wp_bind.mpr (silent_wp (txnExecUtf8_silent rfl) fun begun => ?_)⟩
    exact wp_ite.mpr ⟨fun _ => rfl, fun _ => rfl⟩

theorem vmsTxnSavepoint_flags (valid : Bool) : (vmsTxnSavepoint valid cn).wp raised Kept cn.quarantined := by
  simp [vmsTxnSavepoint, ask, Kept, raised_deaf (j := .savepoint) rfl]

theorem vmsTxnValidate_flags : (vmsTxnValidate cn).wp raised Kept cn.quarantined := by
  have hdoomed := raised_deaf (j := .doomed) rfl
  simp only [vmsTxnValidate, vmsTxnDoomed, ask, call_bind, wp_ask, wp_ite, wp_bind, wp_pure, hdoomed]
  refine ⟨fun _ => rfl, fun _ => ⟨fun _ h => ⟨fun _ => ?_, fun _ => rfl⟩, fun _ => rfl⟩⟩
  exact silent_wp (queryValue_silent rfl) fun _ _ _ => rfl

theorem vmsConnVerify_silent : (vmsConnVerify cn).Only Silent := by
  unfold vmsConnVerify
  have hverify := fun f => silent_of_deaf (j := .verify) rfl f
  refine only_ite.mpr ⟨fun _ => trivial, fun _ => ⟨hverify _, fun h => only_ite.mpr ⟨fun _ => ?_, fun _ => trivial⟩⟩⟩
  refine (queryValue_silent rfl).bind fun trancount => ?_
  simp [ask, hverify]

/-- **The flag is set by certain calls and answers, and by nothing else.** -/
theorem code_flags (op : Op) : (op.code cn).wp raised Kept cn.quarantined := by
  cases op with
  | execute => exact vmsStmtExecDirect_flags cn
  | fetch cols pieces => exact vmsStmtFetch_flags cn cols pieces
  | moreResults => exact vmsStmtMoreResults_flags cn
  | dml nparams => exact vmsConnExecDml_flags cn nparams
  | openShared nparams => exact wp_bind.mpr (silent_wp (cursorOpenShared_silent nparams) fun _ => rfl)
  | cursorFetch closed cols pieces => exact vmsCursorFetch_flags cn closed cols pieces
  | cursorClose => simp [Op.code, vmsCursorClose, ask, Kept, raised_deaf (j := .cursor) rfl]
  | commit => exact vmsTranCommit_flags cn
  | pin => exact vmsTxnPin_flags cn
  | beginLazy => exact vmsTxnBeginLazy_flags cn
  | savepoint valid => exact vmsTxnSavepoint_flags cn valid
  | validate => exact vmsTxnValidate_flags cn
  | finalize rollbackOp => exact vmsTxnFinalize_flags cn rollbackOp
  | begin_ => simp [Op.code, vmsTranBegin, ask, Kept, raised_deaf (j := .begin_) rfl]
  | rollback => simp [Op.code, vmsTranRollback, ask, Kept, raised_deaf (j := .rollback) rfl]
  | queryTimeout => simp [Op.code, vmsConnSetQueryTimeout, ask, Kept, raised_deaf (j := .queryTimeout) rfl]
  | release =>
    refine wp_bind.mpr (silent_wp (vmsConnVerify_silent cn) fun ok => ?_)
    simp [ask, Kept, raised_deaf (j := .verify) rfl]
  | reuse => exact wp_bind.mpr (silent_wp (vmsConnVerify_silent cn) fun _ => rfl)

/-! ## The history -/

/-- Some call was answered with a diagnostic of class 08. -/
def Session.seen (s : Session) : Bool := s.events.any fun c => c.1.odbc && c.2.class08

/-- Some call was answered so that it set the flag. -/
def Session.flagged (s : Session) : Bool := s.events.any fun c => flags c.1 c.2

theorem foldl_raised (events : List (Site × Ret)) (b : Bool) :
    events.foldl (fun b c => raised b c.1 c.2) b = (b || events.any fun c => flags c.1 c.2) := by
  induction events generalizing b with
  | nil => simp
  | cons c events ih => rw [List.foldl_cons, ih, List.any_cons, raised, Bool.or_assoc]

/-- **A step**, and with it a run: the flag is what the answers made of it. -/
theorem step_flagged {s : Session} (h : s.cn.quarantined = s.flagged) (i : Op × List Ret) :
    (step s i).cn.quarantined = (step s i).flagged := by
  unfold step
  split
  · have hkept : ((i.1.code s.cn).run i.2).2.1.quarantined = _ := (code_flags s.cn i.1).run i.2
    rw [foldl_raised] at hkept
    simp only [Session.flagged, List.any_append]
    rw [hkept, h, Session.flagged]
  · exact h

/-- **The flag remembers**: it is set exactly if some call set it, and nothing takes it away. -/
theorem run_flagged (is : List (Op × List Ret)) :
    (Run.run step {} is).cn.quarantined = (Run.run step {} is).flagged :=
  @Run.run_keeps _ _ step (fun s => s.cn.quarantined = s.flagged) (fun _ i h => step_flagged h i) is {} rfl

/-! ## Who is refused -/

/-- What is said of an operation on a lost connection: it is refused, the connection is not kept, or nothing.  Some of
    those that are to be refused ask the flag, the others do not. -/
inductive Kind
  | guarded
  | unasked
  | returned
  | free
  deriving DecidableEq

def Op.kind : Op → Kind
  | .execute | .fetch _ _ | .dml _ => .guarded
  | .openShared _ | .cursorFetch _ _ _ => .unasked
  | .begin_ | .commit | .rollback | .pin | .beginLazy | .savepoint _ | .validate | .finalize _ => .unasked
  | .release => .returned
  | .moreResults | .cursorClose | .queryTimeout | .reuse => .free

/-- It fails, and makes no call that works on the connection. -/
def Refused (op : Op) (cn : VmsConnection) (answers : List Ret) : Prop :=
  ((op.code cn).run answers).2.2 = false ∧ ∀ c ∈ ((op.code cn).run answers).1, c.1.reaches = false

/-- Once a diagnostic of class 08 was seen, the operation is refused; a connection that is released does not
    become idle. -/
def Contained (s : Session) (op : Op) (answers : List Ret) : Prop :=
  s.place = op.from_ → s.seen = true →
    match op.kind with
    | .guarded | .unasked => Refused op s.cn answers
    | .returned => (step s (op, answers)).place ≠ .idle
    | .free => True

/-- Refused for another reason: a savepoint needs a name, a BEGIN a pinned connection, a validation an open
    transaction, a fetch an open cursor. -/
def Op.moot : Op → Bool
  | .cursorFetch closed _ _ => closed
  | .savepoint valid => !valid
  | .beginLazy => !cn.txnActive && !cn.txnPinned
  | .validate => !cn.txnActive
  | _ => false

variable {op : Op}

theorem refused_of {cn : VmsConnection} (honly : (op.code cn).Only fun c => c.reaches = false)
    (hfail : (op.code cn).wp (fun _ _ _ => ()) (fun _ done => done.2 = false) ()) (answers : List Ret) :
    Refused op cn answers :=
  ⟨hfail.run answers, honly.run answers⟩

/-- **A guarded operation asks the flag.** -/
theorem guarded_refused_iff (hop : op.kind = .guarded) :
    (∀ answers, Refused op cn answers) ↔ cn.quarantined = true := by
  constructor
  · intro h
    by_contra hflag
    rw [Bool.not_eq_true] at hflag
    obtain ⟨hfail, hcalls⟩ := h []
    cases op with
    | execute =>
      refine absurd hfail ?_
      simp [Op.code, vmsStmtExecDirect, jobExec, jobMeta, ask, hflag, Ret.succeeded, Ret.value, default]
    | fetch cols pieces =>
      have hfetch := hcalls (⟨.fetch, .fetch⟩, default)
      simp [Op.code, vmsStmtFetch, jobFetch, ask, hflag, Site.reaches] at hfetch
    | dml nparams =>
      cases nparams with
      | zero =>
        have hexec := hcalls (⟨.dml, .execDirect⟩, default)
        simp [Op.code, vmsConnExecDml, each, ask, hflag, Site.reaches, Ret.succeeded, default] at hexec
      | succ n =>
        have hbind := hcalls (⟨.dml, .bindParameter⟩, default)
        simp [Op.code, vmsConnExecDml, each, ask, hflag, Site.reaches, Ret.succeeded, default] at hbind
    | _ => simp [Op.kind] at hop
  · intro hflag
    refine refused_of ?_ ?_
    all_goals
      cases op with
      | execute => simp [Op.code, vmsStmtExecDirect, jobExec, ask, hflag, Site.reaches]
      | fetch cols pieces => simp [Op.code, vmsStmtFetch, hflag]
      | dml nparams => simp [Op.code, vmsConnExecDml, hflag]
      | _ => simp [Op.kind] at hop

/-- **A cursor or a transaction does not.** -/
theorem unasked_refused_iff (hop : op.kind = .unasked) :
    (∀ answers, Refused op cn answers) ↔ op.moot cn = true := by
  constructor
  · intro h
    obtain ⟨hfail, hcalls⟩ := h []
    cases op with
    | openShared nparams =>
      cases nparams with
      | zero =>
        simp [Op.code, vmsCursorOpenShared, cursorOpenShared, cursorParams, cursorExecute, jobMeta, ask, Ret.succeeded,
          Ret.value, default] at hfail
      | succ n =>
        have hbind := hcalls (⟨.cursor, .bindParameter⟩, default)
        simp [Op.code, vmsCursorOpenShared, cursorOpenShared, cursorExecute, cursorParams, each, ask, Site.reaches,
          Ret.succeeded, default] at hbind
    | cursorFetch closed cols pieces =>
      cases closed with
      | true => rfl
      | false =>
        have hfetch := hcalls (⟨.cursor, .fetch⟩, default)
        simp [Op.code, vmsCursorFetch, ask, Site.reaches] at hfetch
    | beginLazy =>
      cases hactive : cn.txnActive with
      | true => simp [Op.code, vmsTxnBeginLazy, hactive] at hfail
      | false =>
        cases hpinned : cn.txnPinned with
        | true =>
          simp [Op.code, vmsTxnBeginLazy, hactive, hpinned, queryValue, txnExecUtf8, ask, Ret.succeeded, Ret.value,
            default] at hfail
        | false => simp [Op.moot, hactive, hpinned]
    | validate =>
      cases hactive : cn.txnActive with
      | true =>
        simp [Op.code, vmsTxnValidate, vmsTxnDoomed, hactive, queryValue, ask, Ret.succeeded, Ret.value,
          default] at hfail
      | false => simp [Op.moot, hactive]
    | savepoint valid =>
      cases valid with
      | true => simp [Op.code, vmsTxnSavepoint, ask, Ret.succeeded, default] at hfail
      | false => rfl
    | begin_ | commit | rollback | finalize =>
      simp [Op.code, vmsTranBegin, vmsTranCommit, vmsTranRollback, vmsTxnFinalize, jobTxnFinalize, ask, Ret.succeeded,
        default] at hfail
    | pin =>
      cases hpinned : cn.txnPinned <;>
        simp [Op.code, vmsTxnPin, txnExecUtf8, ask, hpinned, Ret.succeeded, default] at hfail
    | _ => simp [Op.kind] at hop
  · intro hmoot
    refine refused_of ?_ ?_
    all_goals
      cases op with
      | beginLazy => simp_all [Op.code, Op.moot, vmsTxnBeginLazy]
      | cursorFetch closed cols pieces => simp_all [Op.code, Op.moot, vmsCursorFetch]
      | validate => simp_all [Op.code, Op.moot, vmsTxnValidate]
      | savepoint valid => simp_all [Op.code, Op.moot, vmsTxnSavepoint]
      | _ => simp [Op.moot] at hmoot

/-- **A released connection is kept unless it is flagged.** -/
theorem release_closed_iff {s : Session} (hs : s.place = .leased) :
    (∀ answers, (step s (.release, answers)).place ≠ .idle) ↔ s.cn.quarantined = true := by
  have hstep : ∀ answers, (step s (.release, answers)).place =
      Op.release.to ((vmsPoolRelease s.cn).run answers).2.2 := by
    intro answers
    simp [step, hs, Op.from_, Op.code]
  constructor
  · intro h
    by_contra hflag
    rw [Bool.not_eq_true] at hflag
    refine h [] ?_
    rw [hstep]
    simp [vmsPoolRelease, vmsConnVerify, queryValue, ask, hflag, Ret.succeeded, Ret.value, default, Op.to]
  · intro hflag answers
    rw [hstep]
    simp [vmsPoolRelease, vmsConnVerify, hflag, Op.to]

/-- **Which operations a lost connection refuses.**  Behind any history: an execute, fetch or DML is refused, and
    a release closes the connection, exactly if a call that sets the flag was among those that were answered with
    an error; a cursor or a transaction is refused only where it has nothing to do anyway. -/
theorem quarantine_complete_iff (is : List (Op × List Ret)) (op : Op) :
    (∀ answers, Contained (Run.run step {} is) op answers) ↔
      ((Run.run step {} is).place = op.from_ → (Run.run step {} is).seen = true →
        match op.kind with
        | .guarded | .returned => (Run.run step {} is).flagged = true
        | .unasked => op.moot (Run.run step {} is).cn = true
        | .free => True) := by
  have hflag := run_flagged is
  generalize Run.run step {} is = s at hflag
  unfold Contained
  rw [forall_comm]
  refine forall_congr' fun hplace => ?_
  rw [forall_comm]
  refine forall_congr' fun _ => ?_
  cases hop : op.kind with
  | guarded => rw [← hflag]; exact guarded_refused_iff s.cn hop
  | unasked => exact unasked_refused_iff s.cn hop
  | returned =>
    cases op with
    | release => rw [← hflag]; exact release_closed_iff hplace
    | _ => simp [Op.kind] at hop
  | free => exact ⟨fun _ => trivial, fun _ _ => trivial⟩

def linkFailure : Ret := .error [['0', '8', 'S', '0', '1']]

/-- The link breaks while a DML statement is executed. -/
def lostInDml : List (Op × List Ret) := [(.dml 0, [default, default, linkFailure])]

/-- The link breaks while a query is executed. -/
def lostInExecute : List (Op × List Ret) := [(.execute, [default, default, linkFailure])]

/-- **A lost connection goes on**: after the DML statement the next query is sent and the connection goes back to
    the pool; after the query, which sets the flag, a COMMIT is sent all the same, and a cursor is opened. -/
theorem quarantine_incomplete :
    ¬ Contained (Run.run step {} lostInDml) .execute [] ∧
      (Run.run step {} (lostInDml ++ [(.release, [])])).place = .idle ∧
    (Run.run step {} lostInExecute).cn.quarantined = true ∧ ¬ Contained (Run.run step {} lostInExecute) .commit [] ∧
    ¬ Contained (Run.run step {} lostInExecute) (.openShared 0) [] := by
  refine ⟨fun h => ?_, by decide, by decide, fun h => ?_, fun h => ?_⟩
  all_goals exact absurd (h (by decide) (by decide)).1 (by decide)

end VirtualMssql.Quarantine
