/-
  TRANSACTIONS — xBegin, xUpdate, xSync, xCommit, xRollback and the savepoint calls.

  One environment is shared by all virtual tables.  It pins ONE connection for the transaction that is
  open; the first write or savepoint on it issues the BEGIN (`txnBeginLazy`).  The connection's flag
  `txnActive` says that the BEGIN was issued; whether the server still has the transaction is another
  matter, since a failing statement takes it down (the pin sets XACT_ABORT ON).

  Every call to the server is answered by a `Reply` that the caller of the model chooses.  What has been
  written is a list of writes, in the order the server executed them; the savepoints are the server's
  (`Savepoint.Server`).  Query texts, messages and the catalog contents are not looked at here.
-/
import VirtualMssql.Numbers
import VirtualMssql.Lib.Savepoint
import VirtualMssql.Lib.Run
import Mathlib.Logic.Function.Basic

namespace VirtualMssql.Txn

open Savepoint TSql Option Function

/-! ## The environment -/

inductive SqliteRc
  | ok
  | error
  | busy
  | readonly
  deriving DecidableEq, Repr

/-- What becomes of a statement: the server executes it, the server fails it and rolls the open
    transaction back, or it never leaves the client. -/
inductive Reply
  | ok
  | failed
  | unsent
  deriving DecidableEq, Repr

/-- What `SQLEndTran` reports; after a failure the server may have done it all the same. -/
inductive EndReply
  | ok
  | transport (landed : Bool)
  | timeout
  | other (landed : Bool)
  deriving DecidableEq, Repr

/-- `VmsConnection`, what the transaction functions keep in it. -/
structure VmsConnection where
  addr : Nat
  txnPinned : Bool := false
  txnActive : Bool := false
  quarantined : Bool := false
  deriving DecidableEq

/-- `struct VmsVtab`, what the write path keeps in it: is there a context with a connection of its own,
    and to which connection is the context of the transaction bound? -/
structure VmsVtab where
  rwMode : Bool := true
  isQuerySource : Bool := false
  dml : Bool := false
  dmlTxn : Option Nat := none
  deriving DecidableEq

/-- `VmsVtabEnv` with its tables, and the server behind it. -/
structure VmsVtabEnv (T W : Type) where
  txnCn : Option VmsConnection := none
  svCount : Nat := 0
  tabs : T → VmsVtab := fun _ => {}
  server : Server (List Nat) (List W) := { committed := [] }

variable {T W : Type}

/-- A statement on the pinned connection, and what it does when it succeeds. -/
def VmsVtabEnv.send (e : VmsVtabEnv T W) (r : Reply)
    (f : Server (List Nat) (List W) → Option (Server (List Nat) (List W))) : Bool × VmsVtabEnv T W :=
  match r with
  | .ok =>
    match f e.server with
    | some s => (true, { e with server := s })
    | none => (false, { e with server := e.server.abort })
  | .failed => (false, { e with server := e.server.abort })
  | .unsent => (false, e)

/-! ## `vms_txn_*` -/

/-- What the server answers to the statements of `vtab_dml_ctx` and `vms_txn_begin_lazy`. -/
structure CtxReply where
  alloc : Bool := true
  lease : Bool := true
  catalog : Reply := .ok
  key : Bool := true
  trancount : Reply := .ok
  begin_ : Reply := .ok
  deriving DecidableEq

/-- `vms_txn_begin_lazy`. -/
def txnBeginLazy (r : CtxReply) (e : VmsVtabEnv T W) : Bool × VmsVtabEnv T W :=
  match e.txnCn with
  | none => (false, e)
  | some cn =>
    if cn.txnActive then (true, e)
    else if !cn.txnPinned then (false, e)
    else
      match e.send r.trancount some with
      | (false, e) => (false, e)
      | (true, e) =>
        -- a transaction that is already there is taken over
        if e.server.tran.isSome then
          (true, { e with txnCn := some { cn with txnActive := true } })
        else
          match e.send r.begin_ fun s => some s.start with
          | (false, e) => (false, e)
          | (true, e) => (true, { e with txnCn := some { cn with txnActive := true } })

/-- `vms_sv_<n>`. -/
def svName (n : Nat) : List Nat := wide "vms_sv_" ++ decimal n

/-- `vms_txn_savepoint`: SAVE. -/
def txnSave (n : Nat) (r : Reply) (e : VmsVtabEnv T W) : Bool × VmsVtabEnv T W :=
  e.send r (Server.save (svName n))

/-- `vms_txn_savepoint`: ROLLBACK. -/
def txnRollbackTo (n : Nat) (r : Reply) (e : VmsVtabEnv T W) : Bool × VmsVtabEnv T W :=
  e.send r (Server.rollbackTo (svName n))

/-- `XACT_STATE()`; the server never keeps a transaction that cannot be committed. -/
def xactState (s : Server (List Nat) (List W)) : Int := if s.tran.isSome then 1 else 0

/-- `vms_txn_doomed`. -/
def txnDoomed (cn : VmsConnection) (r : Reply) (e : VmsVtabEnv T W) : Bool × VmsVtabEnv T W :=
  if cn.txnActive then
    match e.send r some with
    | (true, e) => (xactState e.server == -1, e)
    | (false, e) => (false, e)
  else (false, e)

/-- `vms_txn_validate`. -/
def txnValidate (cn : VmsConnection) (r : Reply) (e : VmsVtabEnv T W) : Bool × VmsVtabEnv T W :=
  if !cn.txnActive then (false, e)
  else
    let (doomed, e) := txnDoomed cn r e
    (!doomed, e)

inductive VmsTxnResult
  | ok
  | busy
  | unknown
  deriving DecidableEq, Repr

/-- What SQLEndTran does on the server when it does it. -/
def endTran (rollbackOp : Bool) (s : Server (List Nat) (List W)) : Server (List Nat) (List W) :=
  if rollbackOp then s.abort else s.commit

/-- `job_txn_finalize`: `vms_txn_commit` and `vms_txn_rollback`. -/
def txnFinalize (rollbackOp : Bool) (r : EndReply) (cn : VmsConnection) (e : VmsVtabEnv T W) :
    VmsTxnResult × VmsVtabEnv T W :=
  let ended (landed : Bool) := if landed then endTran rollbackOp e.server else e.server
  let cn' := { cn with txnActive := false }
  match r with
  | .ok => (.ok, { e with txnCn := some { cn' with txnPinned := false }, server := ended true })
  | .transport landed =>
    (.unknown, { e with txnCn := some { cn' with quarantined := true }, server := ended landed })
  | .timeout => (.busy, { e with txnCn := some cn })
  | .other landed =>
    if !rollbackOp && cn.txnActive then
      (.unknown, { e with txnCn := some { cn' with quarantined := true }, server := ended landed })
    else (.busy, { e with txnCn := some cn', server := ended landed })

/-! ## The pin -/

/-- `txn_pin_shared`; a new connection has some address, or cannot be opened or prepared. -/
def txnPinShared (opened : Option Nat) (e : VmsVtabEnv T W) : Bool × VmsVtabEnv T W :=
  match e.txnCn with
  | some _ => (true, e)
  | none =>
    match opened with
    | none => (false, e)
    | some a => (true, { e with txnCn := some { addr := a, txnPinned := true } })

/-- `txn_unpin`: the connection is closed, and its open transaction is gone. -/
def txnUnpin (e : VmsVtabEnv T W) : VmsVtabEnv T W :=
  match e.txnCn with
  | some _ => { e with txnCn := none, svCount := 0, server := e.server.abort }
  | none => e

/-! ## `vtab_dml_ctx` -/

section Tables

variable [DecidableEq T]

def VmsVtabEnv.setDmlTxn (e : VmsVtabEnv T W) (t : T) (a : Option Nat) : VmsVtabEnv T W :=
  { e with tabs := update e.tabs t { e.tabs t with dmlTxn := a } }

def VmsVtabEnv.setDml (e : VmsVtabEnv T W) (t : T) : VmsVtabEnv T W :=
  { e with tabs := update e.tabs t { e.tabs t with dml := true } }

/-- The connection a context writes through. -/
inductive Route
  | pin
  | own
  deriving DecidableEq, Repr

/-- `vtab_dml_ctx`: the context of the transaction when a connection is pinned, else one with a connection
    of its own.  A context bound to the pinned connection's address is taken as it is; a new one reads
    the catalog on that connection and issues the lazy BEGIN. -/
def vtabDmlCtx (t : T) (r : CtxReply) (e : VmsVtabEnv T W) : Option Route × VmsVtabEnv T W :=
  match e.txnCn with
  | some cn =>
    if (e.tabs t).dmlTxn = some cn.addr then (some .pin, e)
    else if !r.alloc then (none, e.setDmlTxn t none)
    else
      match e.send r.catalog some with
      | (false, e) => (none, e.setDmlTxn t none)
      | (true, e) =>
        if !r.key then (none, e.setDmlTxn t none)
        else
          match txnBeginLazy r (e.setDmlTxn t (some cn.addr)) with
          | (false, e) => (none, e)
          | (true, e) => (some .pin, e)
  | none =>
    if (e.tabs t).dml then (some .own, e)
    else if !(e.tabs t).rwMode then (none, e)
    else if r.lease && r.alloc && r.catalog = .ok && r.key then (some .own, e.setDml t)
    else (none, e)

/-! ## The calls -/

/-- `vms_vtab_best_index`, what it does besides planning: a table in rw mode looks for its key. -/
def vmsVtabBestIndex (t : T) (r : CtxReply) (e : VmsVtabEnv T W) : SqliteRc × VmsVtabEnv T W :=
  if (e.tabs t).isQuerySource || !(e.tabs t).rwMode then (.ok, e) else (.ok, (vtabDmlCtx t r e).2)

/-- `vms_vtab_begin`. -/
def vmsVtabBegin (opened : Option Nat) (e : VmsVtabEnv T W) : SqliteRc × VmsVtabEnv T W :=
  match txnPinShared opened e with
  | (true, e) => (.ok, e)
  | (false, e) => (.error, e)

/-- The answers to an xUpdate: to its context, to its text, to the statement. -/
structure UpdateReply where
  ctx : CtxReply := {}
  built : Bool := true
  exec : Reply := .ok
  deriving DecidableEq

/-- `vms_vtab_update`, for the write `w`: the statement may be refused while its text is built, and
    otherwise goes to the connection of the context. -/
def vmsVtabUpdate (t : T) (w : W) (r : UpdateReply) (e : VmsVtabEnv T W) :
    SqliteRc × VmsVtabEnv T W :=
  if !(e.tabs t).rwMode then (.readonly, e)
  else if (e.tabs t).isQuerySource then (.readonly, e)
  else
    match vtabDmlCtx t r.ctx e with
    | (none, e) => (.error, e)
    | (some route, e) =>
      if !r.built then (.error, e)
      else
        match route with
        | .pin =>
          let sent := if e.txnCn.any (·.quarantined) then .unsent else r.exec
          match e.send sent fun s => some (s.exec (· ++ [w])) with
          | (true, e) => (.ok, e)
          | (false, e) => (.error, e)
        | .own =>
          if r.exec = .ok then
            (.ok, { e with server := { e.server with committed := e.server.committed ++ [w] } })
          else (.error, e)

/-- `vms_vtab_sync`. -/
def vmsVtabSync (r : Reply) (e : VmsVtabEnv T W) : SqliteRc × VmsVtabEnv T W :=
  match e.txnCn with
  | none => (.ok, e)
  | some cn =>
    match txnValidate cn r e with
    | (true, e) => (.ok, e)
    | (false, e) => (.error, e)

/-- `vms_vtab_commit`. -/
def vmsVtabCommit (r : EndReply) (e : VmsVtabEnv T W) : SqliteRc × VmsVtabEnv T W :=
  match e.txnCn with
  | none => (.ok, e)
  | some cn =>
    match txnFinalize false r cn e with
    | (.ok, e) => (.ok, txnUnpin e)
    | (.busy, e) => (.busy, txnUnpin e)
    | (.unknown, e) => (.error, txnUnpin e)

/-- `vms_vtab_rollback`. -/
def vmsVtabRollback (r : EndReply) (e : VmsVtabEnv T W) : SqliteRc × VmsVtabEnv T W :=
  match e.txnCn with
  | none => (.ok, e)
  | some cn =>
    match txnFinalize true r cn e with
    | (.ok, e) => (.ok, txnUnpin e)
    | (.busy, e) => (.busy, txnUnpin e)
    | (.unknown, e) => (.error, txnUnpin e)

def vmsTxnMaxSavepoints : Nat := 32

/-- The answers to an xSavepoint: to its pin, to its context, to the SAVE. -/
structure SavepointReply where
  opened : Option Nat := none
  ctx : CtxReply := {}
  save : Reply := .ok
  deriving DecidableEq

/-- `vms_vtab_savepoint`: a savepoint before the first write implies the BEGIN. -/
def vmsVtabSavepoint (n : Nat) (r : SavepointReply) (e : VmsVtabEnv T W) :
    SqliteRc × VmsVtabEnv T W :=
  match txnPinShared r.opened e with
  | (false, e) => (.error, e)
  | (true, e) =>
    match txnBeginLazy r.ctx e with
    | (false, e) => (.error, e)
    | (true, e) =>
      match txnSave n r.save e with
      | (false, e) => (.error, e)
      | (true, e) =>
        (.ok, { e with svCount := if e.svCount < vmsTxnMaxSavepoints then e.svCount + 1 else e.svCount })

/-- `vms_vtab_release`: nothing is sent. -/
def vmsVtabRelease (e : VmsVtabEnv T W) : SqliteRc × VmsVtabEnv T W :=
  (.ok, { e with svCount := e.svCount - 1 })

/-- `vms_vtab_rollback_to`. -/
def vmsVtabRollbackTo (n : Nat) (r : Reply) (e : VmsVtabEnv T W) : SqliteRc × VmsVtabEnv T W :=
  match e.txnCn with
  | none => (.ok, e)
  | some _ =>
    match txnRollbackTo n r e with
    | (false, e) => (.error, e)
    | (true, e) => (.ok, { e with svCount := min e.svCount (n + 1) })

end Tables

/-! ## What the calls do to the server -/

/-- None of the statements fails on the server. -/
def CtxReply.Quiet (r : CtxReply) : Prop :=
  r.catalog ≠ .failed ∧ r.trancount ≠ .failed ∧ r.begin_ ≠ .failed

instance (r : CtxReply) : Decidable r.Quiet := inferInstanceAs (Decidable (_ ∧ _))

variable {e e' : VmsVtabEnv T W} {r : Reply} {cn : VmsConnection} {rc : SqliteRc}

/-- A statement that succeeds was carried out. -/
theorem send_true {f} (h : e.send r f = (true, e')) :
    r = .ok ∧ ∃ s, f e.server = some s ∧ e' = { e with server := s } := by
  revert h
  fun_cases e.send r f with
  | case1 s hs => rintro ⟨⟩; exact ⟨rfl, s, hs, rfl⟩
  | _ => rintro ⟨⟩

/-- One that fails was not sent, or has cost the transaction. -/
theorem send_false {f} (h : e.send r f = (false, e')) : (r = .unsent ∧ e' = e) ∨
      ((r = .failed ∨ f e.server = none) ∧ e' = { e with server := e.server.abort }) := by
  revert h
  fun_cases e.send r f <;> rintro ⟨⟩ <;> simp_all

variable {b : Bool}

/-- A query: nothing changes unless it fails. -/
theorem send_query (h : e.send r some = (b, e')) : (e' = e ∧ r = if b then .ok else .unsent) ∨
      (b = false ∧ r = .failed ∧ e' = { e with server := e.server.abort }) := by
  cases b with
  | true =>
    obtain ⟨hr, s, hs, rfl⟩ := send_true h
    cases hs
    exact .inl ⟨rfl, hr⟩
  | false =>
    rcases send_false h with ⟨hr, rfl⟩ | ⟨hf, rfl⟩
    · exact .inl ⟨rfl, hr⟩
    · exact .inr ⟨rfl, hf.resolve_right (by simp), rfl⟩

/-- **The lazy BEGIN**, on a pinned connection: the transaction was there, is taken over or is started;
    or it fails. -/
theorem txnBeginLazy_cases {r : CtxReply} (hcn : e.txnCn = some cn) (h : txnBeginLazy r e = (b, e')) :
    (b = true ∧ cn.txnActive = true ∧ e' = e) ∨ (b = true ∧ cn.txnActive = false ∧ e' = { e with
        txnCn := some { cn with txnActive := true },
        server := if e.server.tran.isSome then e.server else e.server.start }) ∨ (b = false ∧ cn.txnActive = false ∧
      ((e' = e ∧ (cn.txnPinned = true → r.trancount = .unsent ∨ r.begin_ = .unsent)) ∨
        (¬ r.Quiet ∧ e' = { e with server := e.server.abort }))) := by
  simp only [txnBeginLazy, hcn] at h
  by_cases hactive : cn.txnActive = true
  · rw [if_pos hactive] at h
    cases h
    exact .inl ⟨rfl, hactive, rfl⟩
  rw [if_neg hactive] at h
  rw [Bool.not_eq_true] at hactive
  refine .inr ?_
  simp only [hactive, true_and]
  repeat' split at h
  all_goals cases h
  next hpinned => exact .inr ⟨rfl, .inl ⟨rfl, fun hp => by simp [hp] at hpinned⟩⟩
  next hcount =>
    rcases send_query hcount with ⟨rfl, hu⟩ | ⟨_, hf, rfl⟩
    · exact .inr ⟨rfl, .inl ⟨rfl, fun _ => .inl hu⟩⟩
    · exact .inr ⟨rfl, .inr ⟨fun hq => hq.2.1 hf, rfl⟩⟩
  next hcount htran =>
    obtain ⟨rfl, -⟩ | ⟨⟨⟩, -⟩ := send_query hcount
    exact .inl ⟨rfl, by rw [if_pos htran]⟩
  next hcount htran _ hbegin =>
    obtain ⟨rfl, -⟩ | ⟨⟨⟩, -⟩ := send_query hcount
    rcases send_false hbegin with ⟨hu, rfl⟩ | ⟨hf, rfl⟩
    · exact .inr ⟨rfl, .inl ⟨rfl, fun _ => .inr hu⟩⟩
    · exact .inr ⟨rfl, .inr ⟨fun hq => hq.2.2 (hf.resolve_right (by simp)), rfl⟩⟩
  next hcount htran _ _ hbegin =>
    obtain ⟨rfl, -⟩ | ⟨⟨⟩, -⟩ := send_query hcount
    obtain ⟨-, s, ⟨⟩, rfl⟩ := send_true hbegin
    exact .inl ⟨rfl, by rw [if_neg htran]⟩

/-- Without a pinned connection there is no transaction, and `txn_cn` is a connection that was pinned. -/
structure VmsVtabEnv.Wf (e : VmsVtabEnv T W) : Prop where
  free : e.txnCn = none → e.server.tran = none
  pinned : ∀ cn, e.txnCn = some cn → cn.txnPinned = true

theorem VmsVtabEnv.Wf.abort {e : VmsVtabEnv T W} (h : e.Wf) : ({ e with server := e.server.abort }).Wf :=
  ⟨fun _ => rfl, h.pinned⟩

/-- Any change on the server is possible while a connection is pinned. -/
theorem VmsVtabEnv.Wf.of_pinned (h : e.Wf) (hcn : e.txnCn.isSome = true)
    (s : Server (List Nat) (List W)) : ({ e with server := s }).Wf :=
  ⟨fun hnone => by rw [show e.txnCn = none from hnone] at hcn; simp at hcn, h.pinned⟩

/-- The lazy BEGIN changes nothing on the server that a session can see, or loses the transaction. -/
theorem txnBeginLazy_settles {r : CtxReply} (hwf : e.Wf) (h : txnBeginLazy r e = (b, e')) :
    e'.Wf ∧ Server.Settles (¬ r.Quiet) e.server e'.server ∧ e'.txnCn.isSome = e.txnCn.isSome ∧
      (b = true → Server.Same e.server e'.server) := by
  cases hcn : e.txnCn with
  | none =>
    rw [txnBeginLazy, hcn] at h
    cases h
    exact ⟨hwf, .inl (.refl _), by rw [hcn], fun _ => .refl _⟩
  | some cn =>
    rcases txnBeginLazy_cases hcn h with ⟨_, _, rfl⟩ | ⟨_, _, rfl⟩ | ⟨rfl, _, ⟨rfl, _⟩ | ⟨hloud, rfl⟩⟩
    · exact ⟨hwf, .inl (.refl _), by rw [hcn], fun _ => .refl _⟩
    · have hsame : Server.Same e.server (if e.server.tran.isSome then e.server else e.server.start) := by
        split_ifs with htran
        · exact .refl _
        · exact .start (by simpa using htran)
      refine ⟨⟨by simp, fun cn' hcn' => ?_⟩, .inl hsame, rfl, fun _ => hsame⟩
      rw [← some.inj hcn']
      exact hwf.pinned cn hcn
    · exact ⟨hwf, .inl (.refl _), by rw [hcn], by simp⟩
    · exact ⟨hwf.abort, .inr ⟨hloud, rfl⟩, by simp [hcn], by simp⟩

section Tables

variable [DecidableEq T]

/-- A new context can be made: there is memory for it, and the catalog is read and names a key. -/
def CtxReply.Makes (r : CtxReply) : Prop := r.alloc = true ∧ r.catalog = .ok ∧ r.key = true

instance (r : CtxReply) : Decidable r.Makes := inferInstanceAs (Decidable (_ ∧ _))

variable {t : T} {r : CtxReply} {route : Option Route}

/-- `vtab_dml_ctx` with a pinned connection: the context is there; or it cannot be made; or it is made
    and the lazy BEGIN decides. -/
theorem vtabDmlCtx_pinned (hcn : e.txnCn = some cn) (h : vtabDmlCtx t r e = (route, e')) :
    ((e.tabs t).dmlTxn = some cn.addr ∧ route = some .pin ∧ e' = e) ∨ (route = none ∧ (e' = e.setDmlTxn t none ∨
      (r.catalog = .failed ∧ e' = { e with server := e.server.abort }.setDmlTxn t none))) ∨
    (((e.tabs t).dmlTxn ≠ some cn.addr ∧ r.Makes) ∧
      ∃ b, txnBeginLazy r (e.setDmlTxn t (some cn.addr)) = (b, e') ∧ route = if b then some .pin else none) := by
  simp only [vtabDmlCtx, hcn] at h
  repeat' split at h
  all_goals cases h
  next hbound => exact .inl ⟨hbound, rfl, rfl⟩
  next => exact .inr (.inl ⟨rfl, .inl rfl⟩)
  next hcatalog =>
    rcases send_query hcatalog with ⟨rfl, -⟩ | ⟨_, hfail, rfl⟩
    · exact .inr (.inl ⟨rfl, .inl rfl⟩)
    · exact .inr (.inl ⟨rfl, .inr ⟨hfail, rfl⟩⟩)
  next hcatalog hkey =>
    obtain ⟨rfl, -⟩ | ⟨⟨⟩, -⟩ := send_query hcatalog
    exact .inr (.inl ⟨rfl, .inl rfl⟩)
  all_goals
    rename_i hbound halloc _ _ hcatalog hkey _ hlazy
    obtain ⟨rfl, hread⟩ | ⟨⟨⟩, -⟩ := send_query hcatalog
    exact .inr (.inr ⟨⟨hbound, by simpa using halloc, hread, by simpa using hkey⟩, _, hlazy, rfl⟩)

/-- A new context is bound before the BEGIN, and stays bound when the BEGIN fails. -/
theorem vtabDmlCtx_makes (hcn : e.txnCn = some cn) (hnew : (e.tabs t).dmlTxn ≠ some cn.addr) (hmakes : r.Makes) :
    (vtabDmlCtx t r e).2 = (txnBeginLazy r (e.setDmlTxn t (some cn.addr))).2 := by
  obtain ⟨halloc, hcatalog, hkey⟩ := hmakes
  have hsend : e.send r.catalog some = (true, e) := by rw [hcatalog]; rfl
  simp only [vtabDmlCtx, hcn, if_neg hnew, halloc, hsend, hkey, Bool.not_true, Bool.false_eq_true, if_false]
  rcases txnBeginLazy r (e.setDmlTxn t (some cn.addr)) with ⟨b, e'⟩
  cases b <;> rfl

/-- Without one: only the tables change. -/
theorem vtabDmlCtx_unpinned (hcn : e.txnCn = none) (h : vtabDmlCtx t r e = (route, e')) :
    (e' = e ∨ e' = e.setDml t) ∧ ∀ x, route = some x → x = .own := by
  unfold vtabDmlCtx at h
  simp only [hcn] at h
  split_ifs at h <;> (obtain ⟨rfl, rfl⟩ := Prod.mk.inj h; simp)

/-- **Looking for a context** writes nothing: at most it starts the transaction, or loses it when a
    statement fails.  The context belongs to the pinned connection exactly when there is one. -/
theorem vtabDmlCtx_settles (hwf : e.Wf) (h : vtabDmlCtx t r e = (route, e')) :
    e'.Wf ∧ Server.Settles (¬ r.Quiet) e.server e'.server ∧ e'.txnCn.isSome = e.txnCn.isSome ∧
      (∀ x, route = some x → Server.Same e.server e'.server ∧ (x = .pin ↔ e.txnCn.isSome = true)) := by
  cases hcn : e.txnCn with
  | none =>
    obtain ⟨rfl | rfl, hroute⟩ := vtabDmlCtx_unpinned hcn h
    · refine ⟨hwf, .inl (.refl _), by rw [hcn], fun x hx => ⟨.refl _, ?_⟩⟩
      simp [hroute x hx]
    · refine ⟨⟨hwf.free, hwf.pinned⟩, .inl (.refl _), ?_, fun x hx => ⟨.refl _, ?_⟩⟩
      · simp [VmsVtabEnv.setDml, hcn]
      · simp [hroute x hx]
  | some cn =>
    rcases vtabDmlCtx_pinned hcn h with ⟨_, rfl, rfl⟩ | ⟨rfl, rfl | ⟨hfail, rfl⟩⟩ | ⟨_, b, hlazy, rfl⟩
    · exact ⟨hwf, .inl (.refl _), by rw [hcn], fun x hx => ⟨.refl _, by simp [← some.inj hx]⟩⟩
    · exact ⟨⟨hwf.free, hwf.pinned⟩, .inl (.refl _), by simp [VmsVtabEnv.setDmlTxn, hcn], by simp⟩
    · exact ⟨⟨hwf.abort.free, hwf.pinned⟩, .inr ⟨fun hq => hq.1 hfail, rfl⟩,
        by simp [VmsVtabEnv.setDmlTxn, hcn], by simp⟩
    · obtain ⟨hwf', hsettles, hsome, hsame⟩ :=
        txnBeginLazy_settles (e := e.setDmlTxn t (some cn.addr)) ⟨hwf.free, hwf.pinned⟩ hlazy
      have hpinned : e'.txnCn.isSome = true := by
        rw [hsome]
        simp [VmsVtabEnv.setDmlTxn, hcn]
      refine ⟨hwf', hsettles, by simp [hpinned], fun x hx => ?_⟩
      cases b with
      | false => simp at hx
      | true => exact ⟨hsame rfl, by simp [← some.inj hx]⟩

/-- None of the statements of an xUpdate fails on the server. -/
def UpdateReply.Quiet (r : UpdateReply) : Prop := r.ctx.Quiet ∧ r.exec ≠ .failed

instance (r : UpdateReply) : Decidable r.Quiet := inferInstanceAs (Decidable (_ ∧ _))

/-- What an xUpdate can do, once its context is looked for: nothing more; the write on the pinned
    connection, or its failure there; or the write on a connection of its own. -/
theorem vmsVtabUpdate_cases {w : W} {r : UpdateReply} (h : vmsVtabUpdate t w r e = (rc, e')) :
    (rc ≠ .ok ∧ e' = e) ∨ ∃ route e₁, vtabDmlCtx t r.ctx e = (route, e₁) ∧ ((rc ≠ .ok ∧ e' = e₁) ∨
        (route = some .pin ∧ rc = .ok ∧ e' = { e₁ with server := e₁.server.exec (· ++ [w]) }) ∨
        (route = some .pin ∧ rc ≠ .ok ∧ r.exec = .failed ∧ e' = { e₁ with server := e₁.server.abort }) ∨
        (route = some .own ∧ rc = .ok ∧
          e' = { e₁ with server := { e₁.server with committed := e₁.server.committed ++ [w] } })) := by
  revert h
  fun_cases vmsVtabUpdate t w r e <;> rintro ⟨⟩
  case case1 | case2 => exact .inl ⟨by simp, rfl⟩
  case case3 hctx | case4 hctx | case8 hctx => exact .inr ⟨_, _, hctx, .inl ⟨by simp, rfl⟩⟩
  case case5 hctx hsend =>
    obtain ⟨-, s, ⟨⟩, rfl⟩ := send_true hsend
    exact .inr ⟨_, _, hctx, .inr (.inl ⟨rfl, rfl, rfl⟩)⟩
  case case6 sent hctx hsend =>
    rcases send_false hsend with ⟨_, rfl⟩ | ⟨hf, rfl⟩
    · exact .inr ⟨_, _, hctx, .inl ⟨by simp, rfl⟩⟩
    · have hfailed := hf.resolve_right (by simp)
      simp only [sent] at hfailed
      split_ifs at hfailed
      exact .inr ⟨_, _, hctx, .inr (.inr (.inl ⟨rfl, by simp, hfailed, rfl⟩))⟩
  case case7 hctx => exact .inr ⟨_, _, hctx, .inr (.inr (.inr ⟨rfl, rfl, rfl⟩))⟩

/-- **xUpdate.**  Acknowledged, the write is the last one the session sees; otherwise it is not there. -/
theorem vmsVtabUpdate_spec {w : W} {r : UpdateReply} (hwf : e.Wf) (h : vmsVtabUpdate t w r e = (rc, e')) :
    e'.Wf ∧ e'.txnCn.isSome = e.txnCn.isSome ∧
      (rc = .ok → e'.server.data = e.server.data ++ [w] ∧ e'.server.saves = e.server.saves) ∧
      (rc ≠ .ok → Server.Settles (¬ r.Quiet) e.server e'.server) := by
  rcases vmsVtabUpdate_cases h with ⟨hrc, rfl⟩ | ⟨route, e₁, hctx, hcase⟩
  · exact ⟨hwf, rfl, fun hok => absurd hok hrc, fun _ => .inl (.refl _)⟩
  obtain ⟨hwf₁, hsettles, hpin, hroute⟩ := vtabDmlCtx_settles hwf hctx
  rcases hcase with ⟨hrc, rfl⟩ | ⟨rfl, rfl, rfl⟩ | ⟨rfl, hrc, hfail, rfl⟩ | ⟨rfl, rfl, rfl⟩
  · exact ⟨hwf₁, hpin, fun hok => absurd hok hrc, fun _ => hsettles.imp fun hc hq => hc hq.1⟩
  · obtain ⟨hkept, hx⟩ := hroute .pin rfl
    refine ⟨hwf₁.of_pinned (hpin.trans (hx.mp rfl)) _, hpin, fun _ => ⟨?_, ?_⟩, by simp⟩
    · rw [Server.data_exec, hkept.data]
    · rw [Server.saves_exec, hkept.saves]
  · obtain ⟨hkept, _⟩ := hroute .pin rfl
    exact ⟨hwf₁.abort, hpin, fun hok => absurd hok hrc,
      fun _ => Server.Settles.after hkept (.inr ⟨fun hq => hq.2 hfail, rfl⟩)⟩
  · -- a connection of its own is used only when none is pinned, and then the write is committed at once
    obtain ⟨hkept, hx⟩ := hroute .own rfl
    have hnone : e₁.txnCn = none := by
      cases hcn : e.txnCn with
      | none => simpa [hcn] using hpin
      | some cn => rw [hcn] at hx; exact absurd (hx.mpr rfl) (by simp)
    have htran : e₁.server.tran = none := hwf₁.free hnone
    refine ⟨⟨fun _ => htran, hwf₁.pinned⟩, hpin, fun _ => ⟨?_, ?_⟩, by simp⟩
    · rw [← hkept.data]
      simp [Server.data, htran]
    · rw [← hkept.saves]
      simp [Server.saves, htran]

theorem vmsVtabBestIndex_spec (hwf : e.Wf) :
    (vmsVtabBestIndex t r e).2.Wf ∧ (vmsVtabBestIndex t r e).2.txnCn.isSome = e.txnCn.isSome ∧
      Server.Settles (¬ r.Quiet) e.server (vmsVtabBestIndex t r e).2.server := by
  unfold vmsVtabBestIndex
  split_ifs
  · exact ⟨hwf, rfl, .inl (.refl _)⟩
  · obtain ⟨hwf', hsettles, hpin, _⟩ := vtabDmlCtx_settles hwf (t := t) (r := r) rfl
    exact ⟨hwf', hpin, hsettles⟩

end Tables

/-- **xBegin** pins a connection that has no transaction. -/
theorem vmsVtabBegin_spec {a : Option Nat} (hwf : e.Wf) (h : vmsVtabBegin a e = (rc, e')) :
    e'.Wf ∧ e'.server = e.server ∧ (rc = .ok → e'.txnCn.isSome = true) ∧ (rc ≠ .ok → e' = e) ∧
      ∀ cn, e'.txnCn = some cn → e.txnCn = some cn ∨ cn.txnActive = false := by
  unfold vmsVtabBegin txnPinShared at h
  cases hcn : e.txnCn with
  | some cn =>
    simp only [hcn] at h
    cases h
    exact ⟨hwf, rfl, by simp [hcn], by simp, fun cn' hcn' => .inl (hcn ▸ hcn')⟩
  | none =>
    cases a with
    | none =>
      simp only [hcn] at h
      cases h
      exact ⟨hwf, rfl, by simp, by simp, by simp [hcn]⟩
    | some a =>
      simp only [hcn] at h
      cases h
      refine ⟨⟨by simp, fun cn hcn' => ?_⟩, rfl, by simp, by simp, fun cn hcn' => .inr ?_⟩
      all_goals rw [← some.inj hcn']

/-- None of the statements of an xSavepoint fails on the server. -/
def SavepointReply.Quiet (r : SavepointReply) : Prop := r.ctx.Quiet ∧ r.save ≠ .failed

instance (r : SavepointReply) : Decidable r.Quiet := inferInstanceAs (Decidable (_ ∧ _))

/-- Every one of them reaches the server. -/
def SavepointReply.Sent (r : SavepointReply) : Prop :=
  r.ctx.trancount ≠ .unsent ∧ r.ctx.begin_ ≠ .unsent ∧ r.save ≠ .unsent

instance (r : SavepointReply) : Decidable r.Sent := inferInstanceAs (Decidable (_ ∧ _))

/-- **xSavepoint** on a pinned connection: the savepoint is there, or nothing has changed, or the
    transaction is lost.  If its statements reach the server, a failure leaves no savepoint at all. -/
theorem vmsVtabSavepoint_spec {n : Nat} {r : SavepointReply} (hwf : e.Wf)
    (hcn : e.txnCn.isSome = true) (h : vmsVtabSavepoint n r e = (rc, e')) : e'.Wf ∧ e'.txnCn.isSome = true ∧
      (rc = .ok → e'.server.data = e.server.data ∧ e'.server.saves = (svName n, e.server.data) :: e.server.saves) ∧
      (rc ≠ .ok → Server.Settles (¬ r.Quiet) e.server e'.server ∧ (r.Sent → e'.server.saves = [])) := by
  obtain ⟨cn, hsome⟩ := isSome_iff_exists.mp hcn
  have hpin : txnPinShared r.opened e = (true, e) := by simp [txnPinShared, hsome]
  unfold vmsVtabSavepoint at h
  simp only [hpin] at h
  rcases hlazy : txnBeginLazy r.ctx e with ⟨b, e₁⟩
  obtain ⟨hwf₁, hsettles, hpin₁, hsame⟩ := txnBeginLazy_settles hwf hlazy
  have hcn₁ : e₁.txnCn.isSome = true := hpin₁.trans hcn
  have hloud : ¬ r.ctx.Quiet → ¬ r.Quiet := fun hc hq => hc hq.1
  rw [hlazy] at h
  cases b with
  | false =>
    cases h
    refine ⟨hwf₁, hcn₁, by simp, fun _ => ⟨hsettles.imp hloud, fun hsent => ?_⟩⟩
    rcases txnBeginLazy_cases hsome hlazy with ⟨hb, _⟩ | ⟨hb, _⟩ | ⟨_, _, ⟨_, hunsent⟩ | ⟨_, rfl⟩⟩
    · cases hb
    · cases hb
    · rcases hunsent (hwf.pinned cn hsome) with hu | hu
      · exact absurd hu hsent.1
      · exact absurd hu hsent.2.1
    · rfl
  | true =>
    have hkept := hsame rfl
    rcases hsave : txnSave n r.save e₁ with ⟨b₂, e₂⟩
    simp only [hsave] at h
    cases b₂ with
    | true =>
      obtain ⟨_, s, hs, rfl⟩ := send_true hsave
      cases h
      obtain ⟨_, _, hdata, _, hsaves⟩ := Server.save_some hs
      refine ⟨⟨(hwf₁.of_pinned hcn₁ s).free, hwf₁.pinned⟩, hcn₁, fun _ => ⟨?_, ?_⟩, by simp⟩
      · rw [hdata, hkept.data]
      · rw [hsaves, hkept.data, hkept.saves]
    | false =>
      cases h
      rcases send_false hsave with ⟨hu, rfl⟩ | ⟨hf, rfl⟩
      · exact ⟨hwf₁, hcn₁, by simp, fun _ => ⟨hsettles.imp hloud, fun hsent => absurd hu hsent.2.2⟩⟩
      · refine ⟨hwf₁.abort, hcn₁, by simp, fun _ => ⟨Server.Settles.after hkept ?_, fun _ => rfl⟩⟩
        rcases hf with hf | hf
        · exact .inr ⟨fun hq => hq.2 hf, rfl⟩
        · -- SAVE is refused only where no transaction is open
          exact .inl (.abort (by simpa [Server.save] using hf))

/-- **xRollbackTo** on a pinned connection: the server went to the most recent savepoint of the name, or
    nothing has changed, or the transaction is lost. -/
theorem vmsVtabRollbackTo_spec {n : Nat} (hwf : e.Wf) (hcn : e.txnCn.isSome = true)
    (h : vmsVtabRollbackTo n r e = (rc, e')) : e'.Wf ∧ e'.txnCn.isSome = true ∧
      (rc = .ok → ∃ d l, Server.dropTo (svName n) e.server.saves = some (d, l) ∧
        e'.server.data = d ∧ e'.server.saves = l) ∧ (rc ≠ .ok →
        Server.Settles (r = .failed ∨ Server.dropTo (svName n) e.server.saves = none) e.server e'.server) := by
  obtain ⟨cn, hsome⟩ := isSome_iff_exists.mp hcn
  unfold vmsVtabRollbackTo at h
  simp only [hsome] at h
  rcases hback : txnRollbackTo n r e with ⟨b, e₁⟩
  simp only [hback] at h
  cases b with
  | true =>
    obtain ⟨_, s, hs, rfl⟩ := send_true hback
    cases h
    obtain ⟨d, l, hdrop, hdata, hsaves, _⟩ := Server.rollbackTo_some hs
    exact ⟨⟨(hwf.of_pinned hcn s).free, hwf.pinned⟩, hcn, fun _ => ⟨d, l, hdrop, hdata, hsaves⟩, by simp⟩
  | false =>
    cases h
    rcases send_false hback with ⟨_, rfl⟩ | ⟨hf, rfl⟩
    · exact ⟨hwf, hcn, by simp, fun _ => .inl (.refl _)⟩
    · refine ⟨hwf.abort, hcn, by simp, fun _ => .inr ⟨hf.imp_right fun hnone => ?_, rfl⟩⟩
      simpa [Server.rollbackTo] using hnone

/-- `vms_txn_validate` asks at most one query. -/
theorem txnValidate_cases {v : Bool} (h : txnValidate cn r e = (v, e')) :
    e' = e ∨ (r = .failed ∧ e' = { e with server := e.server.abort }) := by
  unfold txnValidate txnDoomed at h
  cases hactive : cn.txnActive with
  | false =>
    simp only [hactive, Bool.not_false, if_true] at h
    exact .inl (Prod.mk.inj h).2.symm
  | true =>
    rcases hsend : e.send r some with ⟨b, e₁⟩
    simp only [hactive, hsend, Bool.not_true, Bool.false_eq_true, if_false, if_true] at h
    obtain rfl : e₁ = e' := by
      cases b <;> exact (Prod.mk.inj h).2
    rcases send_query hsend with ⟨rfl, _⟩ | ⟨_, hfail, rfl⟩
    · exact .inl rfl
    · exact .inr ⟨hfail, rfl⟩

/-- **xSync** changes nothing, unless its query fails on the server. -/
theorem vmsVtabSync_cases (h : vmsVtabSync r e = (rc, e')) :
    e' = e ∨ (r = .failed ∧ e' = { e with server := e.server.abort }) := by
  revert h
  fun_cases vmsVtabSync r e <;> rintro ⟨⟩
  case case1 => exact .inl rfl
  all_goals exact txnValidate_cases (by assumption)

variable {r : EndReply}

/-- **xCommit**: afterwards nothing is pinned; the session's data is committed, or nothing is, and the
    former when the call is OK. -/
theorem vmsVtabCommit_spec (hwf : e.Wf) (h : vmsVtabCommit r e = (rc, e')) :
    e'.txnCn = none ∧ e'.server.tran = none ∧ (rc = .ok → e'.server.committed = e.server.data) ∧
      (e'.server.committed = e.server.data ∨ e'.server.committed = e.server.committed) := by
  unfold vmsVtabCommit txnFinalize at h
  cases hcn : e.txnCn with
  | none =>
    simp only [hcn] at h
    cases h
    exact ⟨hcn, hwf.free hcn, fun _ => by simp [Server.data, hwf.free hcn], .inr rfl⟩
  | some cn =>
    simp only [hcn] at h
    cases r with
    | ok =>
      cases h
      exact ⟨rfl, rfl, fun _ => rfl, .inl rfl⟩
    | timeout =>
      cases h
      exact ⟨rfl, rfl, by simp, .inr rfl⟩
    | transport landed =>
      cases h
      cases landed
      · exact ⟨rfl, rfl, by simp, .inr rfl⟩
      · exact ⟨rfl, rfl, by simp, .inl rfl⟩
    | other landed =>
      cases hactive : cn.txnActive <;> simp only [hactive] at h <;> cases h <;> cases landed
      all_goals first | exact ⟨rfl, rfl, by simp, .inr rfl⟩ | exact ⟨rfl, rfl, by simp, .inl rfl⟩

/-- **xRollback**: afterwards nothing is pinned, and nothing more is committed than before. -/
theorem vmsVtabRollback_spec (hwf : e.Wf) (h : vmsVtabRollback r e = (rc, e')) :
    e'.txnCn = none ∧ e'.server.tran = none ∧ e'.server.committed = e.server.committed := by
  unfold vmsVtabRollback at h
  cases hcn : e.txnCn with
  | none =>
    simp only [hcn] at h
    cases h
    exact ⟨hcn, hwf.free hcn, rfl⟩
  | some cn =>
    simp only [hcn] at h
    cases r with
    | ok | timeout =>
      cases h
      exact ⟨rfl, rfl, rfl⟩
    | transport landed | other landed =>
      cases h
      cases landed <;> exact ⟨rfl, rfl, rfl⟩

/-! ## What the calls do to the tables -/

section Keep

/-- A statement changes the server and nothing else. -/
theorem send_server (e : VmsVtabEnv T W) (r : Reply) (f) : ∃ s, (e.send r f).2 = { e with server := s } := by
  rcases h : e.send r f with ⟨b, e'⟩
  cases b with
  | true =>
    obtain ⟨_, s, _, rfl⟩ := send_true h
    exact ⟨s, rfl⟩
  | false => rcases send_false h with ⟨_, rfl⟩ | ⟨_, rfl⟩ <;> exact ⟨_, rfl⟩

theorem send_tabs (e : VmsVtabEnv T W) (r : Reply) (f) : (e.send r f).2.tabs = e.tabs := by
  obtain ⟨s, h⟩ := send_server e r f
  rw [h]

theorem send_txnCn (e : VmsVtabEnv T W) (r : Reply) (f) : (e.send r f).2.txnCn = e.txnCn := by
  obtain ⟨s, h⟩ := send_server e r f
  rw [h]

theorem txnBeginLazy_tabs (r : CtxReply) (e : VmsVtabEnv T W) : (txnBeginLazy r e).2.tabs = e.tabs := by
  rcases h : txnBeginLazy r e with ⟨b, e'⟩
  cases hcn : e.txnCn with
  | none =>
    rw [txnBeginLazy, hcn] at h
    cases h
    rfl
  | some cn => rcases txnBeginLazy_cases hcn h with ⟨_, _, rfl⟩ | ⟨_, _, rfl⟩ | ⟨_, _, ⟨rfl, _⟩ | ⟨_, rfl⟩⟩ <;> rfl

theorem txnPinShared_tabs (a : Option Nat) (e : VmsVtabEnv T W) : (txnPinShared a e).2.tabs = e.tabs := by
  unfold txnPinShared
  cases e.txnCn <;> cases a <;> rfl

theorem txnUnpin_tabs (e : VmsVtabEnv T W) : (txnUnpin e).tabs = e.tabs := by
  unfold txnUnpin
  cases e.txnCn <;> rfl

theorem txnFinalize_tabs (rollbackOp : Bool) (r : EndReply) (cn : VmsConnection) (e : VmsVtabEnv T W) :
    (txnFinalize rollbackOp r cn e).2.tabs = e.tabs := by
  unfold txnFinalize
  cases r with
  | other landed =>
    simp only
    split_ifs <;> rfl
  | _ => rfl

/-! What a call leaves behind does not depend on the code it returns. -/

theorem vmsVtabBegin_env (a : Option Nat) (e : VmsVtabEnv T W) : (vmsVtabBegin a e).2 = (txnPinShared a e).2 := by
  rw [vmsVtabBegin]
  rcases txnPinShared a e with ⟨b, e'⟩
  cases b <;> rfl

theorem vmsVtabCommit_env (hcn : e.txnCn = some cn) (r : EndReply) :
    (vmsVtabCommit r e).2 = txnUnpin (txnFinalize false r cn e).2 := by
  rw [vmsVtabCommit, hcn]
  simp only
  rcases txnFinalize false r cn e with ⟨res, e'⟩
  cases res <;> rfl

theorem vmsVtabRollback_env (hcn : e.txnCn = some cn) (r : EndReply) :
    (vmsVtabRollback r e).2 = txnUnpin (txnFinalize true r cn e).2 := by
  rw [vmsVtabRollback, hcn]
  simp only
  rcases txnFinalize true r cn e with ⟨res, e'⟩
  cases res <;> rfl

variable [DecidableEq T]

/-- **Looking for a context**: other tables are not touched, the modes stay, a context with its own
    connection stays, and outside a transaction that is the one that is found. -/
theorem vtabDmlCtx_tabs (t : T) (r : CtxReply) (e : VmsVtabEnv T W) :
    (∀ u, u ≠ t → (vtabDmlCtx t r e).2.tabs u = e.tabs u) ∧
    ((e.tabs t).dml = true → ((vtabDmlCtx t r e).2.tabs t).dml = true) ∧
    (e.txnCn.isSome = true → ((vtabDmlCtx t r e).2.tabs t).dml = (e.tabs t).dml) ∧
    (e.txnCn = none → (vtabDmlCtx t r e).1.isSome = true → ((vtabDmlCtx t r e).2.tabs t).dml = true) := by
  rcases hctx : vtabDmlCtx t r e with ⟨route, e'⟩
  cases hcn : e.txnCn with
  | none =>
    unfold vtabDmlCtx at hctx
    simp only [hcn] at hctx
    split_ifs at hctx with hdml hrw hok <;> cases hctx
    · simp [hdml]
    · simp
    · refine ⟨fun u hu => ?_, ?_⟩
      · simp [VmsVtabEnv.setDml, update_of_ne hu]
      · simp [VmsVtabEnv.setDml]
    · simp
  | some cn =>
    have hset : ∀ (e₀ : VmsVtabEnv T W) (a : Option Nat), e₀.tabs = e.tabs →
        (∀ u, u ≠ t → (e₀.setDmlTxn t a).tabs u = e.tabs u) ∧ ((e₀.setDmlTxn t a).tabs t).dml = (e.tabs t).dml := by
      intro e₀ a he₀
      refine ⟨fun u hu => ?_, ?_⟩
      · simp [VmsVtabEnv.setDmlTxn, update_of_ne hu, he₀]
      · simp [VmsVtabEnv.setDmlTxn, he₀]
    have hkeep : (∀ u, u ≠ t → e'.tabs u = e.tabs u) ∧ (e'.tabs t).dml = (e.tabs t).dml := by
      rcases vtabDmlCtx_pinned hcn hctx with ⟨_, _, rfl⟩ | ⟨_, rfl | ⟨_, rfl⟩⟩ | ⟨_, b, hlazy, _⟩
      · exact ⟨fun _ _ => rfl, rfl⟩
      · exact hset e none rfl
      · exact hset _ none rfl
      · have htabs := txnBeginLazy_tabs r (e.setDmlTxn t (some cn.addr))
        rw [hlazy] at htabs
        rw [show e'.tabs = _ from htabs]
        exact hset e _ rfl
    exact ⟨hkeep.1, fun h => hkeep.2.trans h, fun _ => hkeep.2, by simp⟩

/-- **xUpdate**, past its context, changes the server and nothing else. -/
theorem vmsVtabUpdate_server (t : T) (w : W) (r : UpdateReply) (hrw : (e.tabs t).rwMode = true)
    (hq : (e.tabs t).isQuerySource = false) :
    ∃ s, (vmsVtabUpdate t w r e).2 = { (vtabDmlCtx t r.ctx e).2 with server := s } := by
  fun_cases vmsVtabUpdate t w r e
  case case1 h => simp [hrw] at h
  case case2 h => simp [hq] at h
  case case5 e₁ _ sent _ hsend hctx | case6 e₁ _ sent _ hsend hctx =>
    obtain ⟨s, hs⟩ := send_server e₁ sent fun s => some (s.exec (· ++ [w]))
    exact ⟨s, by simp [hctx, ← hs, hsend]⟩
  case case4 hctx _ => exact ⟨_, by rw [hctx]⟩
  all_goals
    rename_i hctx
    exact ⟨_, by rw [hctx]⟩

theorem vmsVtabUpdate_tabs (t : T) (w : W) (r : UpdateReply) (hrw : (e.tabs t).rwMode = true)
    (hq : (e.tabs t).isQuerySource = false) : (vmsVtabUpdate t w r e).2.tabs = (vtabDmlCtx t r.ctx e).2.tabs := by
  obtain ⟨s, h⟩ := vmsVtabUpdate_server t w r hrw hq
  rw [h]

/-- **xUpdate is OK exactly when its statement is executed**: how many rows it changed is not looked at. -/
theorem vmsVtabUpdate_ok_iff {t : T} {w : W} {r : UpdateReply} (hrw : (e.tabs t).rwMode = true)
    (hq : (e.tabs t).isQuerySource = false) :
    (vmsVtabUpdate t w r e).1 = .ok ↔ ((vtabDmlCtx t r.ctx e).1.isSome = true ∧ r.built = true) ∧
      r.exec = .ok ∧ e.txnCn.any (·.quarantined) = false := by
  unfold vmsVtabUpdate
  simp only [hrw, hq, Bool.not_true, Bool.false_eq_true, if_false]
  rcases hctx : vtabDmlCtx t r.ctx e with ⟨_ | x, e₁⟩
  · simp
  by_cases hbuilt : r.built = true
  swap
  · simp [hbuilt]
  simp only [hbuilt, Bool.not_true, Bool.false_eq_true, if_false, isSome_some, true_and]
  cases hcn : e.txnCn with
  | none =>
    obtain rfl := (vtabDmlCtx_unpinned hcn hctx).2 x rfl
    simp only
    split_ifs with hexec <;> simp [hexec]
  | some cn =>
    -- the search keeps the connection, but for the flag of the BEGIN
    have hpin : x = .pin ∧ e₁.txnCn.any (·.quarantined) = cn.quarantined := by
      rcases vtabDmlCtx_pinned hcn hctx with ⟨_, hx, rfl⟩ | ⟨hnone, _⟩ | ⟨_, b, hlazy, hx⟩
      · exact ⟨some.inj hx, by rw [hcn]; rfl⟩
      · cases hnone
      · have hcn' : (e.setDmlTxn t (some cn.addr)).txnCn = some cn := hcn
        cases b with
        | false => simp at hx
        | true =>
          refine ⟨by simpa using hx, ?_⟩
          rcases txnBeginLazy_cases hcn' hlazy with ⟨_, _, rfl⟩ | ⟨_, _, rfl⟩ | ⟨hb, _⟩
          · rw [hcn']
            rfl
          · rfl
          · cases hb
    obtain ⟨rfl, hquar⟩ := hpin
    simp only [hquar, any_some]
    cases cn.quarantined with
    | true => simp [VmsVtabEnv.send]
    | false => cases hexec : r.exec <;> simp [VmsVtabEnv.send]

end Keep

/-! ## A commit that fails -/

/-- SQLite ends a transaction with one call for each table that joined it. -/
inductive EndCall
  | commit (r : EndReply)
  | rollback (r : EndReply)
  deriving DecidableEq

def EndCall.call (e : VmsVtabEnv T W) : EndCall → SqliteRc × VmsVtabEnv T W
  | .commit r => vmsVtabCommit r e
  | .rollback r => vmsVtabRollback r e

/-- The environment after the calls. -/
def endCalls (e : VmsVtabEnv T W) (calls : List EndCall) : VmsVtabEnv T W :=
  Run.run (fun e c => (EndCall.call e c).2) e calls

/-- Once the pin is gone every call is OK and does nothing. -/
theorem EndCall.call_unpinned (hcn : e.txnCn = none) (c : EndCall) : EndCall.call e c = (.ok, e) := by
  cases c <;> simp [EndCall.call, vmsVtabCommit, vmsVtabRollback, hcn]

/-- So do all calls that follow. -/
theorem endCalls_unpinned (hcn : e.txnCn = none) (calls : List EndCall) : endCalls e calls = e := by
  induction calls with
  | nil => rfl
  | cons c calls ih =>
    rw [endCalls, Run.run_cons, EndCall.call_unpinned hcn c]
    exact ih

/-- **What a failed commit owes.**  BUSY keeps the remote transaction, pinned; and of the calls that
    follow, an xCommit is OK only when the server has committed the transaction's writes. -/
structure KeepsFailure (r : EndReply) (later : List EndCall) (e : VmsVtabEnv T W) : Prop where
  busy : (vmsVtabCommit r e).1 = .busy →
    (vmsVtabCommit r e).2.txnCn.isSome = true ∧ (vmsVtabCommit r e).2.server = e.server
  honest : ∀ before c after, later = before ++ .commit c :: after →
    (vmsVtabCommit c (endCalls (vmsVtabCommit r e).2 before)).1 = .ok →
      (endCalls (vmsVtabCommit r e).2 before).server.committed = e.server.data

/-- The pin is gone after every xCommit, and what the server did is what it did on the first one. -/
theorem vmsVtabCommit_pinned (hcn : e.txnCn = some cn) (r : EndReply) : (vmsVtabCommit r e).2.txnCn = none ∧
      (∀ landed, r = .transport landed ∨ r = .other landed →
        (vmsVtabCommit r e).2.server.committed = if landed then e.server.data else e.server.committed) ∧
      ((vmsVtabCommit r e).1 = .busy ↔ r = .timeout ∨ ∃ landed, r = .other landed ∧ cn.txnActive = false) := by
  have hended : ∀ landed : Bool, (if landed then endTran false e.server else e.server).abort.committed =
      if landed then e.server.data else e.server.committed := by
    intro landed
    cases landed <;> rfl
  unfold vmsVtabCommit
  cases r with
  | ok | timeout => simp [hcn, txnFinalize, txnUnpin]
  | transport landed => simp [hcn, txnFinalize, txnUnpin, hended]
  | other landed =>
    cases hactive : cn.txnActive <;> simp [hcn, txnFinalize, txnUnpin, hactive, hended]

/-- **A failed commit stays one** exactly when it failed with an unknown outcome, and either the server
    did commit after all, or there was nothing to commit, or no other table commits behind it.  BUSY never
    keeps the transaction. -/
theorem failedCommit_kept_iff (hcn : e.txnCn = some cn) (hr : (txnFinalize false r cn e).1 ≠ .ok)
    (later : List EndCall) :
    KeepsFailure r later e ↔
      ∃ landed, (r = .transport landed ∨ (r = .other landed ∧ cn.txnActive = true)) ∧
        (landed = true ∨ e.server.data = e.server.committed ∨ ∀ c, EndCall.commit c ∉ later) := by
  obtain ⟨hgone, hcommitted, hbusy⟩ := vmsVtabCommit_pinned hcn r
  constructor
  · intro h
    have hnot : (vmsVtabCommit r e).1 ≠ .busy := fun hb => by simpa [hgone] using (h.busy hb).1
    rw [Ne, hbusy, not_or] at hnot
    -- what is left of the replies is the unknown outcome
    have hunknown : ∃ landed, r = .transport landed ∨ (r = .other landed ∧ cn.txnActive = true) := by
      cases r with
      | ok => exact absurd rfl hr
      | timeout => exact absurd rfl hnot.1
      | transport landed => exact ⟨landed, .inl rfl⟩
      | other landed =>
        refine ⟨landed, .inr ⟨rfl, ?_⟩⟩
        cases hactive : cn.txnActive with
        | true => rfl
        | false => exact absurd ⟨landed, rfl, hactive⟩ hnot.2
    obtain ⟨landed, hreply⟩ := hunknown
    refine ⟨landed, hreply, ?_⟩
    cases landed with
    | true => exact .inl rfl
    | false =>
      by_cases hcall : ∃ c, EndCall.commit c ∈ later
      · obtain ⟨c, hc⟩ := hcall
        obtain ⟨before, after, hlater⟩ := List.append_of_mem hc
        have hsame := endCalls_unpinned hgone before
        have hok : (vmsVtabCommit c (endCalls (vmsVtabCommit r e).2 before)).1 = .ok := by
          rw [hsame]
          exact congrArg Prod.fst (EndCall.call_unpinned hgone (.commit c))
        have hdata := h.honest before c after hlater hok
        rw [hsame, hcommitted false (hreply.imp_right And.left)] at hdata
        exact .inr (.inl hdata.symm)
      · exact .inr (.inr fun c hc => hcall ⟨c, hc⟩)
  · rintro ⟨landed, hreply, hwhy⟩
    refine ⟨fun hb => ?_, fun before c after hlater _ => ?_⟩
    · rcases hbusy.mp hb with rfl | ⟨l, rfl, hactive⟩
      · simp at hreply
      · simp [hactive] at hreply
    · rw [endCalls_unpinned hgone, hcommitted landed (hreply.imp_right And.left)]
      rcases hwhy with rfl | hnothing | hnone
      · rfl
      · rw [hnothing, ite_self]
      · exact absurd (by rw [hlater]; simp) (hnone c)

/-- A pinned connection with one write in its transaction. -/
def oneWrite : VmsVtabEnv Nat Nat where
  txnCn := some { addr := 1, txnPinned := true, txnActive := true }
  server := { committed := [], tran := some { current := [7] } }

theorem failedCommit_kept_landed :
    KeepsFailure (.transport true) [.commit .ok, .rollback .ok] oneWrite :=
  (failedCommit_kept_iff (e := oneWrite) rfl (by decide) _).mpr ⟨true, .inl rfl, .inl rfl⟩

/-- **A lock timeout on the first of two tables**: BUSY, the pin is dropped and the write with it, and
    the second table's xCommit reports OK. -/
theorem busyCommit_turned_ok :
    (vmsVtabCommit .timeout oneWrite).1 = .busy ∧
      (vmsVtabCommit .timeout oneWrite).2.txnCn.isSome = false ∧
      (vmsVtabCommit .ok (vmsVtabCommit .timeout oneWrite).2).1 = .ok ∧
      (vmsVtabCommit .ok (vmsVtabCommit .timeout oneWrite).2).2.server.committed = [] ∧
      ¬ KeepsFailure .timeout [.commit .ok] oneWrite := by
  refine ⟨rfl, rfl, rfl, rfl, fun h => ?_⟩
  exact absurd (h.busy rfl).1 (by decide)

end VirtualMssql.Txn
