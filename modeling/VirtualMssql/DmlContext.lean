/-
  THE WRITE CONTEXT — is a statement of xUpdate ever sent outside the transaction?

  While a connection is pinned, `vtab_dml_ctx` hands out the context of the table.  A new context is bound
  to the connection first and begun second: the lazy BEGIN follows the binding, and when it fails the
  binding stays.  A bound context is recognised by the address of its connection alone and handed out
  without a BEGIN.  So the contexts are sound exactly as long as no context is bound to the pinned
  connection while that has no transaction (`Bound`), and there are two ways to get there: a lazy BEGIN
  that fails after the context was made, and a connection that is opened at the address of an old one to
  which a context is still bound (`Careful`).

  `context_active_iff` says that these two are all, for every run; and that a run that avoids them, and in
  which no statement fails on the server, sends every write inside a transaction.
-/
import VirtualMssql.SharedEnv
import VirtualMssql.Update

namespace VirtualMssql.DmlContext

open Option
open Savepoint (Server)
open Txn Run
open SharedEnv (Live txnBeginLazy_live vtabDmlCtx_live vmsVtabUpdate_inside)
open Update (TxnCall)

variable {T W : Type}

/-! ## The calls -/

/-- A call on some table, or one of the calls of the transaction. -/
inductive Call (T W : Type)
  | bestIndex (t : T) (r : CtxReply)
  | update (t : T) (w : W) (r : UpdateReply)
  | txn (c : TxnCall)

/-- The environment before the first call. -/
def start (tabs : T → VmsVtab) : VmsVtabEnv T W := { tabs }

variable (e : VmsVtabEnv T W)

/-- A table that xBestIndex and xUpdate look for a context of. -/
def Writable (t : T) : Prop :=
  (e.tabs t).rwMode = true ∧ (e.tabs t).isQuerySource = false

instance (t : T) : Decidable (Writable e t) := inferInstanceAs (Decidable (_ ∧ _))

/-- A connection opened at the address is not taken for an older one. -/
def Unclaimed (a : Nat) : Prop := ∀ t, (e.tabs t).dmlTxn ≠ some a

/-- The lazy BEGIN succeeds when a context has just been made for it. -/
def Begun (t : T) (r : CtxReply) : Prop :=
  ∀ cn, e.txnCn = some cn → (e.tabs t).dmlTxn ≠ some cn.addr → r.Makes → (txnBeginLazy r e).1 = true

/-- A call that leaves no context bound to a connection without a transaction. -/
def Careful : Call T W → Prop
  | .bestIndex t r => Writable e t → Begun e t r
  | .update t _ r => Writable e t → Begun e t r.ctx
  | .txn (.begin_ opened) => e.txnCn = none → ∀ a, opened = some a → Unclaimed e a
  | .txn (.savepoint _ r) => e.txnCn = none → ∀ a, r.opened = some a →
      Unclaimed e a ∨ (txnBeginLazy r.ctx (txnPinShared r.opened e).2).1 = true
  | .txn _ => True

/-- No statement of the call fails on the server. -/
def Unfailing : Call T W → Prop
  | .bestIndex _ r => r.Quiet
  | .update _ _ r => r.Quiet
  | .txn (.sync r) => r ≠ .failed
  | .txn (.savepoint _ r) => r.Quiet
  | .txn (.rollbackTo n r) => r ≠ .failed ∧ (r = .ok → (e.server.rollbackTo (svName n)).isSome = true)
  | .txn _ => True

section Tables

variable [DecidableEq T]

def step (e : VmsVtabEnv T W) : Call T W → VmsVtabEnv T W
  | .bestIndex t r => (vmsVtabBestIndex t r e).2
  | .update t w r => (vmsVtabUpdate t w r e).2
  | .txn c => c.run e

/-- **A context handed out while a connection is pinned** is bound to that connection, and a lazy BEGIN has
    succeeded on it. -/
def ContextActive (t : T) (r : CtxReply) (e : VmsVtabEnv T W) : Prop :=
  ∀ cn, e.txnCn = some cn → ∀ route e', vtabDmlCtx t r e = (some route, e') →
    route = .pin ∧ (e'.tabs t).dmlTxn = some cn.addr ∧
      ∃ cn', e'.txnCn = some cn' ∧ cn'.addr = cn.addr ∧ cn'.txnActive = true

/-- What is sent through it is sent inside a transaction. -/
def ContextInside (t : T) (r : CtxReply) (e : VmsVtabEnv T W) : Prop :=
  e.txnCn.isSome = true → ∀ route e', vtabDmlCtx t r e = (some route, e') → e'.server.tran.isSome = true

end Tables

/-! ## The pinned connection -/

variable {e} {e' : VmsVtabEnv T W} {cn : VmsConnection}

/-- **The lazy BEGIN** keeps the connection, and its flag says whether it succeeded. -/
theorem txnBeginLazy_cn {r : CtxReply} {b : Bool} (hcn : e.txnCn = some cn)
    (h : txnBeginLazy r e = (b, e')) : ∃ cn', e'.txnCn = some cn' ∧ cn'.addr = cn.addr ∧ cn'.txnActive = b := by
  rcases txnBeginLazy_cases hcn h with ⟨rfl, ha, rfl⟩ | ⟨rfl, _, rfl⟩ | ⟨rfl, ha, ⟨rfl, _⟩ | ⟨_, rfl⟩⟩
  · exact ⟨cn, hcn, rfl, ha⟩
  · exact ⟨_, rfl, rfl, rfl⟩
  all_goals exact ⟨cn, hcn, rfl, ha⟩

/-- It does not look at the tables. -/
theorem txnBeginLazy_setDmlTxn [DecidableEq T] (r : CtxReply) (e : VmsVtabEnv T W) (t : T) (a : Option Nat) :
    (txnBeginLazy r (e.setDmlTxn t a)).1 = (txnBeginLazy r e).1 := by
  unfold txnBeginLazy VmsVtabEnv.setDmlTxn VmsVtabEnv.send
  cases e.txnCn with
  | none => rfl
  | some cn =>
    simp only
    split_ifs
    · rfl
    · rfl
    · cases r.trancount <;> cases r.begin_ <;> simp only <;> split_ifs <;> rfl

/-- The pinned connection after a call of the transaction. -/
def cnAfter (e : VmsVtabEnv T W) : TxnCall → Option VmsConnection
  | .begin_ opened => (txnPinShared opened e).2.txnCn
  | .commit _ => none
  | .rollback _ => none
  | .savepoint _ r => (txnBeginLazy r.ctx (txnPinShared r.opened e).2).2.txnCn
  | .sync _ | .release | .rollbackTo _ _ => e.txnCn

theorem txnUnpin_txnCn (e : VmsVtabEnv T W) : (txnUnpin e).txnCn = none := by
  unfold txnUnpin
  cases h : e.txnCn <;> simp [h]

theorem run_txnCn (e : VmsVtabEnv T W) (c : TxnCall) : (c.run e).txnCn = cnAfter e c := by
  cases c with
  | begin_ a => rw [TxnCall.run, vmsVtabBegin_env, cnAfter]
  | sync r =>
    rcases h : vmsVtabSync r e with ⟨rc, e'⟩
    rw [TxnCall.run, h]
    rcases vmsVtabSync_cases h with rfl | ⟨_, rfl⟩ <;> rfl
  | commit r =>
    rw [TxnCall.run, cnAfter]
    cases hcn : e.txnCn with
    | none => rw [vmsVtabCommit, hcn, hcn]
    | some cn => rw [vmsVtabCommit_env hcn, txnUnpin_txnCn]
  | rollback r =>
    rw [TxnCall.run, cnAfter]
    cases hcn : e.txnCn with
    | none => rw [vmsVtabRollback, hcn, hcn]
    | some cn => rw [vmsVtabRollback_env hcn, txnUnpin_txnCn]
  | savepoint n r =>
    rw [TxnCall.run, vmsVtabSavepoint, cnAfter]
    rcases hp : txnPinShared r.opened e with ⟨b, e₁⟩
    cases b with
    | false =>
      -- the pin has failed, so nothing is pinned
      have hnone : e₁.txnCn = none := by
        revert hp
        fun_cases txnPinShared r.opened e <;> rintro ⟨⟩
        assumption
      simp [txnBeginLazy, hnone]
    | true =>
      simp only
      rcases txnBeginLazy r.ctx e₁ with ⟨b, e₂⟩
      cases b with
      | false => rfl
      | true =>
        have hsave := send_txnCn e₂ r.save (Server.save (svName n))
        simp only
        rw [txnSave]
        rcases hs : e₂.send r.save (Server.save (svName n)) with ⟨b, e₃⟩
        rw [hs] at hsave
        cases b <;> exact hsave
  | release => rfl
  | rollbackTo n r =>
    rw [TxnCall.run, vmsVtabRollbackTo, cnAfter]
    cases hcn : e.txnCn with
    | none => exact hcn
    | some cn =>
      have hback := send_txnCn e r (Server.rollbackTo (svName n))
      simp only
      rw [txnRollbackTo]
      rcases hs : e.send r (Server.rollbackTo (svName n)) with ⟨b, e'⟩
      rw [hs, hcn] at hback
      cases b <;> exact hback

/-! ## What a step keeps -/

/-- **The invariant**: a context is bound to the pinned connection only when that has begun. -/
def Bound (e : VmsVtabEnv T W) : Prop :=
  ∀ cn, e.txnCn = some cn → ∀ t, (e.tabs t).dmlTxn = some cn.addr → cn.txnActive = true

theorem bound_start (tabs : T → VmsVtab) : Bound (start tabs : VmsVtabEnv T W) := by
  intro cn hcn
  simp [start] at hcn

/-- Only the connection and the tables count. -/
theorem bound_congr (hcn : e'.txnCn = e.txnCn) (htabs : e'.tabs = e.tabs) : Bound e' ↔ Bound e := by
  rw [Bound, Bound, hcn, htabs]

/-- A connection that has just been pinned has not begun. -/
theorem bound_fresh (hcn : e'.txnCn = some cn) (htabs : e'.tabs = e.tabs) :
    Bound e' ↔ Unclaimed e cn.addr ∨ cn.txnActive = true := by
  constructor
  · intro h
    by_cases hactive : cn.txnActive = true
    · exact .inr hactive
    · refine .inl fun t ht => hactive (h cn hcn t ?_)
      rw [htabs]
      exact ht
  · intro h cn' hcn' t ht
    obtain rfl := some.inj (hcn.symm.trans hcn')
    rw [htabs] at ht
    exact h.resolve_left fun hfree => hfree t ht

/-- **The calls of a transaction.** -/
theorem bound_txn (h : Bound e) (c : TxnCall) : Bound (c.run e) ↔ Careful e (.txn c) := by
  have hrun := run_txnCn e c
  have htabs := c.run_tabs e
  have hsame (heq : (c.run e).txnCn = e.txnCn) : Bound (c.run e) := (bound_congr heq htabs).mpr h
  have hgone (hnone : (c.run e).txnCn = none) : Bound (c.run e) := by
    intro cn hcn
    simp [hnone] at hcn
  cases c with
  | begin_ opened =>
    rw [Careful]
    cases hcn : e.txnCn with
    | some cn => exact iff_of_true (hsame (by simp [hrun, cnAfter, txnPinShared, hcn])) (by simp)
    | none =>
      cases opened with
      | none => exact iff_of_true (hsame (by simp [hrun, cnAfter, txnPinShared, hcn])) (by simp)
      | some a =>
        have hfresh : (TxnCall.run e (.begin_ (some a))).txnCn = some { addr := a, txnPinned := true } := by
          simp [hrun, cnAfter, txnPinShared, hcn]
        rw [bound_fresh hfresh htabs]
        simp
  | savepoint n r =>
    rw [Careful]
    cases hcn : e.txnCn with
    | some cn =>
      refine iff_of_true ?_ (by simp)
      have hpin : txnPinShared r.opened e = (true, e) := by simp [txnPinShared, hcn]
      rcases hlazy : txnBeginLazy r.ctx e with ⟨b, e₁⟩
      intro cn' hcn' t ht
      rw [hrun, cnAfter, hpin, hlazy] at hcn'
      rw [htabs] at ht
      rcases txnBeginLazy_cases hcn hlazy with ⟨_, _, rfl⟩ | ⟨_, _, rfl⟩ | ⟨_, _, ⟨rfl, _⟩ | ⟨_, rfl⟩⟩
      · exact h cn' hcn' t ht
      · rw [← some.inj hcn']
      all_goals exact h cn' hcn' t ht
    | none =>
      cases hopened : r.opened with
      | none =>
        refine iff_of_true (hgone ?_) (by simp)
        simp [hrun, cnAfter, txnPinShared, hcn, hopened, txnBeginLazy]
      | some a =>
        rcases hlazy : txnBeginLazy r.ctx (txnPinShared r.opened e).2 with ⟨b, e₂⟩
        have hpin : (txnPinShared r.opened e).2.txnCn = some { addr := a, txnPinned := true } := by
          simp [txnPinShared, hcn, hopened]
        obtain ⟨cn', hcn', haddr, hactive⟩ := txnBeginLazy_cn hpin hlazy
        have hrun' : ((TxnCall.savepoint n r).run e).txnCn = some cn' := by
          rw [hrun, cnAfter, hlazy]
          exact hcn'
        rw [bound_fresh hrun' htabs, haddr, hactive]
        rw [hopened] at hlazy
        simp [hlazy]
  | commit r | rollback r => exact iff_of_true (hgone hrun) trivial
  | sync r | release | rollbackTo n r => exact iff_of_true (hsame hrun) trivial

/-- **The calls of a transaction** keep the environment in order. -/
theorem run_wf (hwf : e.Wf) (c : TxnCall) : (c.run e).Wf := by
  have hended {e' : VmsVtabEnv T W} (hcn : e'.txnCn = none) (htran : e'.server.tran = none) : e'.Wf :=
    ⟨fun _ => htran, by simp [hcn]⟩
  cases c with
  | begin_ a => exact (vmsVtabBegin_spec hwf rfl).1
  | sync r =>
    rcases h : vmsVtabSync r e with ⟨rc, e'⟩
    rw [TxnCall.run, h]
    rcases vmsVtabSync_cases h with rfl | ⟨_, rfl⟩
    · exact hwf
    · exact hwf.abort
  | commit r =>
    obtain ⟨hcn, htran, _⟩ := vmsVtabCommit_spec (r := r) hwf rfl
    exact hended hcn htran
  | rollback r =>
    obtain ⟨hcn, htran, _⟩ := vmsVtabRollback_spec (r := r) hwf rfl
    exact hended hcn htran
  | savepoint n r =>
    rw [TxnCall.run]
    cases hcn : e.txnCn with
    | some cn => exact (vmsVtabSavepoint_spec hwf (by simp [hcn]) rfl).1
    | none =>
      cases hopened : r.opened with
      | none =>
        have hsame : vmsVtabSavepoint n r e = (.error, e) := by
          simp [vmsVtabSavepoint, txnPinShared, hcn, hopened]
        rw [hsame]
        exact hwf
      | some a =>
        -- the savepoint of the connection that is pinned first
        let e₁ : VmsVtabEnv T W := { e with txnCn := some { addr := a, txnPinned := true } }
        have hwf₁ : e₁.Wf := ⟨by simp [e₁], by simp [e₁]⟩
        have hsame : vmsVtabSavepoint n r e = vmsVtabSavepoint n r e₁ := by
          simp [vmsVtabSavepoint, txnPinShared, hcn, hopened, e₁]
        rw [hsame]
        exact (vmsVtabSavepoint_spec hwf₁ rfl rfl).1
  | release => exact ⟨hwf.free, hwf.pinned⟩
  | rollbackTo n r =>
    rw [TxnCall.run]
    cases hcn : e.txnCn with
    | some cn => exact (vmsVtabRollbackTo_spec hwf (by simp [hcn]) rfl).1
    | none =>
      rw [vmsVtabRollbackTo, hcn]
      exact hwf

/-- A connection that is pinned now has not begun. -/
theorem txnPinShared_live (hlive : Live e) (opened : Option Nat) : Live (txnPinShared opened e).2 := by
  unfold txnPinShared
  cases e.txnCn with
  | some cn => exact hlive
  | none =>
    cases opened with
    | none => exact hlive
    | some a => simp [Live]

theorem vmsVtabSavepoint_live (hlive : Live e) {n : Nat} {r : SavepointReply} (hquiet : r.Quiet) :
    Live (vmsVtabSavepoint n r e).2 := by
  have hlive₁ := txnPinShared_live hlive r.opened
  rw [vmsVtabSavepoint]
  rcases hpin : txnPinShared r.opened e with ⟨b, e₁⟩
  rw [hpin] at hlive₁
  cases b with
  | false => exact hlive₁
  | true =>
    simp only
    rcases hlazy : txnBeginLazy r.ctx e₁ with ⟨b, e₂⟩
    cases hcn : e₁.txnCn with
    | none =>
      rw [txnBeginLazy, hcn] at hlazy
      cases hlazy
      exact hlive₁
    | some cn =>
      obtain ⟨hlive₂, htran⟩ := txnBeginLazy_live hlive₁ hquiet.1 hcn hlazy
      cases b with
      | false => exact hlive₂
      | true =>
        simp only
        rcases hsave : txnSave n r.save e₂ with ⟨b, e₃⟩
        cases b with
        | true =>
          obtain ⟨_, s, hs, rfl⟩ := send_true hsave
          exact fun _ _ _ => (Server.save_some hs).2.1
        | false =>
          rcases send_false hsave with ⟨_, rfl⟩ | ⟨hf, rfl⟩
          · exact hlive₂
          · -- SAVE is refused only where no transaction is open
            have hnone := hf.resolve_left hquiet.2
            have hopen := htran rfl
            simp only [Server.save, map_eq_none_iff] at hnone
            simp [hnone] at hopen

theorem vmsVtabRollbackTo_live (hlive : Live e) {n : Nat} {r : Reply} (hr : r ≠ .failed)
    (hok : r = .ok → (e.server.rollbackTo (svName n)).isSome = true) : Live (vmsVtabRollbackTo n r e).2 := by
  rw [vmsVtabRollbackTo]
  cases e.txnCn with
  | none => exact hlive
  | some cn =>
    simp only
    rcases hback : txnRollbackTo n r e with ⟨b, e'⟩
    cases b with
    | true =>
      obtain ⟨_, s, hs, rfl⟩ := send_true hback
      obtain ⟨_, _, _, _, _, htran, _⟩ := Server.rollbackTo_some hs
      exact fun _ _ _ => htran
    | false =>
      rcases send_false hback with ⟨_, rfl⟩ | ⟨hf, _⟩
      · exact hlive
      · have hnone := hf.resolve_left hr
        cases r with
        | failed => exact absurd rfl hr
        | ok => exact absurd (hok rfl) (by simp [hnone])
        | unsent =>
          obtain rfl : e = e' := (Prod.mk.inj hback).2
          exact hlive

/-- They lose no transaction, unless a statement fails. -/
theorem run_live (hlive : Live e) {c : TxnCall} (hok : Unfailing e (.txn c)) : Live (c.run e) := by
  have hrun := run_txnCn e c
  have hgone (hnone : (c.run e).txnCn = none) : Live (c.run e) := by simp [Live, hnone]
  cases c with
  | begin_ opened =>
    rw [TxnCall.run, vmsVtabBegin_env]
    exact txnPinShared_live hlive opened
  | sync r =>
    rcases h : vmsVtabSync r e with ⟨rc, e'⟩
    rw [TxnCall.run, h]
    rcases vmsVtabSync_cases h with rfl | ⟨hfail, _⟩
    · exact hlive
    · exact absurd hfail hok
  | commit r | rollback r => exact hgone hrun
  | savepoint n r => exact vmsVtabSavepoint_live hlive hok
  | release => exact hlive
  | rollbackTo n r => exact vmsVtabRollbackTo_live hlive hok.1 hok.2

section Tables

variable [DecidableEq T]

/-- **Looking for a context** keeps the invariant exactly when the BEGIN of a new context succeeds. -/
theorem bound_ctx (h : Bound e) (t : T) (r : CtxReply) : Bound (vtabDmlCtx t r e).2 ↔ Begun e t r := by
  rcases hctx : vtabDmlCtx t r e with ⟨route, e'⟩
  cases hcn : e.txnCn with
  | none =>
    have hnone : e'.txnCn = none := by
      rcases (vtabDmlCtx_unpinned hcn hctx).1 with rfl | rfl
      all_goals exact hcn
    exact iff_of_true (by simp [Bound, hnone]) (by simp [Begun, hcn])
  | some cn =>
    by_cases hmakes : (e.tabs t).dmlTxn ≠ some cn.addr ∧ r.Makes
    · have hnext := vtabDmlCtx_makes hcn hmakes.1 hmakes.2
      rw [hctx] at hnext
      rcases hlazy : txnBeginLazy r (e.setDmlTxn t (some cn.addr)) with ⟨b, e₁⟩
      rw [hlazy] at hnext
      obtain rfl : e' = e₁ := hnext
      have hb : (txnBeginLazy r e).1 = b := by rw [← txnBeginLazy_setDmlTxn r e t (some cn.addr), hlazy]
      obtain ⟨cn', hcn', haddr, hactive⟩ := txnBeginLazy_cn (e := e.setDmlTxn t (some cn.addr)) hcn hlazy
      have htabs := txnBeginLazy_tabs r (e.setDmlTxn t (some cn.addr))
      rw [hlazy] at htabs
      -- the table itself is bound now
      have hself : (e'.tabs t).dmlTxn = some cn'.addr := by
        rw [haddr, show e'.tabs = _ from htabs]
        simp [VmsVtabEnv.setDmlTxn]
      have hiff : Bound e' ↔ b = true := by
        rw [← hactive]
        refine ⟨fun hbound => hbound cn' hcn' t hself, fun hb cn'' hcn'' _ _ => ?_⟩
        rw [← some.inj (hcn'.symm.trans hcn'')]
        exact hb
      rw [hiff, Begun, hb]
      refine ⟨fun hbegun _ _ _ _ => hbegun, fun hbegun => hbegun cn hcn hmakes.1 hmakes.2⟩
    · refine iff_of_true ?_ fun cn₁ hcn₁ hnew hm => ?_
      · -- the binding of the table is dropped, unless it was there
        have hdrop : Bound (e.setDmlTxn t none) := by
          intro cn₁ hcn₁ u hu
          refine h cn₁ hcn₁ u ?_
          by_cases hut : u = t
          · subst hut
            simp [VmsVtabEnv.setDmlTxn] at hu
          · simpa [VmsVtabEnv.setDmlTxn, Function.update_of_ne hut] using hu
        rcases vtabDmlCtx_pinned hcn hctx with ⟨_, _, rfl⟩ | ⟨_, rfl | ⟨_, rfl⟩⟩ | ⟨hnew, _⟩
        · exact h
        · exact hdrop
        · exact hdrop
        · exact absurd hnew hmakes
      · obtain rfl := some.inj (hcn.symm.trans hcn₁)
        exact absurd ⟨hnew, hm⟩ hmakes

/-- A table that is not writable is left alone. -/
theorem vmsVtabUpdate_readonly {t : T} (ht : ¬ Writable e t) {w : W} {r : UpdateReply} :
    (vmsVtabUpdate t w r e).2 = e := by
  unfold vmsVtabUpdate
  cases hrw : (e.tabs t).rwMode with
  | false => rfl
  | true =>
    cases hq : (e.tabs t).isQuerySource with
    | true => rfl
    | false => exact absurd ⟨hrw, hq⟩ ht

theorem bound_step (h : Bound e) (i : Call T W) : Bound (step e i) ↔ Careful e i := by
  cases i with
  | bestIndex t r =>
    rw [step, Careful, vmsVtabBestIndex]
    split_ifs with hread
    · refine iff_of_true h fun ht => absurd hread ?_
      simp [ht.1, ht.2]
    · have ht : Writable e t := by
        simp only [Bool.or_eq_true, not_or, Bool.not_eq_true, Bool.not_eq_false'] at hread
        exact ⟨hread.2, hread.1⟩
      rw [bound_ctx h]
      exact ⟨fun hb _ => hb, fun hb => hb ht⟩
  | update t w r =>
    rw [step, Careful]
    by_cases ht : Writable e t
    · obtain ⟨s, hs⟩ := vmsVtabUpdate_server t w r ht.1 ht.2
      rw [bound_congr (e := (vtabDmlCtx t r.ctx e).2) (by rw [hs]) (by rw [hs]), bound_ctx h]
      exact ⟨fun hb _ => hb, fun hb => hb ht⟩
    · rw [vmsVtabUpdate_readonly ht]
      exact iff_of_true h fun hb => absurd hb ht
  | txn c => exact bound_txn h c

/-- **The invariant is what the contexts need**, no more and no less. -/
theorem contextActive_iff (e : VmsVtabEnv T W) : (∀ t r, ContextActive t r e) ↔ Bound e := by
  constructor
  · intro h cn hcn t ht
    -- a bound context is handed out as it is
    have hctx : vtabDmlCtx t {} e = (some .pin, e) := by simp [vtabDmlCtx, hcn, ht]
    obtain ⟨_, _, cn', hcn', _, hactive⟩ := h t {} cn hcn .pin e hctx
    obtain rfl := some.inj (hcn.symm.trans hcn')
    exact hactive
  · intro h t r cn hcn route e' hctx
    rcases vtabDmlCtx_pinned hcn hctx with ⟨hbound, hroute, rfl⟩ | ⟨hnone, _⟩ | ⟨_, b, hlazy, hroute⟩
    · exact ⟨some.inj hroute, hbound, cn, hcn, rfl, h cn hcn t hbound⟩
    · cases hnone
    · cases b with
      | false => cases hroute
      | true =>
        obtain ⟨cn', hcn', haddr, hactive⟩ := txnBeginLazy_cn (e := e.setDmlTxn t (some cn.addr)) hcn hlazy
        have htabs := txnBeginLazy_tabs r (e.setDmlTxn t (some cn.addr))
        rw [hlazy] at htabs
        refine ⟨by simpa using hroute, ?_, cn', hcn', haddr, hactive⟩
        rw [show e'.tabs = _ from htabs]
        simp [VmsVtabEnv.setDmlTxn]

/-! ## Inside a transaction -/

/-- The environment is in order, and a connection that has begun is inside a transaction. -/
structure Safe (e : VmsVtabEnv T W) : Prop where
  wf : e.Wf
  bound : Bound e
  live : Live e

omit [DecidableEq T] in
theorem safe_start (tabs : T → VmsVtab) : Safe (start tabs : VmsVtabEnv T W) where
  wf := ⟨fun _ => rfl, by simp [start]⟩
  bound := bound_start tabs
  live := by simp [Live, start]

omit [DecidableEq T] in
/-- A bound context is inside the transaction. -/
theorem Safe.open_of_bound (h : Safe e) (hcn : e.txnCn = some cn) {t : T}
    (ht : (e.tabs t).dmlTxn = some cn.addr) : e.server.tran.isSome = true :=
  h.live cn hcn (h.bound cn hcn t ht)

/-- **One step** without a failure. -/
theorem Safe.step {e : VmsVtabEnv T W} (h : Safe e) {i : Call T W} (hok : Careful e i ∧ Unfailing e i) :
    Safe (step e i) := by
  refine ⟨?_, (bound_step h.bound i).mpr hok.1, ?_⟩
  · cases i with
    | bestIndex t r => exact (vmsVtabBestIndex_spec h.wf).1
    | update t w r => exact (vmsVtabUpdate_spec h.wf rfl).1
    | txn c => exact run_wf h.wf c
  · cases i with
    | bestIndex t r =>
      rw [DmlContext.step, vmsVtabBestIndex]
      split_ifs
      · exact h.live
      · rcases hctx : vtabDmlCtx t r e with ⟨route, e'⟩
        cases hcn : e.txnCn with
        | some cn => exact (vtabDmlCtx_live h.live hok.2 hcn (h.open_of_bound hcn) hctx).1
        | none => rcases (vtabDmlCtx_unpinned hcn hctx).1 with rfl | rfl <;> exact h.live
    | update t w r =>
      rw [DmlContext.step]
      rcases hup : vmsVtabUpdate t w r e with ⟨rc, e'⟩
      cases hcn : e.txnCn with
      | some cn => exact (vmsVtabUpdate_inside h.wf h.live hok.2 hcn (h.open_of_bound hcn) hup).1
      | none =>
        have hnone : e'.txnCn = none := by
          have hsome := (vmsVtabUpdate_spec h.wf hup).2.1
          simpa [hcn] using hsome
        simp [Live, hnone]
    | txn c => exact run_live h.live hok.2

theorem Safe.inside (h : Safe e) (t : T) {r : CtxReply} (hr : r.Quiet) : ContextInside t r e := by
  intro hsome route e' hctx
  obtain ⟨cn, hcn⟩ := isSome_iff_exists.mp hsome
  exact (vtabDmlCtx_live h.live hr hcn (h.open_of_bound hcn) hctx).2 (by simp)

/-! ## Whole runs -/

/-- **No write outside the transaction.**  For every run of the calls on any number of tables, whatever
    fails in it and whatever addresses the connections get: at every point of it a context that is handed
    out while a connection is pinned belongs to that connection and has begun, exactly if every call of the
    run is careful.  And if, besides, no statement of the run fails on the server, then whatever is sent
    through such a context is sent inside a transaction. -/
theorem context_active_iff (tabs : T → VmsVtab) (calls : List (Call T W)) :
    ((∀ before after, calls = before ++ after → ∀ t r, ContextActive t r (run step (start tabs) before)) ↔
      Along step Careful (start tabs) calls) ∧
    (Along step (fun e i => Careful e i ∧ Unfailing e i) (start tabs) calls →
      ∀ t r, r.Quiet → ContextInside t r (run step (start tabs) calls)) := by
  refine ⟨?_, fun halong t r hr => ?_⟩
  · simp only [contextActive_iff]
    exact along_iff_keeps (fun (e : VmsVtabEnv T W) i (h : Bound e) => bound_step h i) calls (bound_start tabs)
  · exact (halong.keeps (fun e i h hok => h.step hok) (safe_start tabs)).inside t hr

end Tables

/-- Two transactions on connections with addresses of their own. -/
def twoTransactions : List (Call Unit Nat) :=
  [.txn (.begin_ (some 1)), .update () 7 {}, .txn (.commit .ok), .txn (.begin_ (some 2)), .update () 8 {}]

def writable : Unit → VmsVtab := fun _ => { rwMode := true }

theorem context_active_two : (∀ before after, twoTransactions = before ++ after →
      ∀ t r, ContextActive t r (run step (start writable) before)) ∧
    ContextInside () {} (run step (start writable) twoTransactions) := by
  have hquiet : UpdateReply.Quiet {} := by decide
  have hcareful : Along step (fun e i => Careful e i ∧ Unfailing e i) (start writable) twoTransactions := by
    refine ⟨⟨fun _ a _ t => ?_, trivial⟩, ⟨fun _ cn _ _ _ => rfl, hquiet⟩, ⟨trivial, trivial⟩,
      ⟨fun _ a ha t => ?_, trivial⟩, ⟨fun _ cn _ _ _ => rfl, hquiet⟩, trivial⟩
    · simp [start, writable]
    · cases ha
      cases t
      decide
  obtain ⟨hiff, hinside⟩ := context_active_iff writable twoTransactions
  exact ⟨hiff.mpr (hcareful.imp fun _ _ h => h.1), hinside hcareful () {} (by decide)⟩

/-- The second call's BEGIN does not reach the server. -/
def failedBegin : List (Call Unit Nat) :=
  [.txn (.begin_ (some 1)), .update () 7 { ctx := { begin_ := .unsent } }]

/-- The second connection gets the address of the first. -/
def reusedAddress : List (Call Unit Nat) :=
  [.txn (.begin_ (some 1)), .update () 7 {}, .txn (.commit .ok), .txn (.begin_ (some 1))]

/-- **Writes outside the transaction**: after a BEGIN that failed, and on a connection opened at an old
    address, the next context is handed out without a BEGIN, and the write through it survives the
    rollback. -/
theorem writes_outside : ¬ ContextActive () {} (run step (start writable) failedBegin) ∧
    (run step (start writable) (failedBegin ++ [.update () 7 {}, .txn (.rollback .ok)])).server.committed = [7] ∧
    ¬ ContextActive () {} (run step (start writable) reusedAddress) ∧
    (run step (start writable) (reusedAddress ++ [.update () 8 {}, .txn (.rollback .ok)])).server.committed =
      [7, 8] := by
  refine ⟨fun h => ?_, by decide, fun h => ?_, by decide⟩
  all_goals
    obtain ⟨_, _, cn', hcn', _, hactive⟩ := h { addr := 1, txnPinned := true } rfl .pin _ rfl
    cases hcn'
    cases hactive

end VirtualMssql.DmlContext
