/-
  TRANSACTIONS WITHOUT WRITES — what xSync says to a transaction that has only read.

  xBegin pins a connection, and the BEGIN is left to the first call that looks for a DML context or sets a savepoint.
  xSync asks `vms_txn_validate`, which takes a connection without a BEGIN for one that has lost its transaction.

  A read never issues the BEGIN; planning one may, since xBestIndex of a table in rw mode looks for its key.  A run goes
  through three phases: nothing pinned, pinned and idle, begun (`unpinned_step`, `idle_step`, `begun_step`), and only
  the middle one does not commit: `read_only_commits_iff`.
-/
import VirtualMssql.Cursors

namespace VirtualMssql.ReadTxn

open Txn Run Cursors List
open DmlContext (Writable run_txnCn cnAfter txnBeginLazy_cn vmsVtabUpdate_readonly)

variable {T W C : Type}

/-! ## The runs -/

/-- The server answers; whether the table has a key is another matter. -/
def Healthy (r : CtxReply) : Prop :=
  r.alloc = true ∧ r.catalog = .ok ∧ r.trancount = .ok ∧ r.begin_ = .ok

section Calls
variable [DecidableEq T]

/-- The calls of a transaction that writes nothing: xBegin, everything about cursors, planning, and a DML that is
    refused.  No savepoint is set, and the transaction is not ended. -/
def Reads (s : State T W C) : Call T W C → Prop
  | .env (.bestIndex _ r) => Healthy r
  | .env (.update t w r) => Healthy r.ctx ∧ (vmsVtabUpdate t w r s.env).1 ≠ .ok
  | .env (.txn (.begin_ opened)) => opened.isSome = true
  | .env (.txn _) => False
  | .open_ _ _ _ | .filter _ _ | .next _ _ | .column _ _ | .close _ => True

end Calls

def Begins : Call T W C → Prop
  | .env (.txn (.begin_ _)) => True
  | _ => False

variable (e : VmsVtabEnv T W)

/-- The context of the table has not been made on the pinned connection, and now it is. -/
def Joins (t : T) (r : CtxReply) : Prop :=
  Writable e t ∧ r.key = true ∧ ∃ cn, e.txnCn = some cn ∧ (e.tabs t).dmlTxn ≠ some cn.addr

/-- The call issues the BEGIN, if there was none. -/
def Starts (s : State T W C) : Call T W C → Prop
  | .env (.bestIndex t r) => Joins s.env t r
  | .env (.update t _ r) => Joins s.env t r.ctx
  | _ => False

/-! ## The end of the transaction -/

/-- xSync of every table that takes part; the server answers. -/
def syncAll : Nat → VmsVtabEnv T W → List SqliteRc × VmsVtabEnv T W
  | 0, e => ([], e)
  | n + 1, e =>
    let (rc, e) := vmsVtabSync .ok e
    let (rcs, e) := syncAll n e
    (rc :: rcs, e)

/-- xCommit of every table that takes part; the COMMIT succeeds. -/
def commitAll : Nat → VmsVtabEnv T W → List SqliteRc × VmsVtabEnv T W
  | 0, e => ([], e)
  | n + 1, e =>
    let (rc, e) := vmsVtabCommit .ok e
    let (rcs, e) := commitAll n e
    (rc :: rcs, e)

/-- With `n` tables, every xSync and every xCommit returns SQLITE_OK. -/
def Commits (n : Nat) (e : VmsVtabEnv T W) : Prop :=
  (∀ rc ∈ (syncAll n e).1, rc = .ok) ∧ ∀ rc ∈ (commitAll n (syncAll n e).2).1, rc = .ok

/-- The phases of a run. -/
def Unpinned : Prop := e.txnCn = none
def Idle : Prop := ∃ cn, e.txnCn = some cn ∧ cn.txnPinned = true ∧ cn.txnActive = false
def Begun : Prop := ∃ cn, e.txnCn = some cn ∧ cn.txnActive = true

/-- With a server that answers, xSync changes nothing. -/
theorem vmsVtabSync_env (e : VmsVtabEnv T W) : (vmsVtabSync .ok e).2 = e := by
  rcases h : vmsVtabSync .ok e with ⟨rc, e'⟩
  rcases vmsVtabSync_cases h with rfl | ⟨hfail, -⟩
  · rfl
  · exact nomatch hfail

theorem syncAll_succ (n : Nat) (e : VmsVtabEnv T W) :
    (syncAll (n + 1) e).1 = (vmsVtabSync .ok e).1 :: (syncAll n e).1 := by
  show (vmsVtabSync .ok e).1 :: (syncAll n (vmsVtabSync .ok e).2).1 = _
  rw [vmsVtabSync_env]

variable {e}

theorem vmsVtabSync_idle (h : Idle e) : (vmsVtabSync .ok e).1 = .error := by
  obtain ⟨cn, hcn, -, hidle⟩ := h
  simp [vmsVtabSync, hcn, txnValidate, hidle]

theorem vmsVtabSync_begun (h : Begun e) : (vmsVtabSync .ok e).1 = .ok := by
  obtain ⟨cn, hcn, hactive⟩ := h
  have hstate : (xactState e.server == -1) = false := by
    unfold xactState
    split_ifs <;> rfl
  simp [vmsVtabSync, hcn, txnValidate, hactive, txnDoomed, VmsVtabEnv.send, hstate]

theorem vmsVtabSync_unpinned (h : Unpinned e) : (vmsVtabSync .ok e).1 = .ok := by
  simp [vmsVtabSync, show e.txnCn = none from h]

theorem vmsVtabCommit_ok (e : VmsVtabEnv T W) : (vmsVtabCommit .ok e).1 = .ok := by
  unfold vmsVtabCommit
  cases e.txnCn with
  | none | some cn => rfl

theorem commitAll_ok (n : Nat) (e : VmsVtabEnv T W) : ∀ rc ∈ (commitAll n e).1, rc = .ok := by
  induction n generalizing e with
  | zero => exact nofun
  | succ n ih =>
    intro rc hrc
    rcases mem_cons.mp hrc with rfl | hrc
    · exact vmsVtabCommit_ok e
    · exact ih _ rc hrc

/-- All is well if the first xSync is content. -/
theorem commits_of_sync (h : (vmsVtabSync .ok e).1 = .ok) (n : Nat) : Commits n e := by
  refine ⟨?_, commitAll_ok n _⟩
  induction n with
  | zero => exact nofun
  | succ n ih =>
    intro rc hrc
    rw [syncAll_succ] at hrc
    rcases mem_cons.mp hrc with rfl | hrc
    · exact h
    · exact ih rc hrc

theorem not_commits_of_idle (h : Idle e) {n : Nat} (hn : 0 < n) : ¬ Commits n e := by
  intro hall
  cases n with
  | zero => omega
  | succ n =>
    have hfirst := hall.1 (vmsVtabSync .ok e).1 (by rw [syncAll_succ]; exact mem_cons_self)
    rw [vmsVtabSync_idle h] at hfirst
    exact nomatch hfirst

/-! ## What a call does to the phase -/

/-- Only the connection counts. -/
theorem Idle.congr {e' : VmsVtabEnv T W} (h : Idle e) (hcn : e'.txnCn = e.txnCn) : Idle e' := by
  rw [Idle, hcn]
  exact h

theorem Begun.congr {e' : VmsVtabEnv T W} (h : Begun e) (hcn : e'.txnCn = e.txnCn) : Begun e' := by
  rw [Begun, hcn]
  exact h

/-- The lazy BEGIN of a healthy server. -/
theorem txnBeginLazy_healthy {r : CtxReply} (hr : Healthy r) (h : Idle e) : (txnBeginLazy r e).1 = true := by
  obtain ⟨cn, hcn, hpinned, hidle⟩ := h
  obtain ⟨-, -, hcount, hbegin⟩ := hr
  simp only [txnBeginLazy, hcn, hidle, hpinned, hcount, hbegin, VmsVtabEnv.send, Bool.not_true, Bool.false_eq_true,
    if_false]
  split_ifs <;> rfl

/-- Whoever is pinned stays pinned by the next xBegin. -/
theorem txnPinShared_again {cn : VmsConnection} (hcn : e.txnCn = some cn) (opened : Option Nat) :
    (txnPinShared opened e).2.txnCn = e.txnCn := by
  simp [txnPinShared, hcn]

section Steps
variable [DecidableEq T] {t : T} {r : CtxReply}

/-- **Looking for a context in an idle transaction** begins it exactly if the context is made now. -/
theorem vtabDmlCtx_idle (hr : Healthy r) (h : Idle e) (ht : Writable e t) :
    (Joins e t r → Begun (vtabDmlCtx t r e).2) ∧ (¬ Joins e t r → Idle (vtabDmlCtx t r e).2) := by
  obtain ⟨cn, hcn, hpinned, hidle⟩ := h
  have hmakes : Joins e t r → (e.tabs t).dmlTxn ≠ some cn.addr ∧ r.Makes := by
    rintro ⟨-, hkey, cn', hcn', hnew⟩
    obtain rfl := Option.some.inj (hcn.symm.trans hcn')
    exact ⟨hnew, hr.1, hr.2.1, hkey⟩
  constructor
  · intro hjoin
    obtain ⟨hnew, hm⟩ := hmakes hjoin
    rw [vtabDmlCtx_makes hcn hnew hm]
    have hlazy := txnBeginLazy_healthy (e := e.setDmlTxn t (some cn.addr)) hr ⟨cn, hcn, hpinned, hidle⟩
    obtain ⟨cn', hcn', -, hactive⟩ :=
      txnBeginLazy_cn (e := e.setDmlTxn t (some cn.addr)) hcn (Prod.mk.eta (p := txnBeginLazy r _)).symm
    exact ⟨cn', hcn', hactive.trans hlazy⟩
  · intro hjoin
    rcases hctx : vtabDmlCtx t r e with ⟨route, e'⟩
    rcases vtabDmlCtx_pinned hcn hctx with ⟨_, _, rfl⟩ | ⟨_, rfl | ⟨hfail, -⟩⟩ | ⟨⟨hnew, hm⟩, -⟩
    · exact ⟨cn, hcn, hpinned, hidle⟩
    · exact ⟨cn, hcn, hpinned, hidle⟩
    · exact nomatch hr.2.1.symm.trans hfail
    · exact absurd ⟨ht, hm.2.2, cn, hcn, hnew⟩ hjoin

/-- One that has begun stays begun. -/
theorem vtabDmlCtx_begun (h : Begun e) : Begun (vtabDmlCtx t r e).2 := by
  obtain ⟨cn, hcn, hactive⟩ := h
  rcases hctx : vtabDmlCtx t r e with ⟨route, e'⟩
  rcases vtabDmlCtx_pinned hcn hctx with ⟨_, _, rfl⟩ | ⟨_, rfl | ⟨-, rfl⟩⟩ | ⟨-, b, hlazy, -⟩
  · exact ⟨cn, hcn, hactive⟩
  · exact ⟨cn, hcn, hactive⟩
  · exact ⟨cn, hcn, hactive⟩
  · obtain ⟨cn', hcn', -, hb⟩ := txnBeginLazy_cn (e := e.setDmlTxn t (some cn.addr)) hcn hlazy
    rcases txnBeginLazy_cases (e := e.setDmlTxn t (some cn.addr)) hcn hlazy with
      ⟨rfl, -, -⟩ | ⟨rfl, -, -⟩ | ⟨-, hno, -⟩
    · exact ⟨cn', hcn', hb⟩
    · exact ⟨cn', hcn', hb⟩
    · exact absurd (hactive.symm.trans hno) (by decide)

theorem vtabDmlCtx_unpinned_cn (h : Unpinned e) : Unpinned (vtabDmlCtx t r e).2 := by
  rcases hctx : vtabDmlCtx t r e with ⟨route, e'⟩
  rcases (vtabDmlCtx_unpinned h hctx).1 with rfl | rfl
  · exact h
  · exact h

/-- The connection behind a planned read, and behind an xUpdate, is the one behind the look for a context. -/
theorem bestIndex_cn (t : T) (r : CtxReply) (e : VmsVtabEnv T W) :
    (DmlContext.step e (.bestIndex t r)).txnCn = if Writable e t then (vtabDmlCtx t r e).2.txnCn else e.txnCn := by
  rw [DmlContext.step, vmsVtabBestIndex]
  by_cases ht : Writable e t
  · simp [ht, ht.1, ht.2]
  · have hout : ((e.tabs t).isQuerySource || !(e.tabs t).rwMode) = true := by
      unfold Writable at ht
      cases hrw : (e.tabs t).rwMode <;> cases hq : (e.tabs t).isQuerySource <;> simp_all
    simp [ht, hout]

theorem update_cn (t : T) (w : W) (r : UpdateReply) (e : VmsVtabEnv T W) : (DmlContext.step e (.update t w r)).txnCn =
      if Writable e t then (vtabDmlCtx t r.ctx e).2.txnCn else e.txnCn := by
  rw [DmlContext.step]
  by_cases ht : Writable e t
  · obtain ⟨s, hs⟩ := vmsVtabUpdate_server t w r ht.1 ht.2
    rw [hs, if_pos ht]
  · rw [vmsVtabUpdate_readonly ht, if_neg ht]

variable [DecidableEq C] {s : State T W C} {i : Call T W C}

/-- The calls on a cursor leave the environment alone. -/
theorem step_env (s : State T W C) (hi : ∀ j, i ≠ .env j) : (step s i).env = s.env := by
  rw [step]
  cases i with
  | open_ c t alloc =>
    rw [call]
    split_ifs <;> rfl
  | filter c r | next c r | close c =>
    rw [call]
    cases s.cursors c <;> rfl
  | column c col => rfl
  | env j => exact absurd rfl (hi j)

/-- **What a call of the run can do to the pinned connection**: look for a context, pin, or nothing. -/
theorem reads_cases (hi : Reads s i) : (∃ t r, Healthy r ∧ ¬ Begins i ∧ (Starts s i ↔ Joins s.env t r) ∧
      (step s i).env.txnCn = if Writable s.env t then (vtabDmlCtx t r s.env).2.txnCn else s.env.txnCn) ∨
    (∃ a, Begins i ∧ ¬ Starts s i ∧ (step s i).env.txnCn = (txnPinShared (some a) s.env).2.txnCn) ∨
    (¬ Begins i ∧ ¬ Starts s i ∧ (step s i).env.txnCn = s.env.txnCn) := by
  have hcursor : (∀ j, i ≠ .env j) → (step s i).env.txnCn = s.env.txnCn := fun h => by rw [step_env s h]
  cases i with
  | env j =>
    cases j with
    | bestIndex t r => exact .inl ⟨t, r, hi, id, Iff.rfl, bestIndex_cn t r s.env⟩
    | update t w r => exact .inl ⟨t, r.ctx, hi.1, id, Iff.rfl, update_cn t w r s.env⟩
    | txn c =>
      cases c with
      | begin_ opened =>
        obtain ⟨a, rfl⟩ := Option.isSome_iff_exists.mp hi
        exact .inr (.inl ⟨a, trivial, id, run_txnCn s.env (.begin_ (some a))⟩)
      | _ => exact hi.elim
  | _ =>
    refine .inr (.inr ⟨fun hb => hb, fun hs => hs, ?_⟩)
    exact hcursor fun j hj => nomatch hj

/-- **Nothing pinned**: only xBegin changes that, and it begins nothing. -/
theorem unpinned_step (h : Unpinned s.env) (hi : Reads s i) :
    ¬ Starts s i ∧ (Begins i → Idle (step s i).env) ∧ (¬ Begins i → Unpinned (step s i).env) := by
  rcases reads_cases hi with ⟨t, r, -, hb, hstart, hcn⟩ | ⟨a, hb, hstart, hcn⟩ | ⟨hb, hstart, hcn⟩
  · refine ⟨fun hs => ?_, fun hyes => absurd hyes hb, fun _ => ?_⟩
    · obtain ⟨-, -, cn, hpinned, -⟩ := hstart.mp hs
      exact nomatch h.symm.trans hpinned
    · rw [Unpinned, hcn]
      split_ifs
      · exact vtabDmlCtx_unpinned_cn h
      · exact h
  · refine ⟨hstart, fun _ => ⟨{ addr := a, txnPinned := true }, ?_, rfl, rfl⟩, fun hno => absurd hb hno⟩
    simp [hcn, txnPinShared, show s.env.txnCn = none from h]
  · exact ⟨hstart, fun hyes => absurd hyes hb, fun _ => hcn.trans h⟩

/-- **Pinned and idle**: it is begun exactly by a call that makes a context. -/
theorem idle_step (h : Idle s.env) (hi : Reads s i) :
    (Starts s i → Begun (step s i).env) ∧ (¬ Starts s i → Idle (step s i).env) := by
  rcases reads_cases hi with ⟨t, r, hr, -, hstart, hcn⟩ | ⟨a, -, hstart, hcn⟩ | ⟨-, hstart, hcn⟩
  · rw [hstart]
    by_cases ht : Writable s.env t
    · rw [if_pos ht] at hcn
      have hboth := vtabDmlCtx_idle hr h ht
      exact ⟨fun hj => (hboth.1 hj).congr hcn, fun hj => (hboth.2 hj).congr hcn⟩
    · rw [if_neg ht] at hcn
      exact ⟨fun hj => absurd hj.1 ht, fun _ => h.congr hcn⟩
  · obtain ⟨cn, hpinned, -⟩ := id h
    rw [txnPinShared_again hpinned] at hcn
    exact ⟨fun hyes => absurd hyes hstart, fun _ => h.congr hcn⟩
  · exact ⟨fun hyes => absurd hyes hstart, fun _ => h.congr hcn⟩

/-- **Begun** for good. -/
theorem begun_step (h : Begun s.env) (hi : Reads s i) : Begun (step s i).env := by
  rcases reads_cases hi with ⟨t, r, -, -, -, hcn⟩ | ⟨a, -, -, hcn⟩ | ⟨-, -, hcn⟩
  · split_ifs at hcn
    · exact (vtabDmlCtx_begun h).congr hcn
    · exact h.congr hcn
  · obtain ⟨cn, hpinned, -⟩ := id h
    rw [txnPinShared_again hpinned] at hcn
    exact h.congr hcn
  · exact h.congr hcn

/-! ## Whole runs -/

/-- No call of the run issues a BEGIN. -/
def Unstarted (s : State T W C) (calls : List (Call T W C)) : Prop := Along step (fun s i => ¬ Starts s i) s calls

/-- **From the idle phase.**  Induction on the run. -/
theorem idle_run : ∀ {calls : List (Call T W C)} {s : State T W C}, Idle s.env → Along step Reads s calls →
    (Unstarted s calls → Idle (run step s calls).env) ∧ (¬ Unstarted s calls → Begun (run step s calls).env)
  | [], _, h, _ => ⟨fun _ => h, fun hno => absurd trivial hno⟩
  | i :: calls, s, h, hreads => by
    obtain ⟨hi, hrest⟩ := hreads
    rw [run_cons]
    by_cases hstart : Starts s i
    · refine ⟨fun hun => absurd hstart hun.1, fun _ => ?_⟩
      have hbegun := (idle_step h hi).1 hstart
      exact @Along.keeps _ _ step Reads (fun s => Begun s.env) (fun _ _ => begun_step) calls _ hbegun hrest
    · obtain ⟨hidle, hbegun⟩ := idle_run ((idle_step h hi).2 hstart) hrest
      exact ⟨fun hun => hidle hun.2, fun hun => hbegun fun hlater => hun ⟨hstart, hlater⟩⟩

/-- **From the start.** -/
theorem unpinned_run : ∀ {calls : List (Call T W C)} {s : State T W C}, Unpinned s.env → Along step Reads s calls →
    ((∀ i ∈ calls, ¬ Begins i) → Unpinned (run step s calls).env) ∧
      ((∃ i ∈ calls, Begins i) → (Unstarted s calls → Idle (run step s calls).env) ∧
        (¬ Unstarted s calls → Begun (run step s calls).env))
  | [], _, h, _ => ⟨fun _ => h, fun ⟨_, hmem, _⟩ => nomatch hmem⟩
  | i :: calls, s, h, hreads => by
    obtain ⟨hi, hrest⟩ := hreads
    have hfirst : Unstarted s (i :: calls) ↔ Unstarted (step s i) calls := and_iff_right (unpinned_step h hi).1
    rw [run_cons, hfirst]
    by_cases hbegin : Begins i
    · have hidle := (unpinned_step h hi).2.1 hbegin
      exact ⟨fun hno => absurd hbegin (hno i mem_cons_self), fun _ => idle_run hidle hrest⟩
    · obtain ⟨hnone, hsome⟩ := unpinned_run ((unpinned_step h hi).2.2 hbegin) hrest
      refine ⟨fun hno => hnone (forall_mem_cons.mp hno).2, fun ⟨j, hj, hjb⟩ => hsome ⟨j, ?_, hjb⟩⟩
      rcases mem_cons.mp hj with rfl | hj
      · exact absurd hjb hbegin
      · exact hj

/-- **Which transactions without writes commit**: those with no xBegin in them, and those in which some call has made
    a DML context on the pinned connection and so issued the BEGIN. -/
theorem read_only_commits_iff (hs : Unpinned s.env) {calls : List (Call T W C)}
    (hreads : Along step Reads s calls) {n : Nat} (hn : 0 < n) :
    Commits n (run step s calls).env ↔ (∃ i ∈ calls, Begins i) → ¬ Unstarted s calls := by
  obtain ⟨hnone, hsome⟩ := unpinned_run hs hreads
  constructor
  · intro hcommits hbegin hun
    exact not_commits_of_idle ((hsome hbegin).1 hun) hn hcommits
  · intro h
    by_cases hbegin : ∃ i ∈ calls, Begins i
    · exact commits_of_sync (vmsVtabSync_begun ((hsome hbegin).2 (h hbegin))) n
    · refine commits_of_sync (vmsVtabSync_unpinned (hnone fun i hi hb => hbegin ⟨i, hi, hb⟩)) n

end Steps

/-- `DELETE FROM t WHERE id = -1` on a table in rw mode: the statement is planned before its xBegin, and the scan
    finds no row. -/
def emptyDelete : List (Call Unit Nat Unit) :=
  [.env (.bestIndex () {}), .env (.txn (.begin_ (some 1))), .open_ () () true, .filter () { fetch := .done }, .close ()]

/-- Inside the transaction a SELECT is planned and read. -/
def plannedInside : List (Call Unit Nat Unit) :=
  emptyDelete ++ [.env (.bestIndex () {}), .open_ () () true, .filter () {}, .next () .done, .close ()]

theorem read_only_commits_planned :
    Along step Reads (Cursors.start tables fun _ => false) plannedInside ∧
      Commits 1 (run step (Cursors.start tables fun _ => false) plannedInside).env := by
  have hreads : Along step Reads (Cursors.start tables fun _ => false) plannedInside := by
    exact ⟨⟨rfl, rfl, rfl, rfl⟩, rfl, trivial, trivial, trivial, ⟨rfl, rfl, rfl, rfl⟩, trivial, trivial,
      trivial, trivial, trivial⟩
  have hstart : Unpinned (Cursors.start tables fun _ => false : State Unit Nat Unit).env := rfl
  refine ⟨hreads, (read_only_commits_iff hstart hreads Nat.one_pos).mpr fun _ hun => ?_⟩
  -- the second plan makes the context on the pinned connection
  obtain ⟨-, -, -, -, -, hplan, -⟩ := hun
  exact hplan ⟨⟨rfl, rfl⟩, rfl, _, rfl, by decide⟩

/-- **A DELETE that finds no row does not commit.** -/
theorem read_only_lost :
    let s : State Unit Nat Unit := Cursors.start tables fun _ => false
    Along step Reads s emptyDelete ∧ (vmsVtabSync .ok (run step s emptyDelete).env).1 = .error ∧
      ¬ Commits 1 (run step s emptyDelete).env := by
  intro s
  have hidle : Idle (run step s emptyDelete).env := ⟨_, rfl, rfl, rfl⟩
  refine ⟨⟨⟨rfl, rfl, rfl, rfl⟩, rfl, trivial, trivial, trivial, trivial⟩, vmsVtabSync_idle hidle, ?_⟩
  exact not_commits_of_idle hidle Nat.one_pos

end VirtualMssql.ReadTxn
