/-
  TWO CONNECTIONS, ONE ENVIRONMENT — the calls of several SQLite connections on the process-wide
  `VmsVtabEnv`.

  Every connection has its own tables and makes its own calls, in any interleaving: xBegin for a table
  that joins, xUpdate and xSync for joined tables, and at the end xCommit, or xRollback, once for each
  joined table.  The environment does not know whose call it is: there is one pinned connection, and with
  it one remote transaction.  A write carries the connection that made it and the number of that
  connection's transaction, so that one can say afterwards whose writes were committed or lost.

  The calls keep the connections apart as long as no connection begins while another has joined tables, no
  statement fails on the server, and no write context survives its transaction (`isolated`).  The first
  two calls that break this mix the transactions (`commits_foreign_write`).
-/
import VirtualMssql.Txn

namespace VirtualMssql.SharedEnv

open Savepoint Txn Run List Option

/-! ## The calls -/

/-- A write, the connection that made it, and in which of its transactions. -/
structure Write (C W : Type) where
  conn : C
  serial : Nat
  write : W
  deriving DecidableEq

/-- A connection of SQLite: the tables that joined its transaction; is it ending, and how? -/
structure Session (T : Type) where
  joined : List T := []
  ending : Option Bool := none
  serial : Nat := 0
  deriving DecidableEq

structure Shared (C T W : Type) where
  env : VmsVtabEnv (C × T) (Write C W)
  session : C → Session T := fun _ => {}

inductive Call (T W : Type)
  | begin_ (t : T) (a : Option Nat)
  | update (t : T) (w : W) (r : UpdateReply)
  | sync (t : T) (r : Reply)
  | finish (rollbackOp : Bool) (t : T) (r : EndReply)

variable {C T W : Type} [DecidableEq C] [DecidableEq T]

/-- Nothing is written yet. -/
def start (tabs : C × T → VmsVtab) : Shared C T W where
  env := { tabs }

variable (s : Shared C T W)

def Shared.setSession (c : C) (x : Session T) : Shared C T W :=
  { s with session := Function.update s.session c x }

/-- The session after one of its tables has been ended. -/
def Session.finished (x : Session T) (rollbackOp : Bool) (t : T) : Session T :=
  if x.joined.erase t = [] then { serial := x.serial + 1 }
  else { x with joined := x.joined.erase t, ending := some rollbackOp }

/-- A call of connection `c`, if SQLite makes it: a table begins once, is written while the transaction is
    neither ended nor being ended, and all joined tables are ended the same way. -/
def call : C × Call T W → Option (SqliteRc × Shared C T W)
  | (c, .begin_ t a) =>
    if (s.session c).ending = none ∧ t ∉ (s.session c).joined then
      match vmsVtabBegin a s.env with
      | (.ok, e) =>
        let x := s.session c
        some (.ok, { s with env := e }.setSession c { x with joined := t :: x.joined })
      | (rc, e) => some (rc, { s with env := e })
    else none
  | (c, .update t w r) =>
    if (s.session c).ending = none ∧ t ∈ (s.session c).joined then
      let (rc, e) := vmsVtabUpdate (c, t) ⟨c, (s.session c).serial, w⟩ r s.env
      some (rc, { s with env := e })
    else none
  | (c, .sync t r) =>
    if (s.session c).ending = none ∧ t ∈ (s.session c).joined then
      let (rc, e) := vmsVtabSync r s.env
      some (rc, { s with env := e })
    else none
  | (c, .finish rollbackOp t r) =>
    if (s.session c).ending ≠ some (!rollbackOp) ∧ t ∈ (s.session c).joined then
      let (rc, e) := if rollbackOp then vmsVtabRollback r s.env else vmsVtabCommit r s.env
      some (rc, { s with env := e }.setSession c ((s.session c).finished rollbackOp t))
    else none

def step (i : C × Call T W) : Shared C T W := ((call s i).map Prod.snd).getD s

/-- **Transactions do not mix.**  A commit commits nothing but the connection's own writes; a rollback
    undoes none of the others' writes; and after a rollback that is OK none of the transaction's writes is
    committed. -/
def Isolated (i : C × Call T W) : Prop :=
  ∀ rc s', call s i = some (rc, s') →
    match i with
    | (c, .finish false _ _) =>
      ∀ w ∈ s'.env.server.committed, w ∈ s.env.server.committed ∨ w.conn = c
    | (c, .finish true _ _) =>
      (∀ w ∈ s.env.server.data, w.conn ≠ c → w ∈ s'.env.server.data) ∧
        (rc = .ok → ∀ w ∈ s'.env.server.committed, ¬ (w.conn = c ∧ w.serial = (s.session c).serial))
    | _ => True

/-- A connection begins only while no other has joined tables; no statement fails on the server; and the
    context of a table is bound to the pinned connection only while that has a transaction. -/
def Apart : C × Call T W → Prop
  | (c, .begin_ _ _) => ∀ c', c' ≠ c → (s.session c').joined = []
  | (c, .update t _ r) =>
    r.Quiet ∧ ∀ cn, s.env.txnCn = some cn → (s.env.tabs (c, t)).dmlTxn = some cn.addr →
      s.env.server.tran.isSome = true
  | (_, .sync _ r) => r ≠ .failed
  | _ => True

/-! ## Inside a transaction -/

section Inside

variable {X Y : Type} {e e' : VmsVtabEnv X Y}

/-- A connection that has issued the BEGIN has a transaction. -/
def Live (e : VmsVtabEnv X Y) : Prop :=
  ∀ cn, e.txnCn = some cn → cn.txnActive = true → e.server.tran.isSome = true

variable {cn : VmsConnection}

theorem txnBeginLazy_live {r : CtxReply} {b : Bool} (hlive : Live e) (hquiet : r.Quiet)
    (hcn : e.txnCn = some cn) (h : txnBeginLazy r e = (b, e')) :
    Live e' ∧ (b = true → e'.server.tran.isSome = true) := by
  rcases txnBeginLazy_cases hcn h with ⟨_, hactive, rfl⟩ | ⟨_, _, rfl⟩ | ⟨rfl, _, ⟨rfl, _⟩ | ⟨hloud, _⟩⟩
  · exact ⟨hlive, fun _ => hlive cn hcn hactive⟩
  · have htran : (if e.server.tran.isSome then e.server else e.server.start).tran.isSome = true := by
      split_ifs with ht
      · exact ht
      · rfl
    exact ⟨fun _ _ _ => htran, fun _ => htran⟩
  · exact ⟨hlive, by simp⟩
  · exact absurd hquiet hloud

variable [DecidableEq X]

theorem vtabDmlCtx_live {t : X} {r : CtxReply} {route : Option Route} (hlive : Live e)
    (hquiet : r.Quiet) (hcn : e.txnCn = some cn)
    (hbound : (e.tabs t).dmlTxn = some cn.addr → e.server.tran.isSome = true) (h : vtabDmlCtx t r e = (route, e')) :
    Live e' ∧ (route ≠ none → e'.server.tran.isSome = true) := by
  rcases vtabDmlCtx_pinned hcn h with ⟨hb, rfl, rfl⟩ | ⟨rfl, rfl | ⟨hfail, _⟩⟩ | ⟨_, b, hlazy, rfl⟩
  · exact ⟨hlive, fun _ => hbound hb⟩
  · exact ⟨hlive, by simp⟩
  · exact absurd hfail hquiet.1
  · obtain ⟨hlive', htran⟩ := txnBeginLazy_live (e := e.setDmlTxn t (some cn.addr)) hlive hquiet hcn hlazy
    refine ⟨hlive', fun hroute => htran ?_⟩
    cases b with
    | true => rfl
    | false => exact absurd rfl hroute

/-- **A write inside the transaction** is not committed by itself. -/
theorem vmsVtabUpdate_inside {t : X} {w : Y} {r : UpdateReply} {rc : SqliteRc} (hwf : e.Wf)
    (hlive : Live e) (hquiet : r.Quiet) (hcn : e.txnCn = some cn)
    (hbound : (e.tabs t).dmlTxn = some cn.addr → e.server.tran.isSome = true) (h : vmsVtabUpdate t w r e = (rc, e')) :
    Live e' ∧ e'.server.committed = e.server.committed ∧
      (e'.server.data = e.server.data ∨ e'.server.data = e.server.data ++ [w]) := by
  rcases vmsVtabUpdate_cases h with ⟨_, rfl⟩ | ⟨route, e₁, hctx, hcase⟩
  · exact ⟨hlive, rfl, .inl rfl⟩
  obtain ⟨hlive₁, htran⟩ := vtabDmlCtx_live hlive hquiet.1 hcn hbound hctx
  obtain ⟨_, hsettles, _, hroute⟩ := vtabDmlCtx_settles hwf hctx
  have hsame := hsettles.resolve_right fun hloud => hloud.1 hquiet.1
  rcases hcase with ⟨_, rfl⟩ | ⟨rfl, _, rfl⟩ | ⟨_, _, hfail, _⟩ | ⟨rfl, _, _⟩
  · exact ⟨hlive₁, hsame.committed, .inl hsame.data⟩
  · have hopen := htran (by simp)
    refine ⟨fun _ _ _ => ?_, ?_, .inr ?_⟩
    · simpa using hopen
    · rw [← hsame.committed]
      obtain ⟨tr, htr⟩ := isSome_iff_exists.mp hopen
      simp [Server.exec, htr]
    · rw [Server.data_exec, hsame.data]
  · exact absurd hfail hquiet.2
  · have hown := (hroute .own rfl).2
    rw [hcn] at hown
    exact absurd (hown.mpr rfl) (by simp)

end Inside

/-! ## The connections stay apart -/

/-- At most one connection has joined tables.  Until it is ending, a connection is pinned for it; while it
    is ending, none is.  What the server has not committed is all from its open transaction, and of what the
    server has committed nothing is, unless that is being committed. -/
structure Inv : Prop where
  wf : s.env.Wf
  live : Live s.env
  alone : ∀ c c', (s.session c).joined ≠ [] → (s.session c').joined ≠ [] → c = c'
  pinned : s.env.txnCn.isSome = true ↔ ∃ c, (s.session c).joined ≠ [] ∧ (s.session c).ending = none
  idle : ∀ c, (s.session c).joined = [] → (s.session c).ending = none
  own : ∃ new, s.env.server.data = s.env.server.committed ++ new ∧
    ∀ w ∈ new, (s.session w.conn).joined ≠ [] ∧ w.serial = (s.session w.conn).serial
  old : ∀ w ∈ s.env.server.committed, w.serial < (s.session w.conn).serial ∨
    (w.serial = (s.session w.conn).serial ∧ (s.session w.conn).ending = some false)

omit [DecidableEq C] [DecidableEq T] in
theorem inv_start (tabs : C × T → VmsVtab) : Inv (start tabs : Shared C T W) where
  wf := ⟨fun _ => rfl, by simp [start]⟩
  live := by simp [Live, start]
  alone := by simp [start]
  pinned := by simp [start]
  idle := by simp [start]
  own := ⟨[], rfl, by simp⟩
  old := by simp [start]

omit [DecidableEq T] in
theorem setSession_spec (c : C) (x : Session T) :
    (s.setSession c x).session c = x ∧ ∀ d, d ≠ c → (s.setSession c x).session d = s.session d :=
  ⟨by simp [Shared.setSession], fun d hne => by simp [Shared.setSession, hne]⟩

variable {c : C}

omit [DecidableEq C] in
/-- The transaction is over, or it is being ended. -/
theorem finished_cases (x : Session T) (rollbackOp : Bool) (t : T) :
    ((x.finished rollbackOp t).joined = [] ∧ (x.finished rollbackOp t).ending = none ∧
      (x.finished rollbackOp t).serial = x.serial + 1) ∨
    ((x.finished rollbackOp t).joined ≠ [] ∧ (x.finished rollbackOp t).ending = some rollbackOp ∧
      (x.finished rollbackOp t).serial = x.serial) := by
  unfold Session.finished
  split_ifs with herase
  · exact .inl ⟨rfl, rfl, rfl⟩
  · exact .inr ⟨herase, rfl, rfl⟩

variable {s}

omit [DecidableEq C] [DecidableEq T] in
/-- While a connection has joined tables, no other has. -/
theorem Inv.others (h : Inv s) {c' : C} (hc : (s.session c).joined ≠ []) (hne : c' ≠ c) :
    (s.session c').joined = [] := by
  by_contra hc'
  exact hne (h.alone c' c hc' hc)

omit [DecidableEq C] [DecidableEq T] in
/-- What is not committed belongs to the connection that has joined tables. -/
theorem Inv.uncommitted (h : Inv s) (hc : (s.session c).joined ≠ []) {w : Write C W} (hw : w ∈ s.env.server.data) :
    w ∈ s.env.server.committed ∨ (w.conn = c ∧ w.serial = (s.session c).serial) := by
  obtain ⟨new, hdata, hnew⟩ := h.own
  rw [hdata] at hw
  refine (mem_append.mp hw).imp_right fun hw => ?_
  obtain ⟨hjoined, hserial⟩ := hnew w hw
  have hconn := h.alone w.conn c hjoined hc
  exact ⟨hconn, hconn ▸ hserial⟩

variable {e : VmsVtabEnv (C × T) (Write C W)}

omit [DecidableEq C] [DecidableEq T] in
/-- What is committed, while no connection but `c` has joined tables: of the others it is all old. -/
theorem Inv.old_of (h : Inv s) (hothers : ∀ c', c' ≠ c → (s.session c').joined = []) {w : Write C W}
    (hw : w ∈ s.env.server.committed) : (w.conn ≠ c ∧ w.serial < (s.session w.conn).serial) ∨
      (w.conn = c ∧ (w.serial < (s.session c).serial ∨
        (w.serial = (s.session c).serial ∧ (s.session c).ending = some false))) := by
  by_cases hc : w.conn = c
  · exact .inr ⟨hc, hc ▸ h.old w hw⟩
  · refine .inl ⟨hc, (h.old w hw).resolve_right fun hend => ?_⟩
    rw [h.idle w.conn (hothers w.conn hc)] at hend
    simp at hend

omit [DecidableEq T] in
/-- **A call that changes the session of `c`**, while no other connection has joined tables. -/
theorem Inv.set {x : Session T} (h : Inv s) (hothers : ∀ c', c' ≠ c → (s.session c').joined = []) (hwf : e.Wf)
    (hlive : Live e) (hpinned : e.txnCn.isSome = true ↔ x.joined ≠ [] ∧ x.ending = none)
    (hidle : x.joined = [] → x.ending = none) (hown : ∃ new, e.server.data = e.server.committed ++ new ∧
      ∀ w ∈ new, w.conn = c ∧ x.joined ≠ [] ∧ w.serial = x.serial)
    (hold : ∀ w ∈ e.server.committed, (w.conn ≠ c ∧ w.serial < (s.session w.conn).serial) ∨
      (w.conn = c ∧ (w.serial < x.serial ∨ (w.serial = x.serial ∧ x.ending = some false)))) :
    Inv ({ s with env := e }.setSession c x) := by
  obtain ⟨hself, hsame⟩ := setSession_spec { s with env := e } c x
  have honly : ∀ c', (({ s with env := e }.setSession c x).session c').joined ≠ [] → c' = c := by
    intro c' hc'
    by_contra hne
    rw [hsame c' hne] at hc'
    exact hc' (hothers c' hne)
  refine ⟨hwf, hlive, fun c₁ c₂ h₁ h₂ => (honly c₁ h₁).trans (honly c₂ h₂).symm, hpinned.trans ⟨?_, ?_⟩,
    fun c' hc' => ?_,
    ?_, fun w hw => ?_⟩
  · exact fun hx => ⟨c, by rwa [hself]⟩
  · rintro ⟨c', hc', hend⟩
    obtain rfl := honly c' hc'
    rw [hself] at hc' hend
    exact ⟨hc', hend⟩
  · by_cases hc : c' = c
    · rw [hc, hself] at hc' ⊢
      exact hidle hc'
    · rw [hsame c' hc] at hc' ⊢
      exact h.idle c' hc'
  · obtain ⟨new, hdata, hnew⟩ := hown
    refine ⟨new, hdata, fun w hw => ?_⟩
    obtain ⟨hconn, hx⟩ := hnew w hw
    rwa [hconn, hself]
  · rcases hold w hw with ⟨hne, hlt⟩ | ⟨hconn, hx⟩
    · rw [hsame w.conn hne]
      exact .inl hlt
    · rwa [hconn, hself]

/-- **xCommit and xRollback** end one table of the only connection that has joined tables. -/
theorem Inv.finish {s : Shared C T W} (h : Inv s) {c : C} {rollbackOp : Bool} {t : T}
    (hending : (s.session c).ending ≠ some (!rollbackOp)) (ht : t ∈ (s.session c).joined)
    (hcn : e.txnCn = none) (htran : e.server.tran = none) (hcommitted : e.server.committed = s.env.server.committed ∨
      (rollbackOp = false ∧ e.server.committed = s.env.server.data)) :
    Inv ({ s with env := e }.setSession c ((s.session c).finished rollbackOp t)) := by
  have hjoined : (s.session c).joined ≠ [] := ne_nil_of_mem ht
  have hothers : ∀ c', c' ≠ c → (s.session c').joined = [] := fun _ hne => h.others hjoined hne
  have hcases := finished_cases (s.session c) rollbackOp t
  -- a committed write of the connection is old, or of this transaction, which then is being committed
  have hmine : ∀ w ∈ e.server.committed, (w.conn ≠ c ∧ w.serial < (s.session w.conn).serial) ∨
      (w.conn = c ∧ (w.serial < (s.session c).serial ∨ (w.serial = (s.session c).serial ∧ rollbackOp = false))) := by
    intro w hw
    have hsource : w ∈ s.env.server.committed ∨ w.conn = c ∧ w.serial = (s.session c).serial ∧ rollbackOp = false := by
      rcases hcommitted with heq | ⟨hop, heq⟩
      · exact .inl (heq ▸ hw)
      · exact (h.uncommitted hjoined (heq ▸ hw)).imp_right fun hown => ⟨hown.1, hown.2, hop⟩
    rcases hsource with hw | ⟨hconn, hthis⟩
    · refine (h.old_of hothers hw).imp_right (And.imp_right (Or.imp_right fun hend => ⟨hend.1, ?_⟩))
      cases rollbackOp with
      | false => rfl
      | true => exact absurd hend.2 hending
    · exact .inr ⟨hconn, .inr hthis⟩
  refine h.set hothers ⟨fun _ => htran, by simp [hcn]⟩ (by simp [Live, hcn]) ?_ ?_
    ⟨[], by simp [Server.data, htran], by simp⟩ fun w hw => (hmine w hw).imp_right <| And.imp_right fun hw => ?_
  · rw [hcn]
    rcases hcases with ⟨hnil, _⟩ | ⟨_, hend, _⟩
    · simp [hnil]
    · simp [hend]
  · rcases hcases with ⟨_, hnone, _⟩ | ⟨hne, _⟩
    · exact fun _ => hnone
    · exact fun hnil => absurd hnil hne
  · rcases hcases with ⟨_, _, hserial⟩ | ⟨_, hend, hserial⟩
    · exact .inl (by omega)
    · rw [hserial, hend]
      exact hw.imp_right fun hthis => ⟨hthis.1, by rw [hthis.2]⟩

omit [DecidableEq C] [DecidableEq T] in
/-- **A call that changes the environment only**, and adds to the data only writes of the transaction. -/
theorem Inv.of_env (h : Inv s) (hwf : e.Wf) (hlive : Live e) (hpinned : e.txnCn.isSome = s.env.txnCn.isSome)
    (hcommitted : e.server.committed = s.env.server.committed) (hc : (s.session c).joined ≠ [])
    {new : List (Write C W)} (hdata : e.server.data = s.env.server.data ++ new)
    (hnew : ∀ w ∈ new, w.conn = c ∧ w.serial = (s.session c).serial) : Inv { s with env := e } := by
  obtain ⟨before, hbefore, hown⟩ := h.own
  refine ⟨hwf, hlive, h.alone, by simpa only [hpinned] using h.pinned, h.idle, ⟨before ++ new, ?_, ?_⟩, ?_⟩
  · simp [hdata, hbefore, hcommitted]
  · intro w hw
    rcases mem_append.mp hw with hw | hw
    · exact hown w hw
    · obtain ⟨hconn, hserial⟩ := hnew w hw
      exact ⟨hconn ▸ hc, hconn ▸ hserial⟩
  · simpa only [hcommitted] using h.old

/-- The end of a table: who may call it, and what it does to the environment. -/
theorem call_finish {s' : Shared C T W} {rollbackOp : Bool} {t : T} {r : EndReply} {rc : SqliteRc}
    (hwf : s.env.Wf) (h : call s (c, .finish rollbackOp t r) = some (rc, s')) :
    (s.session c).ending ≠ some (!rollbackOp) ∧ t ∈ (s.session c).joined ∧
      ∃ e, s' = { s with env := e }.setSession c ((s.session c).finished rollbackOp t) ∧
        e.txnCn = none ∧ e.server.tran = none ∧ (e.server.committed = s.env.server.committed ∨
          (rollbackOp = false ∧ e.server.committed = s.env.server.data)) := by
  simp only [call] at h
  split_ifs at h with hmade hop
  · rcases hback : vmsVtabRollback r s.env with ⟨rc', e⟩
    obtain ⟨hcn, htran, hcommitted⟩ := vmsVtabRollback_spec hwf hback
    rw [hback] at h
    exact ⟨hmade.1, hmade.2, e, (Prod.mk.inj (some.inj h)).2.symm, hcn, htran, .inl hcommitted⟩
  · rcases hcommit : vmsVtabCommit r s.env with ⟨rc', e⟩
    obtain ⟨hcn, htran, _, hcommitted⟩ := vmsVtabCommit_spec hwf hcommit
    rw [hcommit] at h
    refine ⟨hmade.1, hmade.2, e, (Prod.mk.inj (some.inj h)).2.symm, hcn, htran, ?_⟩
    exact hcommitted.symm.imp_right fun hdata => ⟨by simpa using hop, hdata⟩

omit [DecidableEq T] in
/-- **xBegin** of a connection, while no other has joined tables. -/
theorem Inv.begin (h : Inv s) (hend : (s.session c).ending = none)
    (hothers : ∀ c', c' ≠ c → (s.session c').joined = []) {a : Option Nat} {t : T}
    (hbegin : vmsVtabBegin a s.env = (.ok, e)) :
    Inv ({ s with env := e }.setSession c { s.session c with joined := t :: (s.session c).joined }) := by
  obtain ⟨hwf, hserver, hok, _, hfresh⟩ := vmsVtabBegin_spec h.wf hbegin
  refine h.set hothers hwf ?_ (iff_of_true (hok rfl) ⟨by simp, hend⟩) (fun _ => hend) ?_
    fun w hw => h.old_of hothers (hserver ▸ hw)
  · intro cn hcn hactive
    rcases hfresh cn hcn with hcn' | hidle
    · rw [hserver]
      exact h.live cn hcn' hactive
    · simp [hidle] at hactive
  · obtain ⟨new, hdata, hnew⟩ := h.own
    refine ⟨new, by rw [hserver]; exact hdata, fun w hw => ?_⟩
    obtain ⟨hjoined, hserial⟩ := hnew w hw
    have hconn : w.conn = c := by
      by_contra hne
      exact hjoined (hothers w.conn hne)
    exact ⟨hconn, by simp, hconn ▸ hserial⟩

/-- **Every call that keeps apart keeps the invariant.** -/
theorem Inv.step {s : Shared C T W} {i : C × Call T W} (h : Inv s) (hi : Apart s i) : Inv (step s i) := by
  obtain ⟨c, i⟩ := i
  cases i with
  | begin_ t a =>
    by_cases hmade : (s.session c).ending = none ∧ t ∉ (s.session c).joined
    · rcases hbegin : vmsVtabBegin a s.env with ⟨rc, e⟩
      cases rc with
      | ok => simpa [SharedEnv.step, call, hmade, hbegin] using h.begin hmade.1 hi hbegin
      | _ =>
        obtain rfl := (vmsVtabBegin_spec h.wf hbegin).2.2.2.1 (by simp)
        simpa [SharedEnv.step, call, hmade, hbegin] using h
    · simpa [SharedEnv.step, call, if_neg hmade] using h
  | update t w r =>
    by_cases hmade : (s.session c).ending = none ∧ t ∈ (s.session c).joined
    · have hjoined : (s.session c).joined ≠ [] := ne_nil_of_mem hmade.2
      obtain ⟨cn, hcn⟩ := isSome_iff_exists.mp (h.pinned.mpr ⟨c, hjoined, hmade.1⟩)
      rcases hcall : vmsVtabUpdate (c, t) ⟨c, (s.session c).serial, w⟩ r s.env with ⟨rc, e⟩
      obtain ⟨hwf, hpinned, _⟩ := vmsVtabUpdate_spec h.wf hcall
      obtain ⟨hlive, hcommitted, hdata⟩ := vmsVtabUpdate_inside h.wf h.live hi.1 hcn (hi.2 cn hcn) hcall
      have hinv : Inv { s with env := e } := by
        rcases hdata with hdata | hdata
        · exact h.of_env hwf hlive hpinned hcommitted hjoined (hdata.trans (append_nil _).symm) (by simp)
        · exact h.of_env hwf hlive hpinned hcommitted hjoined hdata (by simp)
      simpa [SharedEnv.step, call, hmade, hcall] using hinv
    · simpa [SharedEnv.step, call, if_neg hmade] using h
  | sync t r =>
    by_cases hmade : (s.session c).ending = none ∧ t ∈ (s.session c).joined
    · rcases hcall : vmsVtabSync r s.env with ⟨rc, e⟩
      rcases vmsVtabSync_cases hcall with rfl | ⟨hfail, _⟩
      · simpa [SharedEnv.step, call, hmade, hcall] using h
      · exact absurd hfail hi
    · simpa [SharedEnv.step, call, if_neg hmade] using h
  | finish rollbackOp t r =>
    cases hcall : call s (c, .finish rollbackOp t r) with
    | none => simpa [SharedEnv.step, hcall] using h
    | some a =>
      obtain ⟨hend, ht, e, hs, hcn, htran, hcommitted⟩ := call_finish h.wf hcall
      simpa [SharedEnv.step, hcall, hs] using h.finish hend ht hcn htran hcommitted

theorem Inv.isolated (h : Inv s) (i : C × Call T W) : Isolated s i := by
  obtain ⟨c, i⟩ := i
  intro rc s' hcall
  cases i with
  | begin_ t a | update t w r | sync t r => trivial
  | finish rollbackOp t r =>
    obtain ⟨hend, ht, e, rfl, _, htran, hcommitted⟩ := call_finish h.wf hcall
    have hjoined : (s.session c).joined ≠ [] := ne_nil_of_mem ht
    cases rollbackOp with
    | false =>
      intro w hw
      rcases hcommitted with heq | ⟨_, heq⟩
      · exact .inl (heq ▸ hw)
      · exact (h.uncommitted hjoined (heq ▸ hw)).imp_right And.left
    | true =>
      have hkept : e.server.committed = s.env.server.committed := hcommitted.resolve_right (by simp)
      refine ⟨fun w hw hne => ?_, fun _ w hw hmine => ?_⟩
      · have hdata : e.server.data = s.env.server.committed := by simp [Server.data, htran, hkept]
        rcases h.uncommitted hjoined hw with hw | ⟨hconn, _⟩
        · exact hdata ▸ hw
        · exact absurd hconn hne
      · have hold := h.old w (hkept ▸ hw)
        rw [hmine.1] at hold
        rcases hold with hlt | ⟨_, hcommitting⟩
        · exact absurd hmine.2 (Nat.ne_of_lt hlt)
        · exact hend hcommitting

/-- **Transactions of several connections do not mix** along any interleaving of calls that keeps them
    apart. -/
theorem isolated_along {tabs : C × T → VmsVtab} {calls : List (C × Call T W)}
    (hcalls : Along step Apart (start tabs) calls) (i : C × Call T W) :
    Isolated (run step (start tabs) calls) i :=
  (Along.keeps (fun _ _ h hi => h.step hi) (inv_start tabs) hcalls).isolated i

/-- One connection writes and commits, then the other writes. -/
def oneAfterTheOther : List (Bool × Call Nat Nat) :=
  [(false, .begin_ 0 (some 1)), (false, .update 0 7 {}), (false, .finish false 0 .ok),
    (true, .begin_ 0 (some 2)), (true, .update 0 8 {})]

theorem isolated_one_after_the_other :
    (run step (start fun _ => {}) oneAfterTheOther).env.server.committed = [⟨false, 0, 7⟩] ∧
      Isolated (run step (start fun _ => {}) oneAfterTheOther) (true, .finish true 0 .ok) := by
  refine ⟨by decide, isolated_along ?_ _⟩
  have hquiet : ({} : UpdateReply).Quiet := by decide
  refine ⟨fun _ _ => rfl, ⟨hquiet, fun cn _ hbound => ?_⟩, trivial, fun c' hne => ?_,
    ⟨hquiet, fun cn _ hbound => ?_⟩, trivial⟩
  · exact absurd (show none = some cn.addr from hbound) (by simp)
  · cases c' with
    | false => rfl
    | true => exact absurd rfl hne
  · exact absurd (show none = some cn.addr from hbound) (by simp)

/-- **Two transactions at once**: the commit of one commits the other's write, which its rollback then
    reports as rolled back. -/
theorem commits_foreign_write :
    let s := run step (start fun _ => {})
      [(false, .begin_ 0 (some 1)), (true, .begin_ 0 none), (false, .update 0 7 {}), (true, .update 0 8 {}),
        (false, .finish false 0 .ok)]
    s.env.server.committed = [⟨false, 0, 7⟩, ⟨true, 0, 8⟩] ∧ (s.session true).joined = [0] ∧
      (call s (true, .finish true 0 .ok)).map (fun a => (a.1, a.2.env.server.committed)) =
        some (.ok, [⟨false, 0, 7⟩, ⟨true, 0, 8⟩]) := by
  decide

end VirtualMssql.SharedEnv
