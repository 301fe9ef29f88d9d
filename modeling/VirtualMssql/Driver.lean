/-
  THE DRIVER — how SQLite calls the tables of one connection.

  SQLite keeps the list of tables that joined the transaction and a stack of open levels (savepoints of
  the user and of statements).  It begins a table once; a table that joins inside a level is told that
  level at once, a level that opens is told to every joined table, and so are releasing and rolling back.
  All tables answer through ONE environment, and level `n` is `vms_sv_n` for all of them.

  `Db` adds to SQLite's own bookkeeping what the caller of the database remembers: the remote data at the
  time a level was opened, and the writes that were acknowledged and not rolled back.

  The crux is that two stacks have to agree: SQLite's levels and the server's savepoints.  `Aligned` says
  how, for any demand `P` on the savepoint of a level; `Inv` is kept by every step that fits the demand.
  Restoring data and keeping acknowledged writes are two demands, and each is met under a condition on the
  steps; without it each fails (`rollbackTo_keeps_write`, `commit_loses_write`).
-/
import VirtualMssql.Txn
import Mathlib.Data.List.Sublists

namespace VirtualMssql.Driver

open Savepoint Txn Run List Function

/-! ## The state -/

/-- A level, and how things stood when SQLite opened it. -/
structure Opening (W : Type) where
  data : List W
  acked : List W
  deriving DecidableEq

/-- A connection of SQLite with its virtual tables; the levels innermost first. -/
structure Db (T W : Type) where
  env : VmsVtabEnv T W
  joined : List T := []
  iSavepoint : T → Nat := fun _ => 0
  opened : List (Opening W) := []
  acked : List W := []

variable {T W : Type}

/-- Nothing has joined. -/
def start (tabs : T → VmsVtab) (committed : List W) : Db T W where
  env := { tabs, server := { committed } }

/-! ## Calling the joined tables -/

/-- One table after the other, until a call fails. -/
def callUntil (f : T → VmsVtabEnv T W → SqliteRc × VmsVtabEnv T W) :
    List T → VmsVtabEnv T W → List (SqliteRc × VmsVtabEnv T W)
  | [], _ => []
  | t :: ts, e => f t e :: if (f t e).1 = .ok then callUntil f ts (f t e).2 else []

/-- One table after the other, whatever they answer. -/
def callEach (f : T → VmsVtabEnv T W → SqliteRc × VmsVtabEnv T W) :
    List T → VmsVtabEnv T W → List (SqliteRc × VmsVtabEnv T W)
  | [], _ => []
  | t :: ts, e => f t e :: callEach f ts (f t e).2

/-- The environment after the calls. -/
def lastEnv (e : VmsVtabEnv T W) (calls : List (SqliteRc × VmsVtabEnv T W)) : VmsVtabEnv T W :=
  calls.foldl (fun _ c => c.2) e

def allOk (calls : List (SqliteRc × VmsVtabEnv T W)) : Bool := calls.all (·.1 = .ok)

def anyOk (calls : List (SqliteRc × VmsVtabEnv T W)) : Bool := calls.any (·.1 = .ok)

/-! ## The steps -/

/-- What SQLite does, with the answers of the server to each table. -/
inductive Op (T W : Type)
  | prepare (t : T) (r : CtxReply)
  | join (t : T) (a : Option Nat) (r : SavepointReply)
  | update (t : T) (w : W) (r : UpdateReply)
  | openLevel (statement : Bool) (r : T → SavepointReply)
  | release (n : Nat)
  | rollbackTo (n : Nat) (r : T → Reply)
  | commit (sync : T → Reply) (r : T → EndReply)
  | rollback (r : T → EndReply)

/-- The level `n` and those around it. -/
def around (n : Nat) (opened : List (Opening W)) : List (Opening W) := opened.drop (opened.length - (n + 1))

/-- SQLite tells a level to the tables that know of it. -/
def knowing (n : Nat) (db : Db T W) : List T := db.joined.filter (n < db.iSavepoint ·)

def savepointCalls (r : T → SavepointReply) (db : Db T W) : List (SqliteRc × VmsVtabEnv T W) :=
  callUntil (fun t => vmsVtabSavepoint db.opened.length (r t)) db.joined db.env

def releaseCalls (n : Nat) (db : Db T W) : List (SqliteRc × VmsVtabEnv T W) :=
  callUntil (fun _ => vmsVtabRelease) (knowing n db) db.env

def rollbackToCalls (n : Nat) (r : T → Reply) (db : Db T W) : List (SqliteRc × VmsVtabEnv T W) :=
  callUntil (fun t => vmsVtabRollbackTo n (r t)) (knowing n db) db.env

def syncCalls (sync : T → Reply) (db : Db T W) : List (SqliteRc × VmsVtabEnv T W) :=
  callUntil (fun t => vmsVtabSync (sync t)) db.joined db.env

/-- xCommit is called once every xSync was OK. -/
def commitCalls (sync : T → Reply) (r : T → EndReply) (db : Db T W) : List (SqliteRc × VmsVtabEnv T W) :=
  callEach (fun t => vmsVtabCommit (r t)) db.joined (lastEnv db.env (syncCalls sync db))

def rollbackCalls (r : T → EndReply) (db : Db T W) : List (SqliteRc × VmsVtabEnv T W) :=
  callEach (fun t => vmsVtabRollback (r t)) db.joined db.env

section Steps

variable [DecidableEq T]

/-- `sqlite3VtabBegin`: xBegin, and xSavepoint for the innermost level. -/
def joinTable (t : T) (a : Option Nat) (r : SavepointReply) (db : Db T W) : Db T W :=
  if t ∈ db.joined then db
  else
    match vmsVtabBegin a db.env with
    | (.ok, e) =>
      match db.opened with
      | [] => { db with env := e, joined := db.joined ++ [t] }
      | _ :: outer =>
        { db with
          env := (vmsVtabSavepoint outer.length r e).2,
          joined := db.joined ++ [t],
          iSavepoint := update db.iSavepoint t (outer.length + 1) }
    | (_, e) => { db with env := e }

/-- A level of the user opens only when every table has taken it; a statement's level is open anyway, and
    is rolled back when the statement fails. -/
def openLevel (statement : Bool) (r : T → SavepointReply) (db : Db T W) : Db T W :=
  let calls := savepointCalls r db
  let told := db.joined.take calls.length
  { db with
    env := lastEnv db.env calls,
    iSavepoint := fun t => if t ∈ told then db.opened.length + 1 else db.iSavepoint t,
    opened := if statement || allOk calls then ⟨db.env.server.data, db.acked⟩ :: db.opened else db.opened }

/-- One step of SQLite. -/
def step (db : Db T W) : Op T W → Db T W
  | .prepare t r => { db with env := (vmsVtabBestIndex t r db.env).2 }
  | .join t a r => joinTable t a r db
  | .update t w r =>
    if t ∈ db.joined then
      { db with
        env := (vmsVtabUpdate t w r db.env).2,
        acked := if (vmsVtabUpdate t w r db.env).1 = .ok then db.acked ++ [w] else db.acked }
    else db
  | .openLevel statement r => openLevel statement r db
  | .release n =>
    if n < db.opened.length then
      { db with env := lastEnv db.env (releaseCalls n db), opened := (around n db.opened).tail }
    else db
  | .rollbackTo n r =>
    match around n db.opened with
    | [] => db
    | o :: outer =>
      if n < db.opened.length then
        { db with
          env := lastEnv db.env (rollbackToCalls n r db),
          opened := o :: outer,
          acked := if anyOk (rollbackToCalls n r db) then o.acked else db.acked }
      else db
  | .commit sync r =>
    if allOk (syncCalls sync db) then
      { env := lastEnv (lastEnv db.env (syncCalls sync db)) (commitCalls sync r db) }
    else { db with env := lastEnv db.env (syncCalls sync db) }
  | .rollback r => { env := lastEnv db.env (rollbackCalls r db) }

end Steps

/-! ## The two stacks -/

/-- The levels, each with its name on the server and what is demanded of its savepoint. -/
def levels (P : Opening W → List W → Prop) : List (Opening W) → Levels (List Nat) (List W)
  | [] => []
  | o :: outer => (svName outer.length, P o) :: levels P outer

variable {P : Opening W → List W → Prop} {n : Nat}

theorem svName_injective {m : Nat} (h : svName m = svName n) : m = n := decimal_injective (append_cancel_left h)

theorem levels_append (P : Opening W → List W → Prop) (outer : List (Opening W)) :
    ∀ inner, ∃ ls, levels P (inner ++ outer) = ls ++ levels P outer
  | [] => ⟨[], rfl⟩
  | o :: inner => by
    obtain ⟨ls, hls⟩ := levels_append P outer inner
    exact ⟨_ :: ls, by rw [cons_append, levels, hls, cons_append]⟩

/-- The names are those of the levels' depths. -/
theorem svName_notMem_levels (P : Opening W → List W → Prop) :
    ∀ {os : List (Opening W)} {n : Nat}, os.length ≤ n → svName n ∉ (levels P os).map Prod.fst
  | [], _, _ => by simp [levels]
  | o :: outer, n, hn => by
    rw [length_cons] at hn
    rw [levels, map_cons, mem_cons, not_or]
    refine ⟨fun h => ?_, svName_notMem_levels P (by omega)⟩
    have := svName_injective h
    omega

/-- **SQLite's levels and the server's savepoints agree**, and a connection is pinned exactly while some
    table has joined. -/
structure Inv (P : Opening W → List W → Prop) (db : Db T W) : Prop where
  wf : db.env.Wf
  pinned : db.env.txnCn.isSome = true ↔ db.joined ≠ []
  aligned : Aligned (levels P db.opened) db.env.server.saves

theorem inv_start (tabs : T → VmsVtab) (committed : List W) : Inv P (start tabs committed) :=
  ⟨⟨fun _ => rfl, by simp [start]⟩, by simp [start], trivial⟩

variable {s s' : Server (List Nat) (List W)} {ls : Levels (List Nat) (List W)}

/-- Nothing changed, or the transaction is lost: every level still finds only right savepoints. -/
theorem aligned_settles {wrong : Prop} (h : Server.Settles wrong s s') (hs : Aligned ls s.saves) :
    Aligned ls s'.saves := by
  rcases h with hsame | ⟨_, rfl⟩
  · rwa [hsame.saves]
  · exact aligned_nil ls

variable {db : Db T W}

/-- While nothing has joined, no connection is pinned. -/
theorem Inv.unpinned (h : Inv P db) (hjoined : db.joined = []) : db.env.txnCn = none := by
  cases hcn : db.env.txnCn with
  | none => rfl
  | some cn => exact absurd hjoined (h.pinned.mp (by rw [hcn]; rfl))

/-- While nothing has joined, the server has no savepoint. -/
theorem Inv.saves_nil (h : Inv P db) (hjoined : db.joined = []) : db.env.server.saves = [] := by
  rw [Server.saves, h.wf.free (h.unpinned hjoined)]
  rfl

/-! ## What a round of calls does -/

@[simp] theorem lastEnv_nil (e : VmsVtabEnv T W) : lastEnv e [] = e := rfl

theorem lastEnv_cons (e : VmsVtabEnv T W) (c : SqliteRc × VmsVtabEnv T W)
    (calls : List (SqliteRc × VmsVtabEnv T W)) : lastEnv e (c :: calls) = lastEnv c.2 calls := rfl

variable {f : T → VmsVtabEnv T W → SqliteRc × VmsVtabEnv T W}

/-- **A round of calls** keeps what every call keeps, and each call that is OK has done its work. -/
theorem callUntil_spec {K D : VmsVtabEnv T W → Prop} :
    ∀ {l : List T} {e : VmsVtabEnv T W}, (∀ t ∈ l, ∀ e, K e → K (f t e).2 ∧ ((f t e).1 = .ok → D (f t e).2)) → K e →
      K (lastEnv e (callUntil f l e)) ∧ ∀ c ∈ callUntil f l e, c.1 = .ok → D c.2
  | [], e, _, he => ⟨he, by simp [callUntil]⟩
  | t :: ts, e, hf, he => by
    obtain ⟨hkeep, hdone⟩ := hf t mem_cons_self e he
    rw [callUntil, lastEnv_cons]
    by_cases hok : (f t e).1 = .ok
    · rw [if_pos hok]
      obtain ⟨hlast, hall⟩ := callUntil_spec ((forall_mem_cons.mp hf).2) hkeep
      refine ⟨hlast, fun c hc hcok => ?_⟩
      rcases mem_cons.mp hc with rfl | hc
      · exact hdone hok
      · exact hall c hc hcok
    · rw [if_neg hok]
      refine ⟨hkeep, fun c hc hcok => ?_⟩
      rw [mem_singleton.mp hc] at hcok
      exact absurd hcok hok

variable {r : T → SavepointReply}

/-- **Telling a level** puts its name on the server a number of times, with the data as it is, or loses
    the transaction. -/
theorem savepointCalls_spec {n : Nat} : ∀ {l : List T} {e : VmsVtabEnv T W}, e.Wf → e.txnCn.isSome = true →
      ∀ {calls}, callUntil (fun t => vmsVtabSavepoint n (r t)) l e = calls →
      (lastEnv e calls).Wf ∧ (lastEnv e calls).txnCn.isSome = true ∧
      ((∀ t ∈ l, (r t).Quiet) → (lastEnv e calls).server.data = e.server.data) ∧
      ((lastEnv e calls).server.saves = [] ∨
        ∃ k, (lastEnv e calls).server.saves = List.replicate k (svName n, e.server.data) ++ e.server.saves ∧
          (l ≠ [] → (allOk calls = true ∨ ∀ t ∈ l, (r t).Sent) → k ≠ 0))
  | [], e, hwf, hcn, _, rfl => ⟨hwf, hcn, fun _ => rfl, .inr ⟨0, rfl, by simp⟩⟩
  | t :: ts, e, hwf, hcn, _, rfl => by
    rcases hcall : vmsVtabSavepoint n (r t) e with ⟨rc, e₁⟩
    obtain ⟨hwf₁, hcn₁, hsaved, hnot⟩ := vmsVtabSavepoint_spec hwf hcn hcall
    rw [callUntil, hcall, lastEnv_cons]
    by_cases hok : rc = .ok
    · obtain ⟨hdata, hsaves⟩ := hsaved hok
      rw [if_pos hok]
      obtain ⟨hwf', hcn', hquiet, hlast⟩ := savepointCalls_spec hwf₁ hcn₁ rfl
      refine ⟨hwf', hcn', fun hq => ?_, hlast.imp_right ?_⟩
      · rw [hquiet (forall_mem_cons.mp hq).2, hdata]
      · rintro ⟨k, hk, _⟩
        refine ⟨k + 1, ?_, by simp⟩
        rw [hk, hdata, hsaves, replicate_succ', append_assoc]
        rfl
    · obtain ⟨hsettles, hsent⟩ := hnot hok
      rw [if_neg hok]
      refine ⟨hwf₁, hcn₁, fun hq => ?_, ?_⟩
      · rcases hsettles with hsame | ⟨hloud, _⟩
        · exact hsame.data
        · exact absurd (hq t mem_cons_self) hloud
      · by_cases hs : (r t).Sent
        · exact .inl (hsent hs)
        · rcases hsettles with hsame | ⟨_, hlost⟩
          · refine .inr ⟨0, hsame.saves, fun _ hwhy => ?_⟩
            rcases hwhy with hall | hall
            · simp [allOk, hok] at hall
            · exact absurd (hall t mem_cons_self) hs
          · exact .inl (by rw [lastEnv, foldl_nil, hlost, Server.saves_abort])

/-- Releasing sends nothing. -/
theorem releaseCalls_server (n : Nat) (db : Db T W) : (lastEnv db.env (releaseCalls n db)).server = db.env.server ∧
      (lastEnv db.env (releaseCalls n db)).txnCn = db.env.txnCn := by
  have h := callUntil_spec (f := fun _ : T => vmsVtabRelease) (l := knowing n db) (e := db.env)
    (K := fun e => e.server = db.env.server ∧ e.txnCn = db.env.txnCn) (D := fun _ => True)
    (fun _ _ e he => ⟨he, fun _ => trivial⟩) ⟨rfl, rfl⟩
  exact h.1

variable {outer : List (Opening W)} {o : Opening W}

/-- **Rolling back to a level** meets the demand on it after every call that is OK, and the levels around
    it stay served. -/
theorem rollbackToCalls_spec {r : T → Reply} (hn : n = outer.length) {l : List T} {e : VmsVtabEnv T W} (hwf : e.Wf)
    (hcn : e.txnCn.isSome = true) (hserved : Aligned (levels P (o :: outer)) e.server.saves) {calls}
    (hcalls : callUntil (fun t => vmsVtabRollbackTo n (r t)) l e = calls) :
    ((lastEnv e calls).Wf ∧ (lastEnv e calls).txnCn.isSome = true ∧
      Aligned (levels P (o :: outer)) (lastEnv e calls).server.saves) ∧
      ∀ c ∈ calls, c.1 = .ok → P o c.2.server.data := by
  subst hn hcalls
  refine callUntil_spec (K := fun e => e.Wf ∧ e.txnCn.isSome = true ∧
    Aligned (levels P (o :: outer)) e.server.saves) (D := fun e => P o e.server.data)
    (fun t _ e he => ?_) ⟨hwf, hcn, hserved⟩
  obtain ⟨hwf, hcn, hserved⟩ := he
  rcases hback : vmsVtabRollbackTo outer.length (r t) e with ⟨rc, e'⟩
  obtain ⟨hwf', hcn', hok, hnot⟩ := vmsVtabRollbackTo_spec hwf hcn hback
  by_cases hrc : rc = .ok
  · obtain ⟨d, l, hdrop, hdata, hsaves⟩ := hok hrc
    obtain ⟨hd, hl⟩ := Aligned.rolledBack hserved hdrop
    exact ⟨⟨hwf', hcn', hsaves.symm ▸ hl⟩, fun _ => hdata.symm ▸ hd⟩
  · exact ⟨⟨hwf', hcn', aligned_settles (hnot hrc) hserved⟩, fun h => absurd h hrc⟩

/-- **xSync all round** loses nothing unless a query fails on the server. -/
theorem syncCalls_spec (sync : T → Reply) (hwf : db.env.Wf)
    (hserved : Aligned ls db.env.server.saves) : (lastEnv db.env (syncCalls sync db)).Wf ∧
      (lastEnv db.env (syncCalls sync db)).txnCn = db.env.txnCn ∧
      Aligned ls (lastEnv db.env (syncCalls sync db)).server.saves ∧ ((∀ t ∈ db.joined, sync t ≠ .failed) →
        (lastEnv db.env (syncCalls sync db)).server.data = db.env.server.data) := by
  refine (callUntil_spec (K := fun e => e.Wf ∧ e.txnCn = db.env.txnCn ∧ Aligned ls e.server.saves ∧
      ((∀ t ∈ db.joined, sync t ≠ .failed) → e.server.data = db.env.server.data))
    (D := fun _ => True) (fun t ht e he => ?_) ⟨hwf, rfl, hserved, fun _ => rfl⟩).1
  obtain ⟨hwf, hcn, hserved, hdata⟩ := he
  rcases hcall : vmsVtabSync (sync t) e with ⟨rc, e'⟩
  rcases vmsVtabSync_cases hcall with rfl | ⟨hfail, rfl⟩
  · exact ⟨⟨hwf, hcn, hserved, hdata⟩, fun _ => trivial⟩
  · exact ⟨⟨hwf.abort, hcn, aligned_nil ls, fun hquiet => absurd hfail (hquiet t ht)⟩, fun _ => trivial⟩

/-- **Ending the transaction** in every table unpins the connection at the first of them. -/
theorem callEach_ends (hf : ∀ t e, e.Wf → (f t e).2.txnCn = none ∧ (f t e).2.server.tran = none) :
    ∀ {l : List T} {e : VmsVtabEnv T W}, e.Wf → (l = [] → e.txnCn = none) →
      (lastEnv e (callEach f l e)).Wf ∧ (lastEnv e (callEach f l e)).txnCn = none
  | [], _, hwf, hnone => ⟨hwf, hnone rfl⟩
  | t :: ts, e, hwf, _ => by
    obtain ⟨hcn, htran⟩ := hf t e hwf
    rw [callEach, lastEnv_cons]
    exact callEach_ends hf ⟨fun _ => htran, by simp [hcn]⟩ fun _ => hcn

/-- The first xCommit commits; the others find nothing to do. -/
theorem commitCalls_committed {r : T → EndReply} : ∀ {ts : List T} {e : VmsVtabEnv T W}, e.Wf →
    (ts = [] → e.txnCn = none) → allOk (callEach (fun t => vmsVtabCommit (r t)) ts e) = true →
    (lastEnv e (callEach (fun t => vmsVtabCommit (r t)) ts e)).server.committed = e.server.data
  | [], e, hwf, hnone, _ => by
    have htran := hwf.free (hnone rfl)
    simp [callEach, lastEnv, Server.data, htran]
  | t :: ts, e, hwf, _, hall => by
    rcases hcommit : vmsVtabCommit (r t) e with ⟨rc, e'⟩
    obtain ⟨hcn, htran, hcommitted, _⟩ := vmsVtabCommit_spec hwf hcommit
    rw [callEach, hcommit, allOk, all_cons, Bool.and_eq_true] at hall
    have hdata : e'.server.data = e'.server.committed := by simp [Server.data, htran]
    rw [callEach, hcommit, lastEnv_cons, commitCalls_committed ⟨fun _ => htran, by simp [hcn]⟩ (fun _ => hcn)
      hall.2, hdata]
    exact hcommitted (by simpa using hall.1)

/-! ## Every step keeps the stacks aligned -/

/-- What a step has to respect: a table that joins inside a level finds data that meets the demand on that
    level; a level that opens meets its own demand; and when a statement's level opens, its SAVEs reach the
    server. -/
def Fits (P : Opening W → List W → Prop) (db : Db T W) : Op T W → Prop
  | .join t _ _ => t ∈ db.joined ∨ ∀ o ∈ db.opened.head?, P o db.env.server.data
  | .openLevel statement r =>
    P ⟨db.env.server.data, db.acked⟩ db.env.server.data ∧
      (statement = true → ∀ t ∈ db.joined, (r t).Sent)
  | _ => True

section

variable [DecidableEq T] {db : Db T W}

/-- A table joins, or nothing happens. -/
theorem joinTable_cases (hwf : db.env.Wf) (t : T) (a : Option Nat) (r : SavepointReply) : joinTable t a r db = db ∨
    (t ∉ db.joined ∧ ∃ e, e.Wf ∧ e.txnCn.isSome = true ∧ e.server = db.env.server ∧
      ((db.opened = [] ∧ joinTable t a r db = { db with env := e, joined := db.joined ++ [t] }) ∨
        ∃ o outer, db.opened = o :: outer ∧ joinTable t a r db = { db with
            env := (vmsVtabSavepoint outer.length r e).2, joined := db.joined ++ [t],
            iSavepoint := update db.iSavepoint t (outer.length + 1) })) := by
  unfold joinTable
  by_cases hmem : t ∈ db.joined
  · exact .inl (if_pos hmem)
  rw [if_neg hmem]
  rcases hbegin : vmsVtabBegin a db.env with ⟨rc, e⟩
  obtain ⟨hwf', hserver, hok, hnot, _⟩ := vmsVtabBegin_spec hwf hbegin
  by_cases hrc : rc = .ok
  · subst hrc
    refine .inr ⟨hmem, e, hwf', hok rfl, hserver, ?_⟩
    cases hopened : db.opened with
    | nil => exact .inl ⟨rfl, rfl⟩
    | cons o outer => exact .inr ⟨o, outer, rfl, rfl⟩
  · obtain rfl := hnot hrc
    left
    cases rc with
    | ok => exact absurd rfl hrc
    | error | busy | readonly => rfl

theorem joinTable_frame (hwf : db.env.Wf) (t : T) (a : Option Nat) (r : SavepointReply) :
    (joinTable t a r db).acked = db.acked ∧ (joinTable t a r db).opened = db.opened := by
  rcases joinTable_cases hwf t a r with heq | ⟨_, e, _, _, _, ⟨_, heq⟩ | ⟨o, outer, _, heq⟩⟩ <;>
    exact ⟨by rw [heq], by rw [heq]⟩

/-- Joining keeps the agreement: the innermost level gets a savepoint. -/
theorem Inv.join (h : Inv P db) {t : T} {a : Option Nat} {r : SavepointReply}
    (hfits : Fits P db (.join t a r)) : Inv P (joinTable t a r db) := by
  rcases joinTable_cases h.wf t a r with heq | ⟨hmem, e, hwf, hcn, hserver, hcase⟩
  · rwa [heq]
  rcases hcase with ⟨hopened, heq⟩ | ⟨o, outer, hopened, heq⟩
  · rw [heq]
    exact ⟨hwf, by simpa using hcn, by simp [hopened, levels, Aligned]⟩
  · rcases hsave : vmsVtabSavepoint outer.length r e with ⟨rc, e'⟩
    obtain ⟨hwf', hcn', hsaved, hfailed⟩ := vmsVtabSavepoint_spec hwf hcn hsave
    have hserved : Aligned (levels P (o :: outer)) e.server.saves := by
      rw [hserver, ← hopened]
      exact h.aligned
    have hdemand : P o e.server.data := by
      rw [hserver]
      exact hfits.resolve_left hmem o (by simp [hopened])
    rw [heq, hsave]
    refine ⟨hwf', by simpa using hcn', ?_⟩
    simp only [hopened]
    by_cases hrc : rc = .ok
    · rw [(hsaved hrc).2]
      exact hserved.saved (svName_notMem_levels P (le_refl _)) hdemand
    · exact aligned_settles (hfailed hrc).1 hserved

/-- **A new level** keeps SQLite's levels and the server's savepoints in agreement. -/
theorem Inv.openLevel {db : Db T W} (h : Inv P db) {statement : Bool}
    (hfits : Fits P db (.openLevel statement r)) : Inv P (Driver.openLevel statement r db) := by
  obtain ⟨hdemand, hsent⟩ := hfits
  by_cases hjoined : db.joined = []
  · -- nobody is told, and the server has no savepoint
    have hcalls : savepointCalls r db = [] := by simp [savepointCalls, hjoined, callUntil]
    have hnil := h.saves_nil hjoined
    refine ⟨?_, ?_, ?_⟩ <;> simp only [Driver.openLevel, hcalls, lastEnv, foldl_nil]
    · exact h.wf
    · exact h.pinned
    · rw [hnil]
      exact aligned_nil _
  · obtain ⟨hwf, hcn, _, hsaves⟩ := savepointCalls_spec (r := r) (l := db.joined) h.wf (h.pinned.mpr hjoined) rfl
    refine ⟨hwf, ⟨fun _ => hjoined, fun _ => hcn⟩, ?_⟩
    change Aligned (levels P (if statement || allOk (savepointCalls r db) then _ else _))
      (lastEnv db.env (savepointCalls r db)).server.saves
    rcases hsaves with hlost | ⟨k, hsaves, htold⟩
    · rw [savepointCalls, hlost]
      exact aligned_nil _
    · rw [savepointCalls, hsaves]
      have htop : ∀ x ∈ List.replicate k (svName db.opened.length, db.env.server.data),
          x = (svName db.opened.length, db.env.server.data) := fun x hx => eq_of_mem_replicate hx
      have hname := svName_notMem_levels P (le_refl db.opened.length)
      split_ifs with hopens
      · have hk : k ≠ 0 := by
          refine htold hjoined ?_
          rcases Bool.or_eq_true_iff.mp hopens with hstatement | hall
          · exact .inr (hsent hstatement)
          · exact .inl hall
        exact h.aligned.opened hname hdemand (by simpa using hk) htop
      · exact h.aligned.under fun x hx => by rw [htop x hx]; exact hname

end

theorem around_length {opened : List (Opening W)} (hn : n < opened.length) : (around n opened).length = n + 1 := by
  rw [around, length_drop]
  omega

/-- The levels inside a level are given up. -/
theorem Inv.around {db : Db T W} (h : Inv P db) (n : Nat) :
    Aligned (levels P (Driver.around n db.opened)) db.env.server.saves := by
  obtain ⟨ls, hls⟩ := levels_append P (Driver.around n db.opened) (db.opened.take (db.opened.length - (n + 1)))
  have haligned := h.aligned
  rw [← take_append_drop (db.opened.length - (n + 1)) db.opened, ← Driver.around, hls] at haligned
  exact haligned.released

section

variable [DecidableEq T]

theorem Inv.release {db : Db T W} (h : Inv P db) (n : Nat) : Inv P (step db (.release n)) := by
  simp only [step]
  split_ifs with hn
  · obtain ⟨hserver, hcn⟩ := releaseCalls_server n db
    refine ⟨⟨?_, ?_⟩, ?_, ?_⟩
    · simpa only [hserver, hcn] using h.wf.free
    · simpa only [hcn] using h.wf.pinned
    · simpa only [hcn] using h.pinned
    · have haround := h.around n
      simp only [hserver]
      cases hcases : Driver.around n db.opened with
      | nil => trivial
      | cons o outer =>
        rw [hcases] at haround
        exact Aligned.released (l := [_]) haround
  · exact h

/-- After rolling back to a level the stacks agree, and each call that was OK has met the demand. -/
theorem Inv.rollbackTo {db : Db T W} (h : Inv P db) {n : Nat} (r : T → Reply)
    (haround : Driver.around n db.opened = o :: outer) (hn : n < db.opened.length) :
    Inv P (step db (.rollbackTo n r)) ∧ ∀ c ∈ rollbackToCalls n r db, c.1 = .ok → P o c.2.server.data := by
  have hlength : n = outer.length := by simpa [haround] using (around_length hn).symm
  have hserved := h.around n
  rw [haround] at hserved
  have hstep : step db (.rollbackTo n r) = { db with
      env := lastEnv db.env (rollbackToCalls n r db),
      opened := o :: outer,
      acked := if anyOk (rollbackToCalls n r db) then o.acked else db.acked } := by
    simp [step, haround, if_pos hn]
  rw [hstep]
  by_cases hjoined : db.joined = []
  · have hcalls : rollbackToCalls n r db = [] := by simp [rollbackToCalls, knowing, hjoined, callUntil]
    rw [hcalls]
    exact ⟨⟨h.wf, h.pinned, hserved⟩, by simp⟩
  · obtain ⟨⟨hwf, hcn, hserved'⟩, hdone⟩ :=
      rollbackToCalls_spec (r := r) (l := knowing n db) hlength h.wf (h.pinned.mpr hjoined) hserved rfl
    exact ⟨⟨hwf, ⟨fun _ => hjoined, fun _ => hcn⟩, hserved'⟩, hdone⟩

theorem Inv.commit {db : Db T W} (h : Inv P db) (sync : T → Reply) (r : T → EndReply) :
    Inv P (step db (.commit sync r)) := by
  obtain ⟨hwf, hcn, hserved, _⟩ := syncCalls_spec sync h.wf h.aligned
  simp only [step]
  split_ifs
  · have hends := callEach_ends (f := fun t => vmsVtabCommit (r t)) (l := db.joined)
      (fun t e he => ⟨(vmsVtabCommit_spec he rfl).1, (vmsVtabCommit_spec he rfl).2.1⟩) hwf
      fun hnil => hcn.trans (h.unpinned hnil)
    exact ⟨hends.1, by simp [commitCalls, hends.2], trivial⟩
  · exact ⟨hwf, by rw [hcn]; exact h.pinned, hserved⟩

theorem Inv.rollback {db : Db T W} (h : Inv P db) (r : T → EndReply) : Inv P (step db (.rollback r)) := by
  have hends := callEach_ends (f := fun t => vmsVtabRollback (r t)) (l := db.joined)
    (fun t e he => ⟨(vmsVtabRollback_spec he rfl).1, (vmsVtabRollback_spec he rfl).2.1⟩) h.wf h.unpinned
  exact ⟨hends.1, by simp [step, rollbackCalls, hends.2], trivial⟩

/-- **Every step that fits keeps the stacks aligned.** -/
theorem Inv.step {db : Db T W} {op : Op T W} (h : Inv P db) (hfits : Fits P db op) : Inv P (Driver.step db op) := by
  cases op with
  | prepare t r =>
    obtain ⟨hwf, hcn, hsettles⟩ := vmsVtabBestIndex_spec (t := t) (r := r) h.wf
    exact ⟨hwf, by simp [Driver.step, hcn, h.pinned], aligned_settles hsettles h.aligned⟩
  | join t a r => exact h.join hfits
  | update t w r =>
    rcases hcall : vmsVtabUpdate t w r db.env with ⟨rc, e⟩
    obtain ⟨hwf, hcn, hok, hnot⟩ := vmsVtabUpdate_spec h.wf hcall
    by_cases hmem : t ∈ db.joined
    · simp only [Driver.step, if_pos hmem, hcall]
      refine ⟨hwf, by simp [hcn, h.pinned], ?_⟩
      by_cases hrc : rc = .ok
      · simpa only [(hok hrc).2] using h.aligned
      · exact aligned_settles (hnot hrc) h.aligned
    · simpa only [Driver.step, if_neg hmem] using h
  | openLevel statement r => exact h.openLevel hfits
  | release n => exact h.release n
  | rollbackTo n r =>
    by_cases hn : n < db.opened.length
    · cases haround : Driver.around n db.opened with
      | nil => simpa [haround] using around_length hn
      | cons o outer => exact (h.rollbackTo r haround hn).1
    · simp only [Driver.step, if_neg hn]
      split
      all_goals exact h
  | commit sync r => exact h.commit sync r
  | rollback r => exact h.rollback r

/-! ## Rolling back restores the data -/

/-- Inside a level, a table joins only while the data is still what it was when the level was opened; and
    the SAVEs of a statement's level reach the server. -/
def JoinsUnchanged (db : Db T W) : Op T W → Prop
  | .join t _ _ => t ∈ db.joined ∨ ∀ o ∈ db.opened.head?, db.env.server.data = o.data
  | .openLevel statement r => statement = true → ∀ t ∈ db.joined, (r t).Sent
  | _ => True

/-- **Savepoint restore.**  Along every run in which tables join unchanged levels, an xRollbackTo(n) that is
    OK leaves the remote data exactly as it was when SQLite opened level `n`. -/
theorem rollbackTo_restores {tabs : T → VmsVtab} {committed : List W} {ops : List (Op T W)}
    (hops : Along step JoinsUnchanged (start tabs committed) ops) {r : T → Reply} {o : Opening W}
    {outer : List (Opening W)} (hn : n < (run step (start tabs committed) ops).opened.length)
    (ho : around n (run step (start tabs committed) ops).opened = o :: outer) {c : SqliteRc × VmsVtabEnv T W}
    (hc : c ∈ rollbackToCalls n r (run step (start tabs committed) ops)) (hok : c.1 = .ok) :
    c.2.server.data = o.data := by
  have hinv : Inv (fun o d => d = o.data) (run step (start tabs committed) ops) := by
    refine Along.keeps (fun db op h hop => h.step ?_) (inv_start tabs committed) hops
    cases op with
    | join t a r => exact hop
    | openLevel statement r => exact ⟨rfl, hop⟩
    | _ => trivial
  exact (hinv.rollbackTo r ho hn).2 c hc hok

/-- A savepoint, and one table that joins and writes inside it. -/
def oneInside : List (Op Nat Nat) := [.openLevel false fun _ => {}, .join 0 (some 1) {}, .update 0 7 {}]

theorem rollbackTo_restores_one :
    (rollbackToCalls 0 (fun _ => .ok) (run step (start (fun _ => {}) []) oneInside)).map Prod.fst = [.ok] ∧
      ∀ c ∈ rollbackToCalls 0 (fun _ => .ok) (run step (start (fun _ => {}) []) oneInside),
        c.1 = .ok → c.2.server.data = [] := by
  refine ⟨by decide +kernel, fun c hc hok => ?_⟩
  have hopen : around 0 (run step (start (fun _ => {}) []) oneInside).opened = [⟨[], []⟩] := by decide +kernel
  refine rollbackTo_restores ?_ (by decide +kernel) hopen hc hok
  exact ⟨by simp [JoinsUnchanged], .inr (by decide +kernel), trivial, trivial⟩

/-- **A second table joins later**: its SAVE repeats the name with the first table's write in the data,
    and ROLLBACK TO goes there. -/
theorem rollbackTo_keeps_write : let db := run step (start (fun _ => {}) []) (oneInside ++ [.join 1 none {}])
    db.opened = [⟨[], []⟩] ∧
      (rollbackToCalls 0 (fun _ => .ok) db).map (fun c => (c.1, c.2.server.data)) = [(.ok, [7]), (.ok, [7])] := by
  decide +kernel

end

/-! ## A commit commits what was acknowledged -/

/-- Each level was opened with no more acknowledged writes than there are inside it. -/
def Nested : List W → List (Opening W) → Prop
  | _, [] => True
  | a, o :: outer => o.acked.Sublist a ∧ Nested o.acked outer

/-- Writes that are acknowledged later stand inside every level. -/
theorem Nested.mono {a b : List W} (hab : a.Sublist b) : ∀ {os : List (Opening W)}, Nested a os → Nested b os
  | [], _ => trivial
  | _ :: _, h => ⟨h.1.trans hab, h.2⟩

theorem Nested.drop {a : List W} : ∀ {os : List (Opening W)} (k : Nat), Nested a os → Nested a (os.drop k)
  | [], _, _ => by simp [Nested]
  | _ :: _, 0, h => h
  | _ :: _, k + 1, h => (Nested.drop k h.2).mono h.1

/-- The acknowledged writes are in the data the session sees, and those of a level in the savepoint of the
    level. -/
structure Kept (db : Db T W) : Prop where
  inv : Inv (fun o d => o.acked.Sublist d) db
  data : db.acked.Sublist db.env.server.data
  nested : Nested db.acked db.opened

/-- No statement of the step fails on the server while there is an acknowledged write to lose; the
    savepoint that is rolled back to exists; and the SAVEs of a statement's level reach the server. -/
def Undisturbed (db : Db T W) : Op T W → Prop
  | .prepare _ r => db.acked ≠ [] → r.Quiet
  | .join _ _ r => db.acked ≠ [] → r.Quiet
  | .update _ _ r => db.acked ≠ [] → r.Quiet
  | .openLevel statement r =>
    (statement = true → ∀ t ∈ db.joined, (r t).Sent) ∧ (db.acked ≠ [] → ∀ t ∈ db.joined, (r t).Quiet)
  | .rollbackTo n r => db.acked ≠ [] → ∀ t ∈ knowing n db,
      r t ≠ .failed ∧ (Server.dropTo (svName n) db.env.server.saves).isSome = true
  | .commit sync _ => db.acked ≠ [] → ∀ t ∈ db.joined, sync t ≠ .failed
  | _ => True

/-- Acknowledged writes are lost only with the transaction. -/
theorem sublist_settles {wrong : Prop} {a : List W}
    (h : a.Sublist s.data) (hs : Server.Settles wrong s s') (hquiet : a ≠ [] → ¬ wrong) : a.Sublist s'.data := by
  rcases hs with hsame | ⟨hwrong, _⟩
  · rwa [hsame.data]
  · by_cases ha : a = []
    · rw [ha]
      exact nil_sublist _
    · exact absurd hwrong (hquiet ha)

/-- Rolling back to a level keeps the writes that were acknowledged before it, and all of them when no call
    was OK. -/
theorem rollbackToCalls_kept {n : Nat} {r : T → Reply}
    (hn : n = outer.length) : ∀ {l : List T} {e : VmsVtabEnv T W} {a : List W}, e.Wf → e.txnCn.isSome = true →
      Aligned (levels (fun o d => o.acked.Sublist d) (o :: outer)) e.server.saves →
      a.Sublist e.server.data → o.acked.Sublist a →
      (a ≠ [] → ∀ t ∈ l, r t ≠ .failed ∧ (Server.dropTo (svName n) e.server.saves).isSome = true) →
      ∀ {calls}, callUntil (fun t => vmsVtabRollbackTo n (r t)) l e = calls →
      (if anyOk calls then o.acked else a).Sublist (lastEnv e calls).server.data
  | [], _, _, _, _, _, hdata, _, _, _, rfl => hdata
  | t :: ts, e, a, hwf, hcn, hserved, hdata, hoa, hquiet, _, rfl => by
    rcases hback : vmsVtabRollbackTo n (r t) e with ⟨rc, e'⟩
    obtain ⟨hwf', hcn', hok, hnot⟩ := vmsVtabRollbackTo_spec hwf hcn hback
    rw [callUntil, hback, lastEnv_cons]
    by_cases hrc : rc = .ok
    · obtain ⟨d, l, hdrop, rfl, rfl⟩ := hok hrc
      obtain ⟨hd, hl⟩ := Aligned.rolledBack hserved (hn ▸ hdrop)
      rw [if_pos hrc]
      have hrest := rollbackToCalls_kept (r := r) (l := ts) hn hwf' hcn' hl hd (List.Sublist.refl _)
        (fun ho t ht => ⟨(hquiet (fun ha => ho (sublist_nil.mp (ha ▸ hoa))) t (mem_cons_of_mem _ ht)).1,
          by rw [Server.dropTo_again hdrop]; rfl⟩) rfl
      rw [ite_self] at hrest
      simpa [anyOk, hrc] using hrest
    · rw [if_neg hrc]
      have hkept := sublist_settles hdata (hnot hrc) fun ha hwrong => by
        obtain ⟨hreply, hfound⟩ := hquiet ha t mem_cons_self
        rcases hwrong with hfail | hnone
        · exact hreply hfail
        · simp [hnone] at hfound
      simpa [anyOk, hrc] using hkept

theorem Kept.openLevel (h : Kept db) (hquiet : db.acked ≠ [] → ∀ t ∈ db.joined, (r t).Quiet) :
    db.acked.Sublist (lastEnv db.env (savepointCalls r db)).server.data := by
  by_cases ha : db.acked = []
  · rw [ha]
    exact nil_sublist _
  · by_cases hjoined : db.joined = []
    · simpa [savepointCalls, hjoined, callUntil] using h.data
    · obtain ⟨_, _, hdata, _⟩ := savepointCalls_spec (r := r) (l := db.joined) h.inv.wf (h.inv.pinned.mpr hjoined) rfl
      rw [savepointCalls, hdata (hquiet ha)]
      exact h.data

section

variable [DecidableEq T]

theorem Kept.join (h : Kept db) {t : T} {a : Option Nat} {r : SavepointReply}
    (hquiet : db.acked ≠ [] → r.Quiet) : db.acked.Sublist (joinTable t a r db).env.server.data := by
  rcases joinTable_cases h.inv.wf t a r with heq | ⟨_, e, hwf, hcn, hserver, ⟨_, heq⟩ | ⟨o, outer, _, heq⟩⟩
  · rw [heq]
    exact h.data
  · simpa only [heq, hserver] using h.data
  · rcases hsave : vmsVtabSavepoint outer.length r e with ⟨rc, e'⟩
    obtain ⟨_, _, hsaved, hfailed⟩ := vmsVtabSavepoint_spec hwf hcn hsave
    have hdata : db.acked.Sublist e.server.data := by
      rw [hserver]
      exact h.data
    simp only [heq, hsave]
    by_cases hrc : rc = .ok
    · rwa [(hsaved hrc).1]
    · exact sublist_settles hdata (hfailed hrc).1 fun ha hloud => hloud (hquiet ha)

theorem Kept.rollbackTo {db : Db T W} (h : Kept db) {n : Nat} {r : T → Reply}
    (hquiet : Undisturbed db (.rollbackTo n r)) (hn : n < db.opened.length) : Kept (step db (.rollbackTo n r)) := by
  have hnested : Nested db.acked (around n db.opened) := h.nested.drop _
  cases haround : around n db.opened with
  | nil => simpa [haround] using around_length hn
  | cons o outer =>
    have hinv := (h.inv.rollbackTo r haround hn).1
    have hserved := h.inv.around n
    rw [haround] at hserved hnested
    have hlength : n = outer.length := by simpa [haround] using (around_length hn).symm
    refine ⟨hinv, ?_, ?_⟩ <;> simp only [step, haround, if_pos hn]
    · by_cases hjoined : db.joined = []
      · simpa [rollbackToCalls, knowing, hjoined, callUntil, anyOk] using h.data
      · exact rollbackToCalls_kept hlength h.inv.wf (h.inv.pinned.mpr hjoined) hserved h.data hnested.1 hquiet rfl
    · split_ifs
      · exact ⟨List.Sublist.refl _, hnested.2⟩
      · exact hnested

/-- **Every undisturbed step keeps the acknowledged writes.** -/
theorem Kept.step {db : Db T W} {op : Op T W} (h : Kept db) (hop : Undisturbed db op) : Kept (Driver.step db op) := by
  have hfits : Fits (fun o d => o.acked.Sublist d) db op := by
    cases op with
    | join t a r =>
      refine .inr fun o ho => ?_
      have hnested := h.nested
      rw [head?_eq_some_iff.mp ho |>.choose_spec] at hnested
      exact hnested.1.trans h.data
    | openLevel statement r => exact ⟨h.data, hop.1⟩
    | _ => trivial
  have hinv := h.inv.step hfits
  cases op with
  | prepare t r =>
    have hsettles := (vmsVtabBestIndex_spec (t := t) (r := r) h.inv.wf).2.2
    exact ⟨hinv, sublist_settles h.data hsettles fun ha hloud => hloud (hop ha), h.nested⟩
  | join t a r =>
    obtain ⟨hacked, hopened⟩ := joinTable_frame h.inv.wf t a r
    -- joining acknowledges nothing and opens no level
    refine ⟨hinv, ?_, ?_⟩ <;> simp only [Driver.step, hacked, hopened]
    · exact h.join hop
    · exact h.nested
  | update t w r =>
    by_cases hmem : t ∈ db.joined
    · rcases hcall : vmsVtabUpdate t w r db.env with ⟨rc, e⟩
      obtain ⟨_, _, hok, hnot⟩ := vmsVtabUpdate_spec h.inv.wf hcall
      refine ⟨hinv, ?_, ?_⟩ <;> simp only [Driver.step, if_pos hmem, hcall]
      -- a write that succeeds is acknowledged and stands behind the data; one that fails may cost the transaction
      · by_cases hrc : rc = .ok
        · rw [if_pos hrc, (hok hrc).1]
          exact h.data.append (List.Sublist.refl [w])
        · rw [if_neg hrc]
          exact sublist_settles h.data (hnot hrc) fun ha hloud => hloud (hop ha)
      · by_cases hrc : rc = .ok
        · rw [if_pos hrc]
          exact h.nested.mono (sublist_append_left ..)
        · rw [if_neg hrc]
          exact h.nested
    · simpa only [Driver.step, if_neg hmem] using h
  | openLevel statement r =>
    refine ⟨hinv, h.openLevel hop.2, ?_⟩
    simp only [Driver.step, Driver.openLevel]
    split_ifs
    · exact ⟨List.Sublist.refl _, h.nested⟩
    · exact h.nested
  | release n =>
    refine ⟨hinv, ?_, ?_⟩ <;> simp only [Driver.step] <;> split_ifs
    · simpa only [(releaseCalls_server n db).1] using h.data
    · exact h.data
    · rw [Driver.around, tail_drop]
      exact h.nested.drop _
    · exact h.nested
  | rollbackTo n r =>
    by_cases hn : n < db.opened.length
    · exact h.rollbackTo hop hn
    · simp only [Driver.step, if_neg hn]
      split
      all_goals exact h
  | commit sync r =>
    obtain ⟨_, _, _, hdata⟩ := syncCalls_spec sync h.inv.wf h.inv.aligned
    refine ⟨hinv, ?_, ?_⟩ <;> simp only [Driver.step] <;> split_ifs
    · exact nil_sublist _
    · by_cases ha : db.acked = []
      · simp [ha]
      · rw [hdata (hop ha)]
        exact h.data
    · trivial
    · exact h.nested
  | rollback r => exact ⟨hinv, nil_sublist _, trivial⟩

/-- **Commit means committed.**  Along every run in which no statement fails on the server while there are
    acknowledged writes, a commit whose xSync and xCommit calls are all OK commits every one of them. -/
theorem commit_keeps_acked {tabs : T → VmsVtab} {committed : List W} {ops : List (Op T W)} {sync : T → Reply}
    {r : T → EndReply} (hops : Along step Undisturbed (start tabs committed) (ops ++ [.commit sync r]))
    (hsync : allOk (syncCalls sync (run step (start tabs committed) ops)) = true)
    (hcommit : allOk (commitCalls sync r (run step (start tabs committed) ops)) = true) :
    (run step (start tabs committed) ops).acked.Sublist
      (run step (start tabs committed) (ops ++ [.commit sync r])).env.server.committed := by
  obtain ⟨hbefore, hlast, _⟩ := along_append.mp hops
  have hstart : Kept (start tabs committed) := ⟨inv_start tabs committed, nil_sublist _, trivial⟩
  have h : Kept (run step (start tabs committed) ops) :=
    Along.keeps (fun db op hdb hop => hdb.step hop) hstart hbefore
  rw [run_append, run_cons]
  generalize run step (start tabs committed) ops = db at *
  obtain ⟨hwf, hcn, _, hdata⟩ := syncCalls_spec sync h.inv.wf h.inv.aligned
  by_cases ha : db.acked = []
  · rw [ha]
    exact nil_sublist _
  · change db.acked.Sublist (step db (.commit sync r)).env.server.committed
    simp only [step, if_pos hsync]
    rw [commitCalls, commitCalls_committed hwf (fun hnil => hcn.trans (h.inv.unpinned hnil)) hcommit,
      hdata (hlast ha)]
    exact h.data

/-- Two tables, a write in each. -/
def twoWrites : List (Op Nat Nat) :=
  [.join 0 (some 1) {}, .update 0 7 {}, .join 1 none {}, .update 1 8 {}]

theorem commit_keeps_two : (run step (start (fun _ => {}) []) twoWrites).acked = [7, 8] ∧
      (run step (start (fun _ => {}) []) twoWrites).acked.Sublist (run step (start (fun _ => {}) [])
          (twoWrites ++ [.commit (fun _ => .ok) fun _ => .ok])).env.server.committed := by
  refine ⟨by decide +kernel, commit_keeps_acked ?_ (by decide +kernel) (by decide +kernel)⟩
  have hupdate : ({} : UpdateReply).Quiet := by decide
  have hsave : ({} : SavepointReply).Quiet := by decide
  exact ⟨fun _ => hsave, fun _ => hupdate, fun _ => hsave, fun _ => hupdate, fun _ _ _ => by simp, trivial⟩

/-- **A write after the first one fails**: XACT_ABORT takes the transaction, `txn_active` stays, xSync and
    xCommit are OK, and nothing is committed. -/
theorem commit_loses_write :
    let db := run step (start (fun _ => {}) []) [.join 0 (some 1) {}, .update 0 7 {}, .update 0 8 { exec := .failed }]
    db.acked = [7] ∧ allOk (syncCalls (fun _ => .ok) db) = true ∧
      allOk (commitCalls (fun _ => .ok) (fun _ => .ok) db) = true ∧
      (step db (.commit (fun _ => .ok) fun _ => .ok)).env.server.committed = [] := by
  decide +kernel

end

end VirtualMssql.Driver
