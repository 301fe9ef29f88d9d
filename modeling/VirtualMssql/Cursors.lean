/-
  CURSORS AND THE PINNED CONNECTION — does a cursor outlive the connection it reads from?

  A scan outside a transaction has a connection and a worker of its own.  A scan that begins while a
  connection is pinned borrows that one's HDBC and worker (`vms_cursor_open_shared`), and nothing remembers
  that it did.  xCommit and xRollback close the pinned connection whatever is open on it: the worker is
  stopped and freed, the HDBC disconnected and freed.  The next xNext then runs a job on the freed worker,
  and the next xNext, xFilter or xClose frees a statement of the freed HDBC.

  Every call of the model says which borrowed connections it uses; a connection is known by its number in
  the order of the pins, since a later one may stand at the same address.  `uses_live_iff`: in every run
  the connections used are open, exactly if no scan is open on the pinned connection whenever it is closed.
-/
import VirtualMssql.DmlContext

namespace VirtualMssql.Cursors

open Txn Run Option Function
open DmlContext (run_txnCn cnAfter txnBeginLazy_cn Writable)
open Update (TxnCall)

variable {T W C : Type}

/-! ## The calls on a cursor -/

/-- `VmsCursor`, whose HDBC and worker it uses: those of the `n`-th pinned connection, or its own. -/
structure VmsCursor where
  parent : Option Nat
  deriving DecidableEq

/-- `struct VmsVtabCursor`; the materialized source is read through a statement of its own. -/
structure VmsVtabCursor (T : Type) where
  tab : T
  cur : Option VmsCursor := none
  eof : Bool := false
  rowidCounter : Nat := 0
  snapshotStmt : Bool := false

/-- What the next fetch brings. -/
inductive FetchReply
  | row
  | done
  | failed
  deriving DecidableEq

/-- The borrowed connection that `vms_cursor_fetch` runs a job on, and `vms_cursor_close` frees a statement of. -/
def VmsCursor.uses (k : VmsCursor) : List Nat := k.parent.toList

/-- The scan of a cursor is closed, if there is one. -/
def VmsVtabCursor.closeCur (v : VmsVtabCursor T) : VmsVtabCursor T × List Nat :=
  match v.cur with
  | some k => ({ v with cur := none }, k.uses)
  | none => (v, [])

/-- `vms_vtab_next`; a scan that is over or broken is closed at once. -/
def vmsVtabNext (r : FetchReply) (v : VmsVtabCursor T) : SqliteRc × VmsVtabCursor T × List Nat :=
  if v.snapshotStmt then
    match r with
    | .row => (.ok, { v with eof := false, rowidCounter := v.rowidCounter + 1 }, [])
    | .done => (.ok, { v with eof := true, snapshotStmt := false }, [])
    | .failed => (.error, { v with eof := true, snapshotStmt := false }, [])
  else
    match v.cur with
    | none => (.ok, { v with eof := true }, [])
    | some k =>
      match r with
      | .row => (.ok, { v with eof := false, rowidCounter := v.rowidCounter + 1 }, k.uses)
      | .done => (.ok, { v with cur := none, eof := true }, k.uses ++ k.uses)
      | .failed => (.error, { v with cur := none, eof := true }, k.uses ++ k.uses)

/-- The end of xFilter: the scan is placed on its first row. -/
def VmsVtabCursor.first (v : VmsVtabCursor T) (r : FetchReply) (used : List Nat) :
    SqliteRc × VmsVtabCursor T × List Nat :=
  let out := vmsVtabNext r { v with eof := false, rowidCounter := 0 }
  (out.1, out.2.1, used ++ out.2.2)

/-- What xFilter meets: are the values those of the plan, is there a lease, is the text (or the snapshot)
    built, is the scan opened, or at the second try; and the first fetch. -/
structure FilterReply where
  args : Bool := true
  lease : Bool := true
  built : Bool := true
  opened : Bool := true
  retried : Bool := false
  fetch : FetchReply := .row

/-- `vms_vtab_filter`, with the number of the pinned connection.  The old scan is closed first; a query
    source never joins the transaction, and only a scan outside it is tried twice. -/
def vmsVtabFilter (pinned : Option Nat) (isQuerySource mat : Bool) (r : FilterReply) (v : VmsVtabCursor T) :
    SqliteRc × VmsVtabCursor T × List Nat :=
  let (v, used) := v.closeCur
  if !isQuerySource && !r.args then (.error, v, used)
  else if !r.lease then (.error, v, used)
  else if !r.built then (.error, v, used)
  else if isQuerySource then
    if !r.opened then (.error, v, used)
    else if mat then { v with snapshotStmt := true }.first r.fetch used
    else { v with cur := some { parent := none } }.first r.fetch used
  else
    match pinned with
    | some n =>
      if r.opened then { v with cur := some { parent := some n } }.first r.fetch (used ++ [n])
      else (.error, v, used ++ [n])
    | none =>
      if r.opened || r.retried then { v with cur := some { parent := none } }.first r.fetch used
      else (.error, v, used)

/-! ## The module -/

/-- The environment, which tables are materialized, how many connections have been pinned, and the open
    cursors. -/
structure State (T W C : Type) where
  env : VmsVtabEnv T W
  mat : T → Bool := fun _ => false
  pins : Nat := 0
  cursors : C → Option (VmsVtabCursor T) := fun _ => none

/-- The pinned connection; the others are closed. -/
def State.pinned (s : State T W C) : Option Nat := s.env.txnCn.map fun _ => s.pins

/-- The calls on a cursor, and those of the transaction (xBegin, xUpdate, xCommit, xRollback and the rest). -/
inductive Call (T W C : Type)
  | open_ (c : C) (t : T) (alloc : Bool)
  | filter (c : C) (r : FilterReply)
  | next (c : C) (r : FetchReply)
  | column (c : C) (col : Nat)
  | close (c : C)
  | env (i : DmlContext.Call T W)

section Calls

variable [DecidableEq T] [DecidableEq C]

def State.set (s : State T W C) (c : C) (v : Option (VmsVtabCursor T)) : State T W C :=
  { s with cursors := update s.cursors c v }

/-- A call, and the borrowed connections that it uses.  SQLite calls only cursors that it has opened. -/
def call (s : State T W C) : Call T W C → State T W C × List Nat
  | .open_ c t alloc => (if alloc && (s.cursors c).isNone then s.set c (some { tab := t }) else s, [])
  | .filter c r =>
    match s.cursors c with
    | none => (s, [])
    | some v =>
      let out := vmsVtabFilter s.pinned (s.env.tabs v.tab).isQuerySource (s.mat v.tab) r v
      (s.set c (some out.2.1), out.2.2)
  | .next c r =>
    match s.cursors c with
    | none => (s, [])
    | some v => (s.set c (some (vmsVtabNext r v).2.1), (vmsVtabNext r v).2.2)
  -- the values were copied by the fetch
  | .column _ _ => (s, [])
  | .close c =>
    match s.cursors c with
    | none => (s, [])
    | some v => (s.set c none, v.closeCur.2)
  | .env i =>
    let e := DmlContext.step s.env i
    ({ s with env := e, pins := if s.env.txnCn.isNone && e.txnCn.isSome then s.pins + 1 else s.pins }, [])

def step (s : State T W C) (i : Call T W C) : State T W C := (call s i).1

/-- **The call uses only a connection that is open.** -/
def UsesLive (s : State T W C) (i : Call T W C) : Prop := ∀ n ∈ (call s i).2, s.pinned = some n

end Calls

/-- A scan that has borrowed a connection. -/
def Borrows (s : State T W C) (c : C) (n : Nat) : Prop :=
  ∃ v k, s.cursors c = some v ∧ v.cur = some k ∧ k.parent = some n

/-- The pinned connection is not closed under an open scan. -/
def Careful (s : State T W C) : Call T W C → Prop
  | .env (.txn (.commit _)) | .env (.txn (.rollback _)) => ∀ n, s.pinned = some n → ∀ c, ¬ Borrows s c n
  | _ => True

def start (tabs : T → VmsVtab) (mat : T → Bool) : State T W C where
  env := DmlContext.start tabs
  mat

/-! ## What a call does to a cursor -/

/-- A cursor whose scan is on the pinned connection or on its own. -/
def VmsVtabCursor.Good (pinned : Option Nat) (v : VmsVtabCursor T) : Prop :=
  ∀ k, v.cur = some k → ∀ n, k.parent = some n → pinned = some n

variable {pinned : Option Nat} {v : VmsVtabCursor T}

theorem VmsVtabCursor.Good.congr {v' : VmsVtabCursor T} (h : v.Good pinned) (hcur : v'.cur = v.cur) :
    v'.Good pinned := by
  rw [VmsVtabCursor.Good, hcur]
  exact h

theorem VmsVtabCursor.Good.uses {pinned : Option Nat} {v : VmsVtabCursor T} (h : v.Good pinned) {k : VmsCursor}
    (hk : v.cur = some k) : ∀ n ∈ k.uses, pinned = some n := by
  intro n hn
  exact h k hk n (by simpa [VmsCursor.uses] using hn)

/-- A call leaves the cursor good, and has used only the pinned connection. -/
def Keeps (pinned : Option Nat) (v : VmsVtabCursor T) (used : List Nat) : Prop :=
  v.Good pinned ∧ ∀ n ∈ used, pinned = some n

theorem closeCur_keeps (h : v.Good pinned) : Keeps pinned v.closeCur.1 v.closeCur.2 := by
  unfold VmsVtabCursor.closeCur
  cases hk : v.cur with
  | none => exact ⟨h, by simp⟩
  | some k => exact ⟨by simp [VmsVtabCursor.Good], h.uses hk⟩

theorem vmsVtabNext_keeps (h : v.Good pinned) (r : FetchReply) :
    Keeps pinned (vmsVtabNext r v).2.1 (vmsVtabNext r v).2.2 := by
  unfold vmsVtabNext
  cases hs : v.snapshotStmt with
  | true => cases r <;> exact ⟨h.congr rfl, by simp⟩
  | false =>
    cases hk : v.cur with
    | none => exact ⟨h.congr hk.symm, by simp⟩
    | some k =>
      have huses := h.uses hk
      cases r with
      | row => exact ⟨h.congr hk.symm, huses⟩
      | done | failed => exact ⟨by simp [VmsVtabCursor.Good], by simpa using huses⟩

theorem first_keeps (h : v.Good pinned) (r : FetchReply) {used : List Nat} (hused : ∀ n ∈ used, pinned = some n) :
    Keeps pinned (v.first r used).2.1 (v.first r used).2.2 := by
  obtain ⟨hgood, hnext⟩ := vmsVtabNext_keeps (v := { v with eof := false, rowidCounter := 0 }) h r
  refine ⟨hgood, fun n hn => ?_⟩
  rcases List.mem_append.mp hn with hold | hnew
  · exact hused n hold
  · exact hnext n hnew

theorem vmsVtabFilter_keeps (h : v.Good pinned) (isQuerySource mat : Bool) (r : FilterReply) :
    Keeps pinned (vmsVtabFilter pinned isQuerySource mat r v).2.1
      (vmsVtabFilter pinned isQuerySource mat r v).2.2 := by
  obtain ⟨hgood, hused⟩ := closeCur_keeps h
  unfold vmsVtabFilter
  rcases hc : v.closeCur with ⟨v', used⟩
  rw [hc] at hgood hused
  have hsnapshot : VmsVtabCursor.Good pinned { v' with snapshotStmt := true } := hgood.congr rfl
  have hown : VmsVtabCursor.Good pinned { v' with cur := some { parent := none } } := by
    rintro k hk n hn
    rw [← some.inj hk] at hn
    cases hn
  have hused' {n : Nat} (hn : pinned = some n) : ∀ m ∈ used ++ [n], pinned = some m := by
    intro m hm
    rcases List.mem_append.mp hm with hold | hnew
    · exact hused m hold
    · rw [hn, List.mem_singleton.mp hnew]
  have hshared : VmsVtabCursor.Good pinned { v' with cur := some { parent := pinned } } := by
    rintro k hk m hm
    rw [← some.inj hk] at hm
    exact hm
  cases pinned
  all_goals
    simp only
    split_ifs
    all_goals first
      | exact ⟨hgood, hused⟩
      | exact first_keeps hsnapshot r.fetch hused
      | exact first_keeps hown r.fetch hused
      | exact first_keeps hshared r.fetch (hused' rfl)
      | exact ⟨hgood, hused' rfl⟩

/-! ## What a call does to the pin -/

section Pin

variable [DecidableEq T] {e : VmsVtabEnv T W}

theorem vtabDmlCtx_pinned_stays {t : T} {r : CtxReply} (h : e.txnCn.isSome = true) :
    (vtabDmlCtx t r e).2.txnCn.isSome = true := by
  obtain ⟨cn, hcn⟩ := isSome_iff_exists.mp h
  rcases hctx : vtabDmlCtx t r e with ⟨route, e'⟩
  rcases vtabDmlCtx_pinned hcn hctx with ⟨_, _, rfl⟩ | ⟨_, rfl | ⟨_, rfl⟩⟩ | ⟨_, b, hlazy, _⟩
  · exact h
  · exact h
  · exact h
  · obtain ⟨cn', hcn', _⟩ := txnBeginLazy_cn (e := e.setDmlTxn t (some cn.addr)) hcn hlazy
    exact isSome_iff_exists.mpr ⟨cn', hcn'⟩

/-- A call that ends the transaction. -/
def Ends : DmlContext.Call T W → Prop
  | .txn (.commit _) | .txn (.rollback _) => True
  | _ => False

variable {i : DmlContext.Call T W}

/-- **Only xCommit and xRollback unpin.** -/
theorem step_pinned_stays (h : e.txnCn.isSome = true) (hi : ¬ Ends i) :
    (DmlContext.step e i).txnCn.isSome = true := by
  obtain ⟨cn, hcn⟩ := isSome_iff_exists.mp h
  cases i with
  | bestIndex t r =>
    rw [DmlContext.step, vmsVtabBestIndex]
    split_ifs
    · exact h
    · exact vtabDmlCtx_pinned_stays h
  | update t w r =>
    rw [DmlContext.step]
    by_cases ht : Writable e t
    · obtain ⟨s, hs⟩ := vmsVtabUpdate_server t w r ht.1 ht.2
      rw [hs]
      exact vtabDmlCtx_pinned_stays h
    · rw [DmlContext.vmsVtabUpdate_readonly ht]
      exact h
  | txn c =>
    rw [DmlContext.step, run_txnCn]
    cases c with
    | begin_ a => simp [cnAfter, txnPinShared, hcn]
    | sync r | release | rollbackTo n r => exact h
    | commit r | rollback r => exact absurd trivial hi
    | savepoint n r =>
      have hpin : (txnPinShared r.opened e).2 = e := by simp [txnPinShared, hcn]
      rw [cnAfter, hpin]
      rcases hlazy : txnBeginLazy r.ctx e with ⟨b, e'⟩
      obtain ⟨cn', hcn', _⟩ := txnBeginLazy_cn hcn hlazy
      exact isSome_iff_exists.mpr ⟨cn', hcn'⟩

theorem step_ends (hi : Ends i) : (DmlContext.step e i).txnCn = none := by
  cases i with
  | bestIndex t r | update t w r => exact hi.elim
  | txn c =>
    rw [DmlContext.step, run_txnCn]
    cases c with
    | commit r | rollback r => rfl
    | _ => exact hi.elim

end Pin

/-! ## Whole runs -/

/-- **The invariant**: what is borrowed is the pinned connection. -/
def Bound (s : State T W C) : Prop := ∀ c v, s.cursors c = some v → v.Good s.pinned

theorem bound_iff {s : State T W C} : Bound s ↔ ∀ c n, Borrows s c n → s.pinned = some n := by
  constructor
  · rintro h c n ⟨v, k, hv, hk, hn⟩
    exact h c v hv k hk n hn
  · intro h c v hv k hk n hn
    exact h c n ⟨v, k, hv, hk, hn⟩

section Runs

variable [DecidableEq T] [DecidableEq C] {s : State T W C}

omit [DecidableEq T] in
theorem bound_set (h : Bound s) (c : C) {v : Option (VmsVtabCursor T)}
    (hv : ∀ v', v = some v' → v'.Good s.pinned) : Bound (s.set c v) := by
  intro d v' hd
  change update s.cursors c v d = some v' at hd
  by_cases hdc : d = c
  · subst hdc
    rw [update_self] at hd
    exact hv v' hd
  · rw [update_of_ne hdc] at hd
    exact h d v' hd

omit [DecidableEq T] [DecidableEq C] in
theorem careful_env {i : DmlContext.Call T W} :
    Careful s (.env i : Call T W C) ↔ (Ends i → ∀ n, s.pinned = some n → ∀ c, ¬ Borrows s c n) := by
  cases i with
  | bestIndex t r | update t w r => exact iff_of_true trivial fun hi => hi.elim
  | txn c =>
    cases c with
    | commit r | rollback r => exact ⟨fun h _ => h, fun h => h trivial⟩
    | _ => exact iff_of_true trivial fun hi => hi.elim

/-- The calls of the transaction: nothing is borrowed while nothing is pinned, so only a connection that is
    closed matters. -/
theorem bound_env (h : Bound s) (i : DmlContext.Call T W) :
    Bound (step s (.env i)) ↔ Careful s (.env i : Call T W C) := by
  rw [careful_env, bound_iff]
  rw [bound_iff] at h
  by_cases hi : Ends i
  · have hnone : (step s (.env i : Call T W C)).pinned = none := by
      show (DmlContext.step s.env i).txnCn.map _ = none
      rw [step_ends hi]
      rfl
    rw [hnone]
    constructor
    · intro hbound _ n _ c hc
      exact absurd (hbound c n hc) (by simp)
    · intro hcareful c n hc
      exact absurd hc (hcareful hi n (h c n hc) c)
  · refine iff_of_true (fun c n hc => ?_) fun hends => absurd hends hi
    have hold := h c n hc
    -- something is borrowed, so the connection is pinned before and after
    have hsome : s.env.txnCn.isSome = true := by
      rw [State.pinned] at hold
      simpa using congrArg Option.isSome hold
    have hstays := step_pinned_stays hsome hi
    obtain ⟨cn, hcn⟩ := isSome_iff_exists.mp hsome
    obtain ⟨cn', hcn'⟩ := isSome_iff_exists.mp hstays
    rw [State.pinned, hcn] at hold
    show (DmlContext.step s.env i).txnCn.map (fun _ => if s.env.txnCn.isNone && _ then s.pins + 1 else s.pins) = some n
    rw [hcn', hcn]
    exact hold

/-- A call on a cursor keeps the invariant, and by it uses the pinned connection only. -/
theorem call_keeps (h : Bound s) (i : Call T W C) (hi : ∀ j, i ≠ .env j) : Bound (step s i) ∧ UsesLive s i := by
  rw [step, UsesLive]
  cases i with
  | open_ c t alloc =>
    refine ⟨?_, by simp [call]⟩
    rw [call]
    simp only
    split_ifs
    · exact bound_set h c fun v' hv' => by rw [← some.inj hv']; simp [VmsVtabCursor.Good]
    · exact h
  | column c col => exact ⟨h, by simp [call]⟩
  | env j => exact absurd rfl (hi j)
  | filter c r | next c r | close c =>
    rw [call]
    cases hv : s.cursors c with
    | none => exact ⟨h, by simp⟩
    | some v =>
      have hgood := h c v hv
      first
        | exact (vmsVtabFilter_keeps hgood _ _ r).imp_left fun hkept => bound_set h c fun v' hv' => some.inj hv' ▸ hkept
        | exact (vmsVtabNext_keeps hgood r).imp_left fun hkept => bound_set h c fun v' hv' => some.inj hv' ▸ hkept
        | exact ⟨bound_set h c fun v' hv' => absurd hv' (by simp), (closeCur_keeps hgood).2⟩

/-- **A step keeps the invariant exactly when it is careful.** -/
theorem bound_step (h : Bound s) (i : Call T W C) : Bound (step s i) ↔ Careful s i := by
  cases i with
  | env i => exact bound_env h i
  | _ => exact iff_of_true (call_keeps h _ (by simp)).1 trivial

/-- **The invariant is what the calls need**: xClose is enough to miss it. -/
theorem usesLive_iff (s : State T W C) : (∀ i, UsesLive s i) ↔ Bound s := by
  constructor
  · intro h c v hv k hk n hn
    refine h (.close c) n ?_
    simp [call, hv, VmsVtabCursor.closeCur, hk, VmsCursor.uses, hn]
  · intro h i
    cases i with
    | env i => simp [UsesLive, call]
    | _ => exact (call_keeps h _ (by simp)).2

/-- **No cursor outlives its connection.**  For every run of calls on any number of cursors and tables,
    whatever is answered in it: at every point of it, whichever call comes next uses no borrowed connection
    that has been closed, exactly if no scan is open on the pinned connection whenever xCommit or xRollback
    closes it. -/
theorem uses_live_iff (tabs : T → VmsVtab) (mat : T → Bool) (calls : List (Call T W C)) :
    (∀ before after, calls = before ++ after → ∀ i, UsesLive (run step (start tabs mat) before) i) ↔
      Along step Careful (start tabs mat) calls := by
  have hstart : Bound (start tabs mat : State T W C) := by
    intro c v hv
    simp [start] at hv
  simp only [usesLive_iff]
  exact along_iff_keeps (fun (s : State T W C) i (h : Bound s) => bound_step h i) calls hstart

end Runs

/-- A scan inside a transaction, up to a row. -/
def scanInside : List (Call Unit Nat Unit) :=
  [.env (.txn (.begin_ (some 1))), .env (.update () 7 {}), .open_ () () true, .filter () {}]

def tables : Unit → VmsVtab := fun _ => {}

theorem uses_live_read_to_end :
    (call (run step (start tables fun _ => false) (scanInside.take 3)) (.filter () {})).2 = [1, 1] ∧
    ∀ before after, scanInside ++ [.next () .done, .env (.txn (.commit .ok)), .close ()] = before ++ after →
      ∀ i, UsesLive (run step (start tables fun _ => false) before) i := by
  refine ⟨rfl, (uses_live_iff _ _ _).mpr ?_⟩
  refine ⟨trivial, trivial, trivial, trivial, trivial, ?_, trivial, trivial⟩
  rintro n _ c ⟨v, k, hv, hk, _⟩
  cases hv
  change none = some k at hk
  cases hk

/-- **A commit or a rollback under an open scan**: the next xNext runs its fetch on the freed worker, and the
    xClose of the cursor frees its statement on the freed connection; also when another connection has been
    pinned since. -/
theorem outlives : let ended := run step (start tables fun _ => false) (scanInside ++ [.env (.txn (.commit .ok))])
    let aborted := run step (start tables fun _ => false) (scanInside ++ [.env (.txn (.rollback .ok))])
    let again := run step (start tables fun _ => false)
      (scanInside ++ [.env (.txn (.commit .ok)), .env (.txn (.begin_ (some 1)))])
    ¬ UsesLive ended (.next () .row) ∧ ¬ UsesLive ended (.filter () {}) ∧ ¬ UsesLive aborted (.close ()) ∧
      ¬ UsesLive again (.next () .row) := by
  refine ⟨fun h => ?_, fun h => ?_, fun h => ?_, fun h => ?_⟩
  all_goals exact absurd (h 1 (by decide)) (by decide)

end VirtualMssql.Cursors
