/-
  CANCEL — does `vms_client_cancel_all` reach everything in flight?

  A statement runs as a job of a worker: that of its connection, or, for the scan of a cursor with a
  connection of its own, that of the cursor.  A job makes its calls to the server one after another.  Around
  most of them it publishes the statement in the worker's `active_stmt`; the calls of `job_verify`, of the
  transaction's own statements and of `job_more` are made without.  `vms_client_cancel_all` holds the lock of
  the registry, walks it and cancels what the worker of each connection has published.  The registry holds
  the connections that `vms_conn_open` could add; a cursor's own connection is not in it.

  The model interleaves the workers, the callers and the walk, one step of each at a time.  A handle is one
  allocation.  A call is in flight while its worker waits for the server in it: SQLExecDirect, SQLFetch or
  SQLMoreResults; SQLGetData reads the row that is already there.

  `base_step` is what holds in every run: a worker that is in a published call has published its statement,
  and the statement is a live one of its own connection.
-/
import VirtualMssql.Lib.Run
import Mathlib.Logic.Function.Basic
import Mathlib.Data.List.Basic

namespace VirtualMssql.Cancel

open Run List Option Function

/-! ## Jobs -/

variable {K C H : Type}

/-- What a job does with a statement: a call to the server, published or not; the others do not wait. -/
inductive Op (H : Type)
  | alloc (h : H)
  | call (published : Bool) (h : H)
  | getData (h : H)
  | free (h : H)
  deriving DecidableEq

def Op.handle : Op H → H
  | .alloc h | .call _ h | .getData h | .free h => h

/-- `txn_exec_utf8`. -/
def txnExecUtf8 (h : H) : List (Op H) := [.alloc h, .call false h, .free h]

/-- `job_exec`, and `job_cursor_open`. -/
def jobExec (h : H) : List (Op H) := [.call true h]

/-- `job_fetch`, and `job_cursor_fetch`. -/
def jobFetch (h : H) (colCount : Nat) : List (Op H) := .call true h :: List.replicate colCount (.getData h)

/-- `job_more`. -/
def jobMore (h : H) : List (Op H) := [.call false h]

/-- `job_dml`; the parameters may fail to be bound. -/
def jobDml (h : H) (bound : Bool) : List (Op H) :=
  if bound then [.alloc h, .call true h, .free h] else [.alloc h, .free h]

/-- `job_verify`. -/
def jobVerify (h : H) : List (Op H) := [.alloc h, .call false h, .call false h, .getData h, .call false h, .free h]

/-- `job_txn_pin`: SET XACT_ABORT ON. -/
def jobTxnPin (h : H) : List (Op H) := txnExecUtf8 h

/-- `job_txn_begin_lazy`: @@TRANCOUNT, and the BEGIN unless there is a transaction. -/
def jobTxnBeginLazy (h h' : H) (tranOpen : Bool) : List (Op H) :=
  [.alloc h, .call false h, .call false h, .getData h, .free h] ++ if tranOpen then [] else txnExecUtf8 h'

/-- `job_txn_savepoint`. -/
def jobTxnSavepoint (h : H) : List (Op H) := [.alloc h, .call false h, .free h]

/-- `job_txn_doomed`. -/
def jobTxnDoomed (h : H) : List (Op H) := [.alloc h, .call false h, .call false h, .getData h, .free h]

/-- The jobs that call the server with a statement. -/
inductive Job (H : Type)
  | exec (h : H)
  | fetch (h : H) (colCount : Nat)
  | more (h : H)
  | dml (h : H) (bound : Bool)
  | verify (h : H)
  | txnPin (h : H)
  | txnBeginLazy (h h' : H) (tranOpen : Bool)
  | txnSavepoint (h : H)
  | txnDoomed (h : H)

def Job.ops : Job H → List (Op H)
  | .exec h => jobExec h
  | .fetch h colCount => jobFetch h colCount
  | .more h => jobMore h
  | .dml h bound => jobDml h bound
  | .verify h => jobVerify h
  | .txnPin h => jobTxnPin h
  | .txnBeginLazy h h' tranOpen => jobTxnBeginLazy h h' tranOpen
  | .txnSavepoint h => jobTxnSavepoint h
  | .txnDoomed h => jobTxnDoomed h

/-- The statement that the caller of the job brings with it. -/
def Job.needs : Job H → Option H
  | .exec h | .fetch h _ | .more h => some h
  | _ => none

/-! ## Workers -/

/-- Where a worker is in a call. -/
inductive Stage
  | ready
  | published
  | waiting
  | returned
  deriving DecidableEq

/-- `VmsWorker`: does it run, what has it published, and what is left of its job? -/
structure Worker (H : Type) where
  running : Bool := false
  activeStmt : Option H := none
  job : List (Op H) := []
  stage : Stage := .ready

/-- The statement that waits for the server. -/
def Worker.inFlight (x : Worker H) : Option H :=
  match x.job, x.stage with
  | .call _ h :: _, .waiting => some h
  | _, _ => none

/-- The statement that the next step brings to the server. -/
def Worker.enters (x : Worker H) : Option H :=
  match x.job, x.stage with
  | .call true h :: _, .published => some h
  | .call false h :: _, .ready => some h
  | _, _ => none

/-- What `active_stmt` ought to hold. -/
def Worker.publishes (x : Worker H) : Option H :=
  match x.job, x.stage with
  | .call true h :: _, .published | .call true h :: _, .waiting | .call true h :: _, .returned => some h
  | _, _ => none

variable {x : Worker H} {h : H}

/-- A stage that fits to the job. -/
def Worker.Shape (x : Worker H) : Prop :=
  x.stage = .ready ∨ ∃ p h rest, x.job = .call p h :: rest ∧ (p = false → x.stage = .waiting)

theorem inFlight_iff : x.inFlight = some h ↔ ∃ p rest, x.job = .call p h :: rest ∧ x.stage = .waiting := by
  fun_cases Worker.inFlight x
  case case1 p i rest hjob hstage => simp [hjob, hstage, eq_comm]
  case case2 hnot =>
    refine iff_of_false (by simp) ?_
    rintro ⟨p, rest, hjob, hstage⟩
    exact hnot p h rest hjob hstage

theorem publishes_head (hh : x.publishes = some h) : ∃ rest, x.job = .call true h :: rest := by
  revert hh
  fun_cases Worker.publishes x
  case case4 => simp
  all_goals
    intro hi
    cases hi
    exact ⟨_, by assumption⟩

/-- Between its operations a worker has nothing in flight and nothing published. -/
theorem of_ready (h : x.stage = .ready) : x.inFlight = none ∧ x.publishes = none ∧ x.Shape := by
  obtain ⟨running, active, job, stage⟩ := x
  obtain rfl : stage = .ready := h
  refine ⟨?_, ?_, .inl rfl⟩
  · cases job with
    | nil => rfl
    | cons op rest => cases op <;> rfl
  · cases job with
    | nil => rfl
    | cons op rest =>
      cases op with
      | call p h => cases p <;> rfl
      | _ => rfl

/-- Only in a call a worker is not ready. -/
theorem Worker.Shape.ready {x : Worker H} (h : x.Shape) (hcall : ∀ p i rest, x.job ≠ .call p i :: rest) :
    x.stage = .ready := by
  rcases h with hready | ⟨p, i, rest, hjob, _⟩
  · exact hready
  · exact absurd hjob (hcall p i rest)

theorem Worker.Shape.unpublished (h : x.Shape) {i : H} {rest : List (Op H)}
    (hjob : x.job = .call false i :: rest) : x.stage = .ready ∨ x.stage = .waiting := by
  rcases h with hready | ⟨p, i', rest', hjob', hwaiting⟩
  · exact .inl hready
  · rw [hjob] at hjob'
    exact .inr (hwaiting (by simp_all))

/-- What a step of a worker does to its call: it enters it, or has none in flight after it; and what is
    published is what ought to be. -/
structure Steps (x y : Worker H) : Prop where
  inFlight : y.inFlight = x.enters
  active : y.activeStmt = y.publishes
  shape : y.Shape
  keeps : x.enters ≠ none → y.activeStmt = x.activeStmt

/-- A step between two operations. -/
theorem steps_instant {y : Worker H} (henters : x.enters = none) (hstage : y.stage = .ready)
    (hactive : y.activeStmt = none) : Steps x y := by
  obtain ⟨hflight, hnone, hshape⟩ := of_ready hstage
  exact ⟨hflight.trans henters.symm, hactive.trans hnone.symm, hshape, fun h => absurd henters h⟩

variable [DecidableEq H]

/-- The caller of a job that uses the statement is still waiting for it. -/
def Worker.uses (x : Worker H) (h : H) : Bool := x.job.any (·.handle = h)

/-- What a failed job still does: it frees the statement it has allocated. -/
def cleanup (h : H) (rest : List (Op H)) : List (Op H) := if .free h ∈ rest then [.free h] else []

/-- The next step of the worker; the call, the allocation or the read may fail. -/
def Worker.work (x : Worker H) (ok : Bool) : Worker H :=
  match x.job with
  | [] => x
  | .alloc _ :: rest => { x with job := if ok then rest else [] }
  | .call true h :: rest =>
    match x.stage with
    | .ready => { x with activeStmt := some h, stage := .published }
    | .published => { x with stage := .waiting }
    | .waiting => { x with stage := .returned, job := .call true h :: if ok then rest else cleanup h rest }
    | .returned => { x with activeStmt := none, stage := .ready, job := rest }
  | .call false h :: rest =>
    match x.stage with
    | .waiting => { x with stage := .ready, job := if ok then rest else cleanup h rest }
    | _ => { x with stage := .waiting }
  | .getData h :: rest => { x with job := if ok then rest else cleanup h rest }
  | .free _ :: rest => { x with job := rest }

/-! ## The adapter -/

/-- The worker of a connection, or of a cursor with a connection of its own. -/
inductive WorkerId (K C : Type)
  | conn (k : K)
  | cursor (c : C)
  deriving DecidableEq

/-- A statement handle: not yet allocated, of the HDBC that has this worker, or freed. -/
inductive Status (K C : Type)
  | fresh
  | live (w : WorkerId K C)
  | freed
  deriving DecidableEq

/-- A `vms_client_cancel_all` on its way: the nodes that are left, the statement it has read and not yet
    cancelled, and what it has cancelled.  `through` are the calls that have been in flight all the time. -/
structure Walk (K C H : Type) where
  left : List K
  read : Option H := none
  issued : List H := []
  through : WorkerId K C → Option H

structure State (K C H : Type) where
  registry : List K := []
  workers : WorkerId K C → Worker H := fun _ => {}
  handles : H → Status K C := fun _ => .fresh
  walk : Option (Walk K C H) := none

/-- `vms_worker_cancel_active`, what it cancels. -/
def vmsWorkerCancelActive (x : Worker H) : Option H := x.activeStmt

omit [DecidableEq H] in
/-- `vms_client_cancel_all`, when nothing else happens: what it returns, and what it cancels. -/
def vmsClientCancelAll (s : State K C H) : Nat × List H :=
  (s.registry.length, s.registry.filterMap fun k => vmsWorkerCancelActive (s.workers (.conn k)))

/-- The statement that is about to be cancelled. -/
def State.reads (s : State K C H) : Option H := s.walk.bind (·.read)

/-- `connreg_add`; without memory for the node the connection is not registered. -/
def connregAdd (node : Bool) (k : K) (registry : List K) : List K := if node then k :: registry else registry

/-- `connreg_remove`. -/
def connregRemove [DecidableEq K] (k : K) (registry : List K) : List K := registry.erase k

/-- The steps.  `vms_conn_close` takes the connection out of the registry and then waits for its worker.
    The lock of the registry keeps `vms_conn_open` and `vms_conn_close` out while the walk is on. -/
inductive Action (K C H : Type)
  | connOpen (k : K) (node : Bool)
  | connRemove (k : K)
  | connStop (k : K)
  | cursorStart (c : C)
  | cursorStop (c : C)
  | stmtAlloc (w : WorkerId K C) (h : H)
  | stmtFree (h : H)
  | submit (w : WorkerId K C) (j : Job H)
  | work (w : WorkerId K C) (ok : Bool)
  | cancelBegin
  | cancelVisit
  | cancelIssue
  | cancelEnd

def State.setHandle (s : State K C H) (h : H) (v : Status K C) : State K C H :=
  { s with handles := update s.handles h v }

section Steps

variable [DecidableEq K] [DecidableEq C]

variable (s : State K C H) (w : WorkerId K C)

def State.setWorker (x : Worker H) : State K C H :=
  { s with workers := update s.workers w x }

/-- `vms_worker_stop` waits for the job; then the HDBC is freed, and its statements with it. -/
def State.stop : State K C H :=
  if (s.workers w).job = [] then
    { s.setWorker w {} with handles := fun h => if s.handles h = .live w then .freed else s.handles h }
  else s

/-- A call has come back: it has not been in flight all the time. -/
def State.clear : State K C H :=
  { s with walk := s.walk.map fun x => { x with through := update x.through w none } }

/-- A worker takes a step. -/
def State.work (ok : Bool) : State K C H :=
  let x := s.workers w
  match x.job with
  | .alloc h :: _ =>
    if ok && s.handles h = .fresh then (s.setHandle h (.live w)).setWorker w (x.work true)
    else s.setWorker w (x.work false)
  | .free h :: _ => (s.setHandle h .freed).setWorker w (x.work ok)
  | _ => (if x.stage = .waiting then s.clear w else s).setWorker w (x.work ok)

/-- A step that cannot be made changes nothing. -/
def step (s : State K C H) : Action K C H → State K C H
  | .connOpen k node =>
    if s.walk.isNone && !(s.workers (.conn k)).running && k ∉ s.registry then
      { s.setWorker (.conn k) { running := true } with registry := connregAdd node k s.registry }
    else s
  | .connRemove k => if s.walk.isNone then { s with registry := connregRemove k s.registry } else s
  | .connStop k => if k ∈ s.registry then s else s.stop (.conn k)
  | .cursorStart c =>
    if (s.workers (.cursor c)).running then s else s.setWorker (.cursor c) { running := true }
  | .cursorStop c => s.stop (.cursor c)
  | .stmtAlloc w h =>
    if (s.workers w).running && s.handles h = .fresh then s.setHandle h (.live w) else s
  | .stmtFree h =>
    match s.handles h with
    | .live w => if (s.workers w).uses h then s else s.setHandle h .freed
    | _ => s
  | .submit w j =>
    let x := s.workers w
    if x.running && x.job = [] && j.needs.all (fun h => s.handles h = .live w) then
      s.setWorker w { x with job := j.ops }
    else s
  | .work w ok => s.work w ok
  | .cancelBegin =>
    match s.walk with
    | none => { s with walk := some { left := s.registry, through := fun w => (s.workers w).inFlight } }
    | some _ => s
  | .cancelVisit =>
    match s.walk with
    | some ⟨k :: left, none, issued, through⟩ =>
      { s with walk := some ⟨left, vmsWorkerCancelActive (s.workers (.conn k)), issued, through⟩ }
    | _ => s
  | .cancelIssue =>
    match s.walk with
    | some ⟨left, some h, issued, through⟩ => { s with walk := some ⟨left, none, issued ++ [h], through⟩ }
    | _ => s
  | .cancelEnd =>
    match s.walk with
    | some ⟨[], none, _, _⟩ => { s with walk := none }
    | _ => s

end Steps

/-! ## What a worker keeps -/

/-- The statements of a job are there when their turn comes. -/
def Ready (st : H → Status K C) (w : WorkerId K C) : List (Op H) → Prop
  | [] => True
  | .alloc h :: rest => Ready (update st h (.live w)) w rest
  | .call _ h :: rest => st h = .live w ∧ Ready st w rest
  | .getData h :: rest => st h = .live w ∧ Ready st w rest
  | .free h :: rest => st h = .live w ∧ Ready (update st h .freed) w rest

theorem Ready.frame {w : WorkerId K C} : ∀ {ops : List (Op H)} {st st' : H → Status K C}, Ready st w ops →
    (∀ op ∈ ops, st op.handle = .live w → st' op.handle = .live w) → Ready st' w ops
  | [], _, _, _, _ => trivial
  | op :: rest, st, st', h, hkeep => by
    obtain ⟨hop, hrest⟩ := forall_mem_cons.mp hkeep
    have hupdate : ∀ (i : H) (v : Status K C), ∀ op ∈ rest, update st i v op.handle = .live w →
        update st' i v op.handle = .live w := by
      intro i v op hmem hlive
      by_cases hi : op.handle = i
      · rw [hi, update_self] at hlive ⊢
        exact hlive
      · rw [update_of_ne hi] at hlive ⊢
        exact hrest op hmem hlive
    cases op with
    | alloc i =>
      have hready : Ready (update st i (.live w)) w rest := h
      exact hready.frame (hupdate i _)
    | call p i | getData i => exact ⟨hop h.1, h.2.frame hrest⟩
    | free i => exact ⟨hop h.1, h.2.frame (hupdate i _)⟩

variable {st : H → Status K C} {w : WorkerId K C} {s : State K C H}

theorem ready_cleanup (hlive : st h = .live w) (rest : List (Op H)) : Ready st w (cleanup h rest) := by
  unfold cleanup
  split_ifs
  · exact ⟨hlive, trivial⟩
  · trivial

theorem ready_getData {st : H → Status K C} {w : WorkerId K C} {h : H} (hlive : st h = .live w) :
    ∀ n, Ready st w (List.replicate n (.getData h))
  | 0 => trivial
  | n + 1 => ⟨hlive, ready_getData hlive n⟩

/-- **Every job** finds its statements, if it is given the one it needs. -/
theorem job_ready (j : Job H) (hneeds : ∀ h, j.needs = some h → st h = .live w) : Ready st w j.ops := by
  cases j with
  | exec h | more h => exact ⟨hneeds h rfl, trivial⟩
  | fetch h n => exact ⟨hneeds h rfl, ready_getData (hneeds h rfl) n⟩
  | dml h bound => cases bound <;> simp [Job.ops, jobDml, Ready]
  | verify h => simp [Job.ops, jobVerify, Ready]
  | txnPin h => simp [Job.ops, jobTxnPin, txnExecUtf8, Ready]
  | txnBeginLazy h h' tranOpen => cases tranOpen <;> simp [Job.ops, jobTxnBeginLazy, txnExecUtf8, Ready]
  | txnSavepoint h => simp [Job.ops, jobTxnSavepoint, Ready]
  | txnDoomed h => simp [Job.ops, jobTxnDoomed, Ready]

/-- What holds of a worker: `active_stmt` is the statement of a published call from before it is made till
    after it has come back. -/
structure Worker.Ok (st : H → Status K C) (w : WorkerId K C) (x : Worker H) : Prop where
  active : x.activeStmt = x.publishes
  shape : x.Shape
  ready : Ready st w x.job

theorem Worker.Ok.inFlight_live (hx : x.Ok st w) (hh : x.inFlight = some h) : st h = .live w := by
  obtain ⟨p, rest, hjob, _⟩ := inFlight_iff.mp hh
  have hready := hx.ready
  rw [hjob] at hready
  exact hready.1

theorem Worker.Ok.active_live (hx : x.Ok st w) (hh : x.activeStmt = some h) : st h = .live w := by
  rw [hx.active] at hh
  obtain ⟨rest, hjob⟩ := publishes_head hh
  have hready := hx.ready
  rw [hjob] at hready
  exact hready.1

theorem work_steps (hshape : x.Shape) (hactive : x.activeStmt = x.publishes) (ok : Bool) : Steps x (x.work ok) := by
  obtain ⟨running, active, job, stage⟩ := x
  cases job with
  | nil =>
    obtain rfl : stage = .ready := hshape.ready (by simp)
    exact steps_instant rfl rfl hactive
  | cons op rest =>
    cases op
    case call p h =>
      cases p with
      | true =>
        cases stage with
        | ready => exact ⟨rfl, rfl, .inr ⟨true, h, rest, rfl, by simp⟩, by simp [Worker.enters]⟩
        | published => exact ⟨rfl, hactive, .inr ⟨true, h, rest, rfl, by simp⟩, fun _ => rfl⟩
        | waiting => exact ⟨rfl, hactive, .inr ⟨true, h, _, rfl, by simp⟩, by simp [Worker.enters]⟩
        | returned => exact steps_instant rfl rfl rfl
      | false =>
        rcases hshape.unpublished rfl with hstage | hstage
        · obtain rfl : stage = .ready := hstage
          exact ⟨rfl, hactive, .inr ⟨false, h, rest, rfl, fun _ => rfl⟩, fun _ => rfl⟩
        · obtain rfl : stage = .waiting := hstage
          exact steps_instant rfl rfl hactive
    all_goals
      obtain rfl : stage = .ready := hshape.ready (by simp)
      exact steps_instant rfl rfl hactive

/-! ## What always holds -/

/-- The base of all: every worker is in order, no connection is registered twice, the walk goes over registered
    connections, and what it has read is a statement of one of them unless it was freed since. -/
structure Base (s : State K C H) : Prop where
  worker : ∀ w, (s.workers w).Ok s.handles w
  nodup : s.registry.Nodup
  left : ∀ x, s.walk = some x → ∀ k ∈ x.left, k ∈ s.registry
  reads : ∀ h, s.reads = some h → s.handles h = .freed ∨ ∃ k ∈ s.registry, s.handles h = .live (.conn k)

theorem Worker.Ok.frame {st st' : H → Status K C} {w : WorkerId K C} {x : Worker H} (h : x.Ok st w)
    (hkeep : ∀ op ∈ x.job, st op.handle = .live w → st' op.handle = .live w) : x.Ok st' w :=
  ⟨h.active, h.shape, h.ready.frame hkeep⟩

/-- A worker with nothing to do. -/
theorem ok_idle (hjob : x.job = []) (hstage : x.stage = .ready) (hactive : x.activeStmt = none) : x.Ok st w := by
  obtain ⟨_, hnone, hshape⟩ := of_ready hstage
  exact ⟨hactive.trans hnone.symm, hshape, hjob ▸ trivial⟩

/-- **The step of a worker**, where the statements are left as they are. -/
theorem work_ok (h : x.Ok st w) (ok : Bool) (halloc : ∀ i rest, x.job ≠ .alloc i :: rest)
    (hfree : ∀ i rest, x.job ≠ .free i :: rest) : (x.work ok).Ok st w := by
  have hsteps := work_steps h.shape h.active ok
  refine ⟨hsteps.active, hsteps.shape, ?_⟩
  have hready := h.ready
  obtain ⟨running, active, job, stage⟩ := x
  cases job with
  | nil => exact hready
  | cons op rest =>
    cases op with
    | alloc i => exact absurd rfl (halloc i rest)
    | free i => exact absurd rfl (hfree i rest)
    | getData i =>
      cases ok with
      | true => exact hready.2
      | false => exact ready_cleanup hready.1 rest
    | call p i =>
      have hrest : Ready st w (if ok then rest else cleanup i rest) := by
        cases ok with
        | true => exact hready.2
        | false => exact ready_cleanup hready.1 rest
      cases p with
      | true =>
        cases stage with
        | ready | published => exact hready
        | waiting => exact ⟨hready.1, hrest⟩
        | returned => exact hready.2
      | false =>
        cases stage with
        | waiting => exact hrest
        | _ => exact hready

/-- A statement is allocated. -/
theorem Base.alloc (h : Base s) {i : H} (hfresh : s.handles i = .fresh) : Base (s.setHandle i (.live w)) := by
  have hother : ∀ j, s.handles j ≠ .fresh → (s.setHandle i (.live w)).handles j = s.handles j := by
    intro j hj
    refine update_of_ne ?_ _ _
    rintro rfl
    exact hj hfresh
  refine ⟨fun w' => (h.worker w').frame fun op _ hlive => ?_, h.nodup, h.left, fun j hj => ?_⟩
  · rw [hother _ (by simp [hlive]), hlive]
  · rcases h.reads j hj with hfreed | ⟨k, hk, hlive⟩
    · exact .inl (by rw [hother j (by simp [hfreed]), hfreed])
    · exact .inr ⟨k, hk, by rw [hother j (by simp [hlive]), hlive]⟩

variable {f : WorkerId K C → Worker H}

/-- A statement is freed. -/
theorem Base.free (h : Base s) {i : H}
    (hf : ∀ w, (f w).Ok (update s.handles i .freed) w) : Base { s.setHandle i .freed with workers := f } := by
  refine ⟨hf, h.nodup, h.left, fun j hj => ?_⟩
  by_cases hji : j = i
  · exact .inl (by rw [hji]; exact update_self ..)
  · show update s.handles i .freed j = .freed ∨ ∃ k ∈ s.registry, update s.handles i .freed j = _
    rw [update_of_ne hji]
    exact h.reads j hj

/-- The registry changes, while there is no walk. -/
theorem Base.register (h : Base s) {registry : List K} (hnodup : registry.Nodup) (hwalk : s.walk = none) :
    Base { s with registry } := by
  refine ⟨h.worker, hnodup, fun x hx => ?_, fun i hi => ?_⟩
  · exact absurd (hwalk.symm.trans hx) (by simp)
  · have hnone : s.reads = none := by rw [State.reads, hwalk]; rfl
    exact absurd (hnone.symm.trans hi) (by simp)

/-- The base does not look at what the walk has done. -/
theorem Base.walk {s' : State K C H} (h : Base s) (hworkers : s'.workers = s.workers)
    (hhandles : s'.handles = s.handles) (hregistry : s'.registry = s.registry)
    (hleft : ∀ x, s'.walk = some x → ∀ k ∈ x.left, k ∈ s.registry)
    (hreads : ∀ i, s'.reads = some i → s.reads = some i ∨ ∃ k ∈ s.registry, (s.workers (.conn k)).activeStmt = some i) :
    Base s' := by
  refine ⟨by rw [hworkers, hhandles]; exact h.worker, hregistry ▸ h.nodup,
    by rw [hregistry]; exact hleft, fun i hi => ?_⟩
  rw [hregistry, hhandles]
  rcases hreads i hi with hold | ⟨k, hk, hactive⟩
  · exact h.reads i hold
  · exact .inr ⟨k, hk, (h.worker (.conn k)).active_live hactive⟩

section Moves

variable [DecidableEq K] [DecidableEq C]

omit [DecidableEq H] in
/-- What holds of every worker when one has moved. -/
theorem workers_moved {R : WorkerId K C → Worker H → Prop}
    (hx : R w x) (hold : ∀ w', w' ≠ w → R w' (f w')) (w' : WorkerId K C) : R w' (update f w x w') := by
  by_cases hw : w' = w
  · subst hw
    rw [update_self]
    exact hx
  · rw [update_of_ne hw]
    exact hold w' hw

/-- A worker is started, is given a job, or goes on; the statements stay as they are. -/
theorem Base.setWorker {s : State K C H} (h : Base s) {w : WorkerId K C} {x : Worker H} (hx : x.Ok s.handles w) :
    Base (s.setWorker w x) where
  worker := workers_moved (R := fun w x => x.Ok s.handles w) hx fun w' _ => h.worker w'
  nodup := h.nodup
  left := h.left
  reads := h.reads

/-- A worker is stopped, and its statements go. -/
theorem Base.stop {s : State K C H} (h : Base s) {w : WorkerId K C} (hw : ∀ k ∈ s.registry, w ≠ .conn k) :
    Base (s.stop w) := by
  unfold State.stop
  split_ifs with hjob
  · refine ⟨workers_moved (R := fun w' x => x.Ok _ w') (ok_idle rfl rfl rfl) fun w' hne =>
      (h.worker w').frame ?_, h.nodup, h.left, ?_⟩
    · intro op _ hlive
      have hother : s.handles op.handle ≠ .live w := by
        rw [hlive]
        simpa using hne
      exact (if_neg hother).trans hlive
    · intro i hi
      rcases h.reads i hi with hfreed | ⟨k, hk, hlive⟩
      · exact .inl (by simp [hfreed])
      · have hother : s.handles i ≠ .live w := by
          rw [hlive]
          simpa using (hw k hk).symm
        exact .inr ⟨k, hk, (if_neg hother).trans hlive⟩
  · exact h

omit [DecidableEq H] in
theorem clear_reads (s : State K C H) (w : WorkerId K C) : (s.clear w).reads = s.reads := by
  unfold State.reads State.clear
  cases s.walk <;> rfl

theorem Base.clear {s : State K C H} (h : Base s) (w : WorkerId K C) : Base (s.clear w) := by
  refine h.walk rfl rfl rfl (fun x hx => ?_) fun i hi => .inl (by rw [← clear_reads s w]; exact hi)
  obtain ⟨y, hy, rfl⟩ := map_eq_some_iff.mp hx
  exact h.left y hy

theorem Base.work {s : State K C H} (h : Base s) (w : WorkerId K C) (ok : Bool) : Base (s.work w ok) := by
  have hx := h.worker w
  have hready := hx.ready
  have hsteps := fun ok => work_steps hx.shape hx.active ok
  fun_cases State.work s w ok
  case case1 _ i rest hjob hok =>
    rw [hjob] at hready
    refine (h.alloc (by simpa using (Bool.and_eq_true_iff.mp hok).2)).setWorker
      ⟨(hsteps true).active, (hsteps true).shape, ?_⟩
    simp only [Worker.work, hjob]
    exact hready
  case case2 hjob _ =>
    refine h.setWorker ⟨(hsteps false).active, (hsteps false).shape, ?_⟩
    simp only [Worker.work, hjob]
    trivial
  case case3 _ i rest hjob =>
    rw [hjob] at hready
    refine h.free (workers_moved (R := fun w x => x.Ok _ w) ⟨(hsteps ok).active, (hsteps ok).shape, ?_⟩
      fun w' hne => ?_)
    · simp only [Worker.work, hjob]
      exact hready.2
    · refine (h.worker w').frame fun op _ hlive => ?_
      have hother : op.handle ≠ i := by
        rintro heq
        rw [heq, hready.1] at hlive
        exact hne (Status.live.inj hlive).symm
      rw [update_of_ne hother, hlive]
  case case4 _ halloc hfree =>
    -- a call or a read leaves the statements as they are
    have hnext := work_ok hx ok halloc hfree
    split_ifs
    · exact (h.clear w).setWorker hnext
    · exact h.setWorker hnext

/-- **Every step keeps the base.** -/
theorem base_step (h : Base s) (i : Action K C H) : Base (step s i) := by
  fun_cases step s i
  -- `vms_conn_open` and `vms_conn_close`
  case case1 k node hopen _ =>
    simp only [Bool.and_eq_true, decide_eq_true_eq] at hopen
    have hnext := h.setWorker (w := .conn k) (x := { running := true }) (ok_idle rfl rfl rfl)
    cases node with
    | false => exact hnext
    | true => exact hnext.register (nodup_cons.mpr ⟨hopen.2, h.nodup⟩) (isNone_iff_eq_none.mp hopen.1.1)
  case case3 k hwalk => exact h.register (h.nodup.erase k) (isNone_iff_eq_none.mp hwalk)
  case case6 k hk => exact h.stop fun k' hk' heq => hk ((WorkerId.conn.inj heq) ▸ hk')
  -- a cursor
  case case8 => exact h.setWorker (ok_idle rfl rfl rfl)
  case case9 => exact h.stop (by simp)
  -- statements
  case case10 w i hfresh => exact h.alloc (by simpa using (Bool.and_eq_true_iff.mp hfresh).2)
  case case13 i w hi huses =>
    refine h.free fun w' => (h.worker w').frame fun op hop hlive => ?_
    have hne : op.handle ≠ i := by
      rintro heq
      obtain rfl : w' = w := by simpa [heq, hi, eq_comm] using hlive
      exact huses (any_eq_true.mpr ⟨op, hop, by simpa using heq⟩)
    rw [update_of_ne hne, hlive]
  -- jobs
  case case15 w j _ hsubmit =>
    simp only [Bool.and_eq_true, decide_eq_true_eq] at hsubmit
    have hx := h.worker w
    have hjob : (s.workers w).job = [] := hsubmit.1.2
    have hstage := hx.shape.ready (by simp [hjob])
    have hactive := hx.active.trans (of_ready hstage).2.1
    obtain ⟨_, hnone, hshape⟩ := of_ready (x := { s.workers w with job := j.ops }) hstage
    refine h.setWorker ⟨hactive.trans hnone.symm, hshape, job_ready j fun i hi => ?_⟩
    simpa [hi] using hsubmit.2
  case case17 w ok => exact h.work w ok
  -- the walk
  case case18 hwalk =>
    refine h.walk rfl rfl rfl (fun x hx => ?_) (by simp [State.reads])
    rw [← some.inj hx]
    exact fun k hk => hk
  case case20 k left issued through hwalk =>
    have hleft := forall_mem_cons.mp (h.left _ hwalk)
    refine h.walk rfl rfl rfl (fun x hx => ?_) fun i hi => .inr ⟨k, hleft.1, hi⟩
    rw [← some.inj hx]
    exact hleft.2
  case case22 left i issued through hwalk =>
    refine h.walk rfl rfl rfl (fun x hx => ?_) (by simp [State.reads])
    rw [← some.inj hx]
    exact h.left { left, read := some i, issued, through } hwalk
  case case24 => exact h.walk rfl rfl rfl (by simp) (by simp [State.reads])
  all_goals exact h

end Moves

end VirtualMssql.Cancel
