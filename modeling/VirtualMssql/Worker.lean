/-
  THE WORKER — `vms_odbc_worker.c`: one thread that runs the jobs of any number of callers.

  The jobs hang in a linked queue.  A lock protects the queue, the stop flag and the jobs' done flags; two
  condition variables stand for "there is something to do" (the worker sleeps on it) and "a job is done"
  (the callers of `vms_worker_run` sleep on it).  The model has the place of every thread in its code, one
  step a statement: two threads may stand between any two statements, and only the lock keeps one from
  seeing the queue while another is rewriting it.

  `vms_worker_stop` frees the worker when its thread has ended, and a caller may still be on its way
  through the code.  What it then does to the freed memory cannot be relied on: it enters the lock without
  waiting and its job is not linked.

  A job is one allocation, and jobs are numbered by it.  The lists at the end of the memory say what has
  happened: the jobs in the order in which they were queued, taken, started and finished, and those whose
  caller was told.  A job is any code that ends.
-/
import VirtualMssql.Lib.Monitor

namespace VirtualMssql.Worker

open Monitor Function

/-! ## The code -/

/-- Where the worker thread is in `worker_main`. -/
inductive WorkerPc
  | enter
  | check
  | woken
  | take
  | takeTail (j : Nat)
  | leave (j : Option Nat)
  | leaveExit
  | begin_ (j : Nat)
  | running (j : Nat)
  | after (j : Nat)
  | enterDone (j : Nat)
  | setDone (j : Nat)
  | wakeDone
  | leaveDone
  | exited
  deriving DecidableEq

/-- Where a caller is: in `worker_push`, on the way to wait for the job or not; in the wait of
    `vms_worker_run`; or in `vms_job_wait`. -/
inductive CallerPc
  | idle
  | enter (j : Nat) (wait : Bool)
  | link (j : Nat) (wait : Bool)
  | linkTail (j : Nat) (wait : Bool)
  | leave (j : Nat) (wait : Bool)
  | wake (j : Nat) (wait : Bool)
  | enterWait (j : Nat)
  | check (j : Nat)
  | woken (j : Nat)
  | leaveWait (j : Nat)
  | poll (j : Nat)
  deriving DecidableEq

/-- Where the caller of `vms_worker_stop` is. -/
inductive StopPc
  | idle
  | enter
  | set
  | leave
  | wake
  | join
  | free
  | done
  deriving DecidableEq

/-- The condition variables `cv_push` and `cv_done`. -/
inductive Cond
  | push
  | done
  deriving DecidableEq

/-- `VmsWorker` less its lock and conditions, its jobs, whether the thread has ended and the worker was freed,
    and what has happened. -/
structure Memory where
  head : Option Nat := none
  tail : Option Nat := none
  next : Nat → Option Nat := fun _ => none
  done : Nat → Bool := fun _ => false
  stopping : Bool := false
  inJob : Bool := false
  ended : Bool := false
  freed : Bool := false
  made : Nat := 0
  queued : List Nat := []
  taken : List Nat := []
  started : List Nat := []
  finished : List Nat := []
  returned : List Nat := []

variable (m : Memory)

/-- `worker_main`. -/
def workerMain : WorkerPc → Option (Stmt WorkerPc Memory Cond)
  | .enter => some { op := .acquire, pc := .check, mem := m }
  | .check =>
    if m.head.isNone && !m.stopping then some { op := .sleep .push, pc := .woken, mem := m }
    else some { pc := .take, mem := m }
  | .woken => some { op := .acquire, pc := .check, mem := m }
  | .take =>
    match m.head with
    | some j => some { pc := .takeTail j, mem := { m with head := m.next j, taken := m.taken ++ [j] } }
    | none => some { pc := if m.stopping then .leaveExit else .leave none, mem := m }
  | .takeTail j =>
    some { pc := .leave (some j), mem := { m with tail := if m.head.isNone then none else m.tail } }
  | .leave (some j) => some { op := .release, pc := .begin_ j, mem := m }
  | .leave none => some { op := .release, pc := .enter, mem := m }
  | .leaveExit => some { op := .release, pc := .exited, mem := { m with ended := true } }
  | .begin_ j => some { pc := .running j, mem := { m with inJob := true, started := m.started ++ [j] } }
  | .running j => some { pc := .after j, mem := { m with finished := m.finished ++ [j] } }
  | .after j => some { pc := .enterDone j, mem := { m with inJob := false } }
  | .enterDone j => some { op := .acquire, pc := .setDone j, mem := m }
  | .setDone j => some { pc := .wakeDone, mem := { m with done := update m.done j true } }
  | .wakeDone => some { op := .signal .done, pc := .leaveDone, mem := m }
  | .leaveDone => some { op := .release, pc := .enter, mem := m }
  | .exited => none

/-- The first two assignments of `worker_push` under the lock: the job is linked … -/
def Memory.link (j : Nat) : Memory :=
  match m.tail with
  | some k => { m with next := update m.next k (some j), queued := m.queued ++ [j] }
  | none => { m with head := some j, queued := m.queued ++ [j] }

/-- A caller, in `worker_push` and behind it. -/
def callerMain : CallerPc → Option (Stmt CallerPc Memory Cond)
  | .idle => none
  | .enter j wait => some { op := .acquire, pc := .link j wait, mem := m }
  | .link j wait => some { pc := .linkTail j wait, mem := if m.freed then m else m.link j }
  | .linkTail j wait => some { pc := .leave j wait, mem := if m.freed then m else { m with tail := some j } }
  | .leave j wait => some { op := .release, pc := .wake j wait, mem := m }
  | .wake j wait => some { op := .signal .push, pc := if wait then .enterWait j else .idle, mem := m }
  | .enterWait j => some { op := .acquire, pc := .check j, mem := m }
  | .check j =>
    if m.done j then some { pc := .leaveWait j, mem := m }
    else some { op := .sleep .done, pc := .woken j, mem := m }
  | .woken j => some { op := .acquire, pc := .check j, mem := m }
  | .leaveWait j => some { op := .release, pc := .idle, mem := { m with returned := m.returned ++ [j] } }
  | .poll j =>
    if m.done j then some { pc := .idle, mem := { m with returned := m.returned ++ [j] } }
    else some { pc := .poll j, mem := m }

/-- `vms_worker_stop`. -/
def stopMain : StopPc → Option (Stmt StopPc Memory Cond)
  | .idle => none
  | .enter => some { op := .acquire, pc := .set, mem := m }
  | .set => some { pc := .leave, mem := { m with stopping := true } }
  | .leave => some { op := .release, pc := .wake, mem := m }
  | .wake => some { op := .signal .push, pc := .join, mem := m }
  | .join => if m.ended then some { pc := .free, mem := m } else none
  | .free => some { pc := .done, mem := { m with freed := true } }
  | .done => none

/-- `vms_worker_run` and `vms_worker_post`, with or without memory for the job; `vms_job_wait`; and
    `vms_worker_stop`. -/
inductive Call
  | run (alloc : Bool)
  | post (alloc : Bool)
  | wait (j : Nat)
  | stop

/-- A new job. -/
def Memory.alloc : Memory :=
  { m with
    next := update m.next m.made none
    done := update m.done m.made false
    made := m.made + 1 }

/-- A caller that is not in a call makes one. -/
def callerCall : Call → CallerPc → Option (CallerPc × Memory)
  | .run alloc, .idle => some (if alloc then (.enter m.made true, m.alloc) else (.idle, m))
  | .post alloc, .idle => some (if alloc then (.enter m.made false, m.alloc) else (.idle, m))
  | .wait j, .idle => some (.poll j, m)
  | _, _ => none

def stopCall : Call → StopPc → Option (StopPc × Memory)
  | .stop, .idle => some (.enter, m)
  | _, _ => none

/-! ## The threads together -/

inductive Thread (T : Type)
  | worker
  | caller (t : T)
  | stopper
  deriving DecidableEq

variable {T : Type}

abbrev Pc : Thread T → Type
  | .worker => WorkerPc
  | .caller _ => CallerPc
  | .stopper => StopPc

/-- Any number of callers, one that stops, and the worker. -/
def code : Code (Pc : Thread T → Type) Memory Cond Call where
  stmt
    | .worker, pc, m => workerMain m pc
    | .caller _, pc, m => callerMain m pc
    | .stopper, pc, m => stopMain m pc
  call
    | .worker, _, _, _ => none
    | .caller _, i, pc, m => callerCall m i pc
    | .stopper, i, pc, m => stopCall m i pc
  gone m := m.freed

abbrev System (T : Type) := State (Pc : Thread T → Type) Memory Cond

/-- `vms_worker_start`. -/
def start : System T where
  mem := {}
  pc
    | .worker => .enter
    | .caller _ => .idle
    | .stopper => .idle

/-! ## The lock -/

/-- Does the thread stand between EnterCriticalSection and LeaveCriticalSection? -/
def WorkerPc.inside : WorkerPc → Bool
  | .check | .take | .takeTail _ | .leave _ | .leaveExit | .setDone _ | .wakeDone | .leaveDone => true
  | _ => false

def CallerPc.inside : CallerPc → Bool
  | .link _ _ | .linkTail _ _ | .leave _ _ | .check _ | .leaveWait _ => true
  | _ => false

def StopPc.inside : StopPc → Bool
  | .set | .leave => true
  | _ => false

def inside : (x : Thread T) → Pc x → Bool
  | .worker, pc => pc.inside
  | .caller _, pc => pc.inside
  | .stopper, pc => pc.inside

/-- How many statements are left inside. -/
def WorkerPc.depth : WorkerPc → Nat
  | .check => 4
  | .take => 3
  | .takeTail _ => 2
  | .leave _ => 1
  | .leaveExit => 1
  | .setDone _ => 3
  | .wakeDone => 2
  | .leaveDone => 1
  | _ => 0

def CallerPc.depth : CallerPc → Nat
  | .link _ _ => 3
  | .linkTail _ _ => 2
  | .leave _ _ => 1
  | .check _ => 2
  | .leaveWait _ => 1
  | _ => 0

def StopPc.depth : StopPc → Nat
  | .set => 2
  | .leave => 1
  | _ => 0

def depth : (x : Thread T) → Pc x → Nat
  | .worker, pc => pc.depth
  | .caller _, pc => pc.depth
  | .stopper, pc => pc.depth

/-- A statement of a bracketed code. -/
def Brackets {P : Type} (inside : P → Bool) (pc : P) (m : Memory) (e : Stmt P Memory Cond) : Prop :=
  (m.freed = true → e.mem.freed = true) ∧ e.op.Crosses (inside pc) (inside e.pc)

variable {m} {e : Stmt WorkerPc Memory Cond}

theorem workerMain_brackets {pc : WorkerPc} (h : workerMain m pc = some e) : Brackets WorkerPc.inside pc m e := by
  revert h
  fun_cases workerMain m pc
  all_goals rintro ⟨⟩
  case case6 => cases m.stopping <;> simp [Brackets, Op.Crosses, WorkerPc.inside]
  all_goals simp [Brackets, Op.Crosses, WorkerPc.inside]

variable {pc : CallerPc}

theorem callerMain_brackets {e : Stmt CallerPc Memory Cond} (h : callerMain m pc = some e) :
    Brackets CallerPc.inside pc m e := by
  revert h
  fun_cases callerMain m pc
  all_goals rintro ⟨⟩
  case case6 j wait => cases wait <;> simp [Brackets, Op.Crosses, CallerPc.inside]
  all_goals simp +contextual [Brackets, Op.Crosses, CallerPc.inside]

theorem stopMain_brackets {pc : StopPc} {e : Stmt StopPc Memory Cond} (h : stopMain m pc = some e) :
    Brackets StopPc.inside pc m e := by
  revert h
  fun_cases stopMain m pc
  all_goals rintro ⟨⟩
  all_goals simp [Brackets, Op.Crosses, StopPc.inside]

/-- What a caller in no call may do: begin with a new job, come back at once, or begin to poll. -/
def Begins (m : Memory) (pc : CallerPc) (e : CallerPc × Memory) : Prop :=
  pc = .idle ∧ ((∃ wait, e = (.enter m.made wait, m.alloc)) ∨ e = (.idle, m) ∨ ∃ j, e = (.poll j, m))

theorem callerCall_cases {i : Call} {e : CallerPc × Memory} (h : callerCall m i pc = some e) : Begins m pc e := by
  revert h
  fun_cases callerCall m i pc
  all_goals rintro ⟨⟩
  case case1 alloc => cases alloc <;> simp [Begins]
  case case2 alloc => cases alloc <;> simp [Begins]
  case case3 j => exact ⟨rfl, .inr (.inr ⟨j, rfl⟩)⟩

theorem stopCall_cases {i : Call} {pc : StopPc} {e : StopPc × Memory} (h : stopCall m i pc = some e) :
    pc = .idle ∧ e = (.enter, m) := by
  revert h
  fun_cases stopCall m i pc
  all_goals rintro ⟨⟩
  exact ⟨rfl, rfl⟩

/-- A caller moves: by a statement, or into a call. -/
def CallerMoves (m : Memory) (pc pc' : CallerPc) (m' : Memory) : Prop :=
  (∃ op, callerMain m pc = some ⟨op, pc', m'⟩) ∨ Begins m pc (pc', m')

/-- So does the one that stops. -/
def StopMoves (m : Memory) (pc pc' : StopPc) (m' : Memory) : Prop :=
  (∃ op, stopMain m pc = some ⟨op, pc', m'⟩) ∨ (pc = .idle ∧ pc' = .enter ∧ m' = m)

theorem code_bracketed : Bracketed (code : Code (Pc : Thread T → Type) Memory Cond Call) inside where
  gone x pc m e h := by
    cases x with
    | worker => exact (workerMain_brackets h).1
    | caller t => exact (callerMain_brackets h).1
    | stopper => exact (stopMain_brackets h).1
  stmt x pc m e h := by
    cases x with
    | worker => exact (workerMain_brackets h).2
    | caller t => exact (callerMain_brackets h).2
    | stopper => exact (stopMain_brackets h).2
  call x i pc m e h := by
    cases x with
    | worker => simp [code] at h
    | caller t =>
      obtain ⟨rfl, ⟨wait, rfl⟩ | rfl | ⟨j, rfl⟩⟩ := callerCall_cases h <;> exact ⟨rfl, rfl, fun hf => hf⟩
    | stopper =>
      obtain ⟨rfl, rfl⟩ := stopCall_cases h
      exact ⟨rfl, rfl, fun hf => hf⟩

theorem workerMain_falls {pc : WorkerPc} (h : workerMain m pc = some e) :
    pc.inside = true → e.pc.inside = true → e.pc.depth < pc.depth := by
  revert h
  fun_cases workerMain m pc
  all_goals rintro ⟨⟩
  case case6 => cases m.stopping <;> simp [WorkerPc.depth]
  all_goals simp [WorkerPc.inside, WorkerPc.depth]

theorem callerMain_falls {e : Stmt CallerPc Memory Cond} (h : callerMain m pc = some e) :
    pc.inside = true → e.pc.inside = true → e.pc.depth < pc.depth := by
  revert h
  fun_cases callerMain m pc
  all_goals rintro ⟨⟩
  all_goals simp [CallerPc.inside, CallerPc.depth]

theorem stopMain_falls {pc : StopPc} {e : Stmt StopPc Memory Cond} (h : stopMain m pc = some e) :
    pc.inside = true → e.pc.inside = true → e.pc.depth < pc.depth := by
  revert h
  fun_cases stopMain m pc
  all_goals rintro ⟨⟩
  all_goals simp [StopPc.inside, StopPc.depth]

theorem code_leaves : Leaves (code : Code (Pc : Thread T → Type) Memory Cond Call) inside depth where
  stmt x pc m h := by
    cases x with
    | worker =>
      show ∃ e, workerMain m pc = some e
      revert h
      fun_cases workerMain m pc <;> simp [inside, WorkerPc.inside]
    | caller t =>
      show ∃ e, callerMain m pc = some e
      revert h
      fun_cases callerMain m pc <;> simp [inside, CallerPc.inside]
    | stopper =>
      show ∃ e, stopMain m pc = some e
      revert h
      fun_cases stopMain m pc <;> simp [inside, StopPc.inside]
  falls x pc m e h := by
    cases x with
    | worker => exact workerMain_falls h
    | caller t => exact callerMain_falls h
    | stopper => exact stopMain_falls h

variable [DecidableEq T]

theorem reachable_mutex {s : System T} (h : Reachable code start s) : Mutex code inside s := by
  refine h.keeps (I := Mutex code inside) ⟨fun _ x => ?_, fun x c hx => ?_⟩ fun s a s' _ hs hstep =>
    hs.step code_bracketed hstep
  · cases x <;> simp [start, inside, WorkerPc.inside, CallerPc.inside, StopPc.inside]
  · simp [start] at hx

/-- **The rule of the system**: an invariant is kept by what each thread does. -/
theorem reachable_rule {J : Memory → ((x : Thread T) → Pc x) → Prop} {s₀ s : System T} (h : Reachable code s₀ s)
    (hstart : J s₀.mem s₀.pc)
    (hworker : ∀ s, Reachable code s₀ s → J s.mem s.pc → ∀ e, workerMain s.mem (s.pc .worker) = some e →
      J e.mem (update s.pc .worker e.pc))
    (hcaller : ∀ s, Reachable code s₀ s → J s.mem s.pc → ∀ t p m', CallerMoves s.mem (s.pc (.caller t)) p m' →
      J m' (update s.pc (.caller t) p))
    (hstopper : ∀ s, Reachable code s₀ s → J s.mem s.pc → ∀ p m', StopMoves s.mem (s.pc .stopper) p m' →
      J m' (update s.pc .stopper p)) : J s.mem s.pc := by
  refine h.holds hstart ?_ ?_
  · intro s hs hJ x e he
    cases x with
    | worker => exact hworker s hs hJ e he
    | caller t => exact hcaller s hs hJ t e.pc e.mem (.inl ⟨e.op, he⟩)
    | stopper => exact hstopper s hs hJ e.pc e.mem (.inl ⟨e.op, he⟩)
  · intro s hs hJ x i e he
    cases x with
    | worker => simp [code] at he
    | caller t => exact hcaller s hs hJ t e.1 e.2 (.inr (callerCall_cases he))
    | stopper =>
      obtain ⟨hidle, rfl⟩ := stopCall_cases he
      exact hstopper s hs hJ .enter s.mem (.inr ⟨hidle, rfl, rfl⟩)

end VirtualMssql.Worker
