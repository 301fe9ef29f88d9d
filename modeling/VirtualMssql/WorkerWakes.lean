/-
  THE WORKER WAKES — is a caller of `vms_worker_run` always woken when its job is done?

  All callers sleep on the one `cv_done`, each for a job of its own, and the worker wakes one of them, whichever
  the system picks.  If that is another one, it finds its own job not done and goes back to sleep, and the wake
  is spent: the caller whose job is done sleeps on.  When the queue runs empty nobody will ever wake it.

  A caller is stranded when it sleeps, its job is done, and the worker is not just about to signal.
  `stranded_iff`: nobody is ever stranded exactly if every signal goes to the caller whose job has been done;
  where no two callers sleep at a time this is so.
-/
import VirtualMssql.WorkerServes
import VirtualMssql.Lib.Run

namespace VirtualMssql.Worker

open Monitor Run Function List

variable {T : Type}

/-- The caller sleeps for a job that is done. -/
def Oversleeps (s : System T) (t : T) : Prop :=
  (Thread.caller t, Cond.done) ∈ s.asleep ∧ ∃ j, s.pc (.caller t) = .woken j ∧ s.mem.done j = true

/-- … and no wake is pending. -/
def Stranded (s : System T) : Prop := s.pc .worker ≠ .wakeDone ∧ ∃ t, Oversleeps s t

/-- **A lost wake-up**: the queue is empty, the worker waits for a job, and a caller sleeps for a job that is
    done. -/
def LostWakeup (s : System T) : Prop :=
  s.mem.head = none ∧ (Thread.worker, Cond.push) ∈ s.asleep ∧ ∃ t, Oversleeps s t

variable [DecidableEq T] {m : Memory}

/-- The worker's signal, if it is one, goes to the caller that sleeps for a job that is done. -/
def Directed (s : System T) (a : Action (Thread T) Call) : Prop :=
  ∀ pick, a = .act .worker pick → s.pc .worker = .wakeDone → (step code s a).isSome = true →
    ∀ t, Oversleeps s t → pick = some (.caller t)

/-! ## Who marks a job as done -/

theorem workerMain_marks {pc : WorkerPc} {e : Stmt WorkerPc Memory Cond} (he : workerMain m pc = some e) :
    e.mem.done = m.done ∨ e.pc = .wakeDone := by
  revert he
  fun_cases workerMain m pc
  all_goals rintro ⟨⟩
  all_goals simp

variable {pc : CallerPc}

/-- A caller falls asleep for a job that is not done. -/
theorem callerMain_sleeps {e : Stmt CallerPc Memory Cond} (he : callerMain m pc = some e) {c : Cond}
    (hop : e.op = .sleep c) {j : Nat} (hj : e.pc = .woken j) : e.mem.done j = false := by
  revert he
  fun_cases callerMain m pc
  all_goals rintro ⟨⟩
  case case9 i hdone =>
    obtain rfl : i = j := CallerPc.woken.inj hj
    simpa using hdone
  all_goals cases hop

variable {s s' : System T} {a : Action (Thread T) Call}

/-- **Only the worker marks a job**, and then stands before its signal. -/
theorem marks_step (hstep : step code s a = some s') {j : Nat}
    (hdone : s'.mem.done j = true) : s.mem.done j = true ∨ s'.pc .worker = .wakeDone := by
  rcases step_cases hstep with ⟨x, pick, e, rfl, _, he, hdoes⟩ | ⟨x, rfl, _, rfl⟩ | ⟨x, i, e, rfl, _, he, rfl⟩
  · obtain ⟨hmem, hmoved⟩ := does_moves hdoes
    rw [hmem] at hdone
    cases x with
    | worker =>
      rcases workerMain_marks he with hsame | hwake
      · exact .inl (hsame ▸ hdone)
      · exact .inr (by rw [hmoved, update_self, hwake])
    | caller u => exact .inl ((CallerMoves.told (.inl ⟨e.op, he⟩)).1 j hdone)
    | stopper => exact .inl ((StopMoves.same (.inl ⟨e.op, he⟩)).2.2.2 ▸ hdone)
  · exact .inl hdone
  · cases x with
    | worker => simp [code] at he
    | caller u => exact .inl ((CallerMoves.told (.inr (callerCall_cases he))).1 j hdone)
    | stopper =>
      obtain ⟨_, rfl⟩ := stopCall_cases he
      exact .inl hdone

/-- **Who oversleeps has overslept before**, but for the moment in which the job is marked. -/
theorem oversleeps_back (hstep : step code s a = some s') {t : T}
    (h : Oversleeps s' t) : Oversleeps s t ∨ s'.pc .worker = .wakeDone := by
  obtain ⟨hasleep, j, hpc, hdone⟩ := h
  rcases step_of hstep (.caller t) with ⟨pick, e, rfl, hsleeps, he, hdoes⟩ | ⟨i, e, hsleeps, _, hsame⟩ |
    ⟨_, hsame, hwas⟩
  · obtain ⟨hmem, hmoved⟩ := does_moves hdoes
    rcases does_asleep hdoes hasleep with hold | ⟨_, hop⟩
    · exact absurd hold (not_asleep hsleeps .done)
    · rw [hmoved, update_self] at hpc
      rw [hmem, callerMain_sleeps he hop hpc] at hdone
      cases hdone
  · exact absurd (hsame ▸ hasleep) (not_asleep hsleeps .done)
  · exact (marks_step hstep hdone).imp_left fun hmarked => ⟨hwas _ hasleep, j, hsame ▸ hpc, hmarked⟩

/-! ## The signal -/

/-- The worker leaves the place of its signal by the signal. -/
theorem wakeDone_step (hstep : step code s a = some s') (hpc : s.pc .worker = .wakeDone) :
    (s'.pc .worker = .wakeDone ∧ ∀ pick, a ≠ .act .worker pick) ∨ ∃ pick, a = .act .worker pick ∧
      s.does code .worker pick { op := .signal .done, pc := .leaveDone, mem := s.mem } = some s' := by
  rcases step_of hstep .worker with ⟨pick, e, rfl, _, he, hdoes⟩ | ⟨i, e, _, he, _⟩ | ⟨hother, hsame, _⟩
  · have hsignal : workerMain s.mem (s.pc .worker) = some e := he
    rw [hpc] at hsignal
    cases hsignal
    exact .inr ⟨pick, rfl, hdoes⟩
  · simp [code] at he
  · refine .inl ⟨hsame.trans hpc, ?_⟩
    rintro pick rfl
    exact hother rfl

/-- **The signal** leaves nobody stranded exactly if it goes to whoever oversleeps. -/
theorem signal_directed {pick : Option (Thread T)}
    (hdoes : s.does code .worker pick { op := .signal .done, pc := .leaveDone, mem := s.mem } = some s') :
    ¬ Stranded s' ↔ ∀ t, Oversleeps s t → pick = some (.caller t) := by
  obtain ⟨hmem, hmoved⟩ := does_moves hdoes
  have hworker : s'.pc .worker ≠ .wakeDone := by
    rw [hmoved, update_self]
    simp
  have hcaller : ∀ t, s'.pc (.caller t) = s.pc (.caller t) := by
    intro t
    rw [hmoved, update_of_ne (by simp)]
  -- only the one that was picked is awake now
  have hstill : ∀ t, Oversleeps s' t ↔ Oversleeps s t ∧ pick ≠ some (.caller t) := by
    intro t
    unfold Oversleeps
    rw [hmem, hcaller t]
    rcases does_signal hdoes rfl with ⟨y, rfl, _, hasleep⟩ | ⟨rfl, hasleep, hnone⟩
    · rw [hasleep, mem_filter]
      simp only [decide_eq_true_eq, ne_eq, Option.some.injEq]
      constructor
      · rintro ⟨⟨hwas, hne⟩, hj⟩
        exact ⟨⟨hwas, hj⟩, fun heq => hne heq.symm⟩
      · rintro ⟨⟨hwas, hj⟩, hne⟩
        exact ⟨⟨hwas, fun heq => hne heq.symm⟩, hj⟩
    · rw [hasleep]
      simp
  constructor
  · intro hnot t ht
    by_contra hpick
    exact hnot ⟨hworker, t, (hstill t).mpr ⟨ht, hpick⟩⟩
  · rintro hdirected ⟨_, t, ht⟩
    obtain ⟨hwas, hpick⟩ := (hstill t).mp ht
    exact hpick (hdirected t hwas)

/-- **A step strands nobody exactly if it is directed.** -/
theorem stranded_step (h : ¬ Stranded s) (a : Action (Thread T) Call) :
    ¬ Stranded (moves code s a) ↔ Directed s a := by
  unfold moves
  cases hstep : step code s a with
  | none => exact iff_of_true h (by simp [Directed, hstep])
  | some s' =>
    by_cases hpc : s.pc .worker = .wakeDone
    · rcases wakeDone_step hstep hpc with ⟨hstill, hother⟩ | ⟨pick, rfl, hdoes⟩
      · exact iff_of_true (fun hs' => hs'.1 hstill) fun pick heq => absurd heq (hother pick)
      · show ¬ Stranded s' ↔ _
        rw [signal_directed hdoes]
        constructor
        · intro hall pick' heq _ _ t ht
          obtain rfl : pick = pick' := by simpa using heq
          exact hall t ht
        · intro hdirected
          exact hdirected pick rfl hpc (by simp [hstep])
    · refine iff_of_true ?_ fun pick _ hwake => absurd hwake hpc
      rintro ⟨hworker, t, ht⟩
      rcases oversleeps_back hstep ht with hwas | hwake
      · exact h ⟨hpc, t, hwas⟩
      · exact hworker hwake

/-! ## The run -/

/-- No two callers sleep. -/
def OneSleeper (s : System T) : Prop :=
  ∀ t u, (Thread.caller t, Cond.done) ∈ s.asleep → (Thread.caller u, Cond.done) ∈ s.asleep → t = u

theorem OneSleeper.directed (h : OneSleeper s) (hs : Reachable code start s) (a : Action (Thread T) Call) :
    Directed s a := by
  rintro pick rfl hpc hsome t ⟨hasleep, _⟩
  obtain ⟨s', hstep⟩ := Option.isSome_iff_exists.mp hsome
  rcases wakeDone_step hstep hpc with ⟨_, hother⟩ | ⟨pick', heq, hdoes⟩
  · exact absurd rfl (hother pick)
  · obtain rfl : pick = pick' := by simpa using heq
    rcases does_signal hdoes rfl with ⟨y, rfl, hy, _⟩ | ⟨_, _, hnone⟩
    · cases y with
      | worker => exact absurd (reachable_asleep hs _ _ hy).1 (by simp)
      | caller u => rw [h t u hasleep hy]
      | stopper => exact (reachable_asleep hs _ _ hy).elim
    · exact absurd hasleep (hnone _)

/-- A worker that sleeps is not about to signal. -/
theorem LostWakeup.stranded (hs : Reachable code start s) (h : LostWakeup s) : Stranded s := by
  obtain ⟨_, hasleep, ht⟩ := h
  refine ⟨?_, ht⟩
  rw [(reachable_asleep hs .worker .push hasleep).2]
  simp

/-- **When no wake-up is lost.**  In every run of any number of callers: no caller is ever left asleep with its
    job done and no wake pending, exactly if every signal of `cv_done` goes to the caller whose job was done.
    Then no wake-up is lost; and it is so where no two callers sleep at a time. -/
theorem no_lost_wakeup_iff (acts : List (Action (Thread T) Call)) :
    ((∀ before after, acts = before ++ after → ¬ Stranded (run (moves code) start before)) ↔
      Along (moves code) Directed (start : System T) acts) ∧
    (Along (moves code) Directed (start : System T) acts →
      ∀ before after, acts = before ++ after → ¬ LostWakeup (run (moves code) start before)) ∧
    ((∀ before after, acts = before ++ after → OneSleeper (run (moves code) start before)) →
      Along (moves code) Directed (start : System T) acts) := by
  have hreach : ∀ before, Reachable code start (run (moves code) (start : System T) before) := fun before =>
    run_keeps (fun _ a hs => hs.moves a) before Reachable.start
  have hstart : ¬ Stranded (start : System T) := by
    rintro ⟨_, t, hasleep, _⟩
    simp [start] at hasleep
  have hiff := along_iff_keeps (fun s a (h : ¬ Stranded s) => stranded_step h a) acts hstart
  refine ⟨hiff, fun halong before after hacts hlost => ?_, fun hone => ?_⟩
  · exact hiff.mpr halong before after hacts (hlost.stranded (hreach before))
  · exact along_of_steps fun before a after hacts => (hone before (a :: after) hacts).directed (hreach before) a

omit [DecidableEq T] in
/-- A caller queues a job with `vms_worker_run` and goes to sleep. -/
def submits (t : T) : List (Action (Thread T) Call) :=
  .call (.caller t) (.run true) :: replicate 7 (.act (.caller t) none)

omit [DecidableEq T] in
/-- The worker takes a job, runs it and wakes the one that is picked. -/
def serves (t : T) : List (Action (Thread T) Call) :=
  replicate 10 (.act .worker none) ++ [.act .worker (some (.caller t)), .act .worker none]

theorem no_lost_wakeup_alone :
    Oversleeps (run (moves code) start (submits () ++ replicate 10 (.act .worker none))) () ∧
    ∀ before after, submits () ++ serves () = before ++ after → ¬ LostWakeup (run (moves code) start before) := by
  refine ⟨⟨by decide, 0, rfl, rfl⟩, (no_lost_wakeup_iff _).2.1 ?_⟩
  exact (no_lost_wakeup_iff _).2.2 fun _ _ _ _ _ _ _ => rfl

/-- Two callers: both wakes go to the second one. -/
def misdirected : List (Action (Thread Bool) Call) :=
  submits false ++ submits true ++ serves true ++ replicate 2 (.act (.caller true) none) ++
    serves true ++ replicate 3 (.act (.caller true) none) ++ replicate 2 (.act .worker none)

set_option maxRecDepth 4000 in
/-- **A wake-up is lost**: the second caller was woken for the first one's job and slept again; now its own is
    done and it has returned, and the first one sleeps for ever.  No thread can go on. -/
theorem wakeup_lost :
    LostWakeup (run (moves code) start misdirected) ∧ (run (moves code) start misdirected).mem.returned = [1] ∧
      ∀ x, ¬ Fair.Enabled (step code) (owner : Action (Thread Bool) Call → Option (Thread Bool)) x
        (run (moves code) start misdirected) := by
  refine ⟨⟨rfl, by decide, false, by decide, 0, rfl, rfl⟩, rfl, at_rest rfl (fun t => ?_) rfl⟩
  cases t with
  | false => exact .inl rfl
  | true => exact .inr rfl

/-! ## Freed jobs

Whoever waits for a job frees it: `vms_worker_run` and `vms_job_wait` do so when they see the done flag.  The worker and
`worker_push` come at jobs through pointers of their own: `head` and its `next`, the job in hand, and `tail`, which may
be a job of another caller.  None of them dangles when it is followed (`jobs_live`): the worker marks a job last of all,
and the lock hides the moment when the tail still points to the job just taken. -/

variable {j : Nat}

/-- The job that the worker's next statement reads or writes. -/
def WorkerPc.touches (m : Memory) : WorkerPc → Option Nat
  | .take => m.head
  | .running j | .setDone j => some j
  | _ => none

/-- The job of another that the next statement of `worker_push` writes: `w->tail->next = j`. -/
def CallerPc.touches (m : Memory) : CallerPc → Option Nat
  | .link _ _ => if m.freed then none else m.tail
  | _ => none

theorem WorkerPc.touches_some {pc : WorkerPc} (h : pc.touches m = some j) :
    m.head = some j ∨ pc = .running j ∨ pc = .setDone j := by
  revert h
  fun_cases WorkerPc.touches m pc <;> simp_all

theorem CallerPc.touches_some {pc : CallerPc} (h : pc.touches m = some j) :
    ∃ i wait, pc = .link i wait ∧ m.freed = false ∧ m.tail = some j := by
  revert h
  fun_cases CallerPc.touches m pc <;> simp_all

/-- What has finished is out of the queue, and what runs has not finished. -/
theorem finished_taken (h : Reachable code start s) :
    (∀ j ∈ s.mem.finished, j ∈ s.mem.taken) ∧ ∀ j, (s.pc .worker).runs = some j → j ∉ s.mem.finished := by
  obtain ⟨htaken, hstarted, _⟩ := reachable_phase h
  have hqueue := reachable_queue h
  obtain ⟨waiting, hline, _⟩ := hqueue.line
  refine ⟨fun j hj => ?_, fun j hj hmem => ?_⟩
  · simp [htaken, hstarted, hj]
  · have hnodup := hqueue.nodup
    rw [hline, htaken, hstarted, hj] at hnodup
    simp only [nodup_append, append_assoc] at hnodup
    exact hnodup.2.2 j hmem j (by simp) rfl

/-- The job that has run was in hand before, and it was not the moment to mark it. -/
theorem workerMain_ran {pc : WorkerPc} {e : Stmt WorkerPc Memory Cond} (he : workerMain m pc = some e)
    (hj : e.pc.ran = some j) : pc.runs = some j ∨ pc.ran = some j ∧ pc ≠ .setDone j := by
  revert he hj
  fun_cases workerMain m pc
  all_goals rintro ⟨⟩
  case case6 => cases m.stopping <;> simp [WorkerPc.ran]
  all_goals simp [WorkerPc.ran, WorkerPc.runs]

/-- **The worker marks a job last of all**: of what it has in hand, nobody knows that it is done. -/
theorem reachable_unmarked (h : Reachable code start s) : Known s.mem s.pc j → (s.pc .worker).ran ≠ some j := by
  refine reachable_rule (J := fun m pc => Known m pc j → (pc .worker).ran ≠ some j) h (by simp [start, Known]) ?_ ?_ ?_
  · intro s hs hJ e he hj hran
    rw [update_self] at hran
    rcases workerMain_ran he hran with hruns | ⟨hran, hne⟩ <;> rcases known_worker he hj with hold | hpc
    · exact (finished_taken hs).2 j hruns (known_finished hs hold)
    · rw [hpc] at hruns
      cases hruns
    · exact hJ hold hran
    · exact hne hpc
  · intro s _ hJ t p m' hmoves hj
    rw [update_of_ne (by simp)]
    exact hJ (known_caller hmoves hj)
  · intro s _ hJ p m' hmoves hj
    rw [update_of_ne (by simp)]
    exact hJ (known_stop hmoves hj)

/-- **No dangling job.**  Whatever the threads do, in whatever order, and whichever jobs are waited for: neither the
    worker nor a caller in `worker_push` reads or writes a job that was freed, and `VmsWorker` outlives its thread. -/
theorem jobs_live (acts : List (Action (Thread T) Call)) :
    let s := run (moves code) start acts
    (∀ j, (s.pc .worker).touches s.mem = some j → j ∉ s.mem.returned) ∧
      (∀ t j, (s.pc (.caller t)).touches s.mem = some j → j ∉ s.mem.returned) ∧
      (s.mem.freed = true → s.pc .worker = .exited) := by
  intro s
  have hs : Reachable code start s := run_keeps (fun _ a h => h.moves a) acts .start
  have htold := (reachable_told hs).returned
  obtain ⟨hold, hruns⟩ := finished_taken hs
  have hqueue := reachable_queue hs
  obtain ⟨waiting, hline, hchain, htail⟩ := hqueue.line
  -- what waits has not been taken, and what was freed has
  have hfree : ∀ j ∈ waiting, j ∉ s.mem.returned := fun j hj hmem => by
    have hnodup := hqueue.nodup
    rw [hline, nodup_append] at hnodup
    exact hnodup.2.2 j (hold j (htold j hmem)) j hj rfl
  have hend := reachable_ended hs
  refine ⟨?_, ?_, fun hf => hend.ended (hend.freed hf)⟩
  · intro j hj hmem
    rcases WorkerPc.touches_some hj with hhead | hpc | hpc
    · rw [hhead] at hchain
      obtain ⟨rest, rfl, _⟩ := hchain.unhook
      exact hfree j mem_cons_self hmem
    · exact hruns j (by rw [hpc]; rfl) (htold j hmem)
    · exact reachable_unmarked hs (.inr (.inr hmem)) (by rw [hpc]; rfl)
  · intro t j hj
    obtain ⟨i, wait, hpc, hfreed, hlast⟩ := CallerPc.touches_some hj
    obtain ⟨hlinks, htakes⟩ := link_alone (reachable_mutex hs) hfreed hpc
    have hstill := (htail hfreed).still hlinks htakes
    exact hfree j (mem_of_getLast? (hstill.symm.trans hlast))

end VirtualMssql.Worker
