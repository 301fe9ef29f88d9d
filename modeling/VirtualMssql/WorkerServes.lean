/-
  THE WORKER SERVES — every job queued before the stop runs exactly once, in order and alone.

  That no job runs twice, early or out of order is a matter of the invariants.  That it runs at all needs a
  fair run: the scheduler forgets no thread that can go on, and a lock that is free again and again is got
  some time.  The danger is a lost wake-up: the worker asleep and a job in the queue.  Then the caller that
  queued the job has not signalled yet (`reachable_heard`), and will.  An awake worker gets to the end of one
  more job in a bounded number of its own steps, and does not fall asleep on the way (`finishes_more`).
-/
import VirtualMssql.WorkerQueue

namespace VirtualMssql.Worker

open LinkedQueue Fair Monitor List Function

variable {T : Type}

/-! ## The sleepers -/

/-- Where a thread sleeps, and on what. -/
def Bed : (x : Thread T) → Cond → Pc x → Prop
  | .worker, c, pc => c = .push ∧ pc = .woken
  | .caller _, c, pc => c = .done ∧ ∃ j, pc = .woken j
  | .stopper, _, _ => False

theorem code_beds (x : Thread T) (pc : Pc x) (m : Memory) (e : Stmt (Pc x) Memory Cond) (c : Cond)
    (he : code.stmt x pc m = some e) (hop : e.op = .sleep c) : Bed x c e.pc := by
  cases x with
  | worker =>
    change workerMain m pc = some e at he
    revert hop he
    fun_cases workerMain m pc
    all_goals rintro hop ⟨⟩
    all_goals simp_all [Bed]
  | caller t =>
    change callerMain m pc = some e at he
    revert hop he
    fun_cases callerMain m pc
    all_goals rintro hop ⟨⟩
    all_goals simp_all [Bed]
  | stopper =>
    change stopMain m pc = some e at he
    revert hop he
    fun_cases stopMain m pc
    all_goals rintro hop ⟨⟩
    all_goals cases hop

variable [DecidableEq T] {s : System T} {m : Memory} {pc : WorkerPc}

theorem reachable_asleep (h : Reachable code start s) : ∀ x c, (x, c) ∈ s.asleep → Bed x c (s.pc x) :=
  h.keeps (I := fun s => ∀ x c, (x, c) ∈ s.asleep → Bed x c (s.pc x)) (by simp [start])
    fun _ _ _ _ hs hstep => asleep_step code_beds hs hstep

/-- Nobody but the worker sleeps on `cv_push`. -/
theorem push_sleeper (h : Reachable code start s) {y : Thread T} (hy : (y, Cond.push) ∈ s.asleep) : y = .worker := by
  have hbed := reachable_asleep h y .push hy
  cases y with
  | worker => rfl
  | caller t => cases hbed.1
  | stopper => exact hbed.elim

/-- The worker waits for a job. -/
abbrev Dozes (s : System T) : Prop := (Thread.worker, Cond.push) ∈ s.asleep

theorem worker_awake (h : Reachable code start s) (hawake : ¬ Dozes s) : s.sleeps .worker = false := by
  by_contra hsleeps
  obtain ⟨c, hc⟩ := sleeps_iff.mp (by simpa using hsleeps)
  obtain ⟨rfl, _⟩ := reachable_asleep h .worker c hc
  exact hawake hc

/-- How far a caller with a job in the queue is from its signal. -/
def CallerPc.toWake : CallerPc → Nat
  | .linkTail _ _ => 3
  | .leave _ _ => 2
  | .wake _ _ => 1
  | _ => 0

theorem callerMain_wakes {pc : CallerPc} {e : Stmt CallerPc Memory Cond} (he : callerMain m pc = some e) :
    (e.mem.head = m.head ∨ 0 < e.pc.toWake) ∧
      (0 < pc.toWake → e.pc.toWake < pc.toWake ∧ e.op ≠ .acquire ∧ (e.pc.toWake = 0 → e.op = .signal .push)) := by
  revert he
  fun_cases callerMain m pc
  all_goals rintro ⟨⟩
  case case4 => split_ifs <;> simp [CallerPc.toWake]
  case case6 j wait => cases wait <;> simp [CallerPc.toWake]
  all_goals simp [CallerPc.toWake]

theorem toWake_stmt {pc : CallerPc} (h : 0 < pc.toWake) : ∃ e, callerMain m pc = some e := by
  cases pc with
  | linkTail j wait | leave j wait | wake j wait => exact ⟨_, rfl⟩
  | _ => simp [CallerPc.toWake] at h

variable {a : Action (Thread T) Call} {s' : System T}

/-- **A caller on its way to the signal** comes closer, until the worker is awake. -/
theorem waker_step (h : Reachable code start s) {t : T} (ht : 0 < (s.pc (.caller t)).toWake)
    (hstep : step code s a = some s') (hasleep : Dozes s') :
    0 < (s'.pc (.caller t)).toWake ∧ (s'.pc (.caller t)).toWake ≤ (s.pc (.caller t)).toWake ∧
      (owner a = some (.caller t) → (s'.pc (.caller t)).toWake < (s.pc (.caller t)).toWake) := by
  rcases step_of hstep (.caller t) with ⟨pick, e, rfl, _, he, hdoes⟩ | ⟨i, e, _, he, _⟩ | ⟨hother, hpc, _⟩
  · rw [(does_moves hdoes).2, update_self]
    obtain ⟨hlt, _, hsignal⟩ := (callerMain_wakes he).2 ht
    refine ⟨Nat.pos_of_ne_zero fun hzero => ?_, Nat.le_of_lt hlt, fun _ => hlt⟩
    exact signal_wakes hdoes (hsignal hzero) (fun y hy => push_sleeper h hy) hasleep
  · rw [(callerCall_cases he).1] at ht
    simp [CallerPc.toWake] at ht
  · rw [hpc]
    exact ⟨ht, Nat.le_refl _, fun hown => absurd hown hother⟩

variable {e : Stmt WorkerPc Memory Cond}

theorem workerMain_sleeps (he : workerMain m pc = some e) {c : Cond} (hop : e.op = .sleep c) : e.mem.head = none := by
  revert he
  fun_cases workerMain m pc
  all_goals rintro ⟨⟩
  case case2 hcheck => simp_all
  all_goals cases hop

/-- **No wake-up is lost**: while the worker sleeps and a job waits, somebody is on the way to wake it. -/
theorem reachable_heard (h : Reachable code start s) (hasleep : Dozes s) (hhead : s.mem.head ≠ none) :
    ∃ t, 0 < (s.pc (.caller t)).toWake := by
  revert hasleep hhead
  refine h.keeps (I := fun s => Dozes s → s.mem.head ≠ none → ∃ t, 0 < (s.pc (.caller t)).toWake) (by simp [start]) ?_
  intro s a s' hs hI hstep hasleep hhead
  -- a caller that was on the way still is; so only a step that fills the queue is of interest
  have hstill : Dozes s → s.mem.head ≠ none → ∃ t, 0 < (s'.pc (.caller t)).toWake := by
    intro hwas hfull
    obtain ⟨t, ht⟩ := hI hwas hfull
    exact ⟨t, (waker_step hs ht hstep hasleep).1⟩
  rcases step_cases hstep with ⟨x, pick, e, rfl, hsleeps, he, hdoes⟩ | ⟨x, rfl, _, rfl⟩ | ⟨x, i, e, rfl, _, he, rfl⟩
  · obtain ⟨hmem, hpc⟩ := does_moves hdoes
    rw [hmem] at hhead
    rcases does_asleep hdoes hasleep with hwas | ⟨hx, hop⟩
    · cases x with
      | worker => exact absurd hwas (not_asleep hsleeps .push)
      | caller t =>
        rcases (callerMain_wakes he).1 with hsame | hpos
        · exact hstill hwas (hsame ▸ hhead)
        · exact ⟨t, by rw [hpc, update_self]; exact hpos⟩
      | stopper => exact hstill hwas ((StopMoves.same (.inl ⟨e.op, he⟩)).2.1.head ▸ hhead)
    · obtain rfl : Thread.worker = x := hx
      exact absurd (workerMain_sleeps he hop) hhead
  · exact hstill (mem_filter.mp hasleep).1 hhead
  · refine hstill hasleep ?_
    cases x with
    | worker => simp [code] at he
    | caller t =>
      obtain ⟨_, ⟨wait, rfl⟩ | rfl | ⟨j, rfl⟩⟩ := callerCall_cases he <;> exact hhead
    | stopper =>
      obtain ⟨_, rfl⟩ := stopCall_cases he
      exact hhead

/-! ## What is due -/

/-- The jobs of a list are queued, and the worker does not leave before it has taken them. -/
structure Due (l : List Nat) (m : Memory) (pc : WorkerPc) : Prop where
  queued : l <+: m.queued
  taken : pc.leaving = true → l <+: m.taken

theorem workerMain_due (he : workerMain m pc = some e) :
    e.mem.queued = m.queued ∧ m.taken <+: e.mem.taken ∧ m.finished <+: e.mem.finished ∧
      (e.pc.leaving = true → pc.leaving = true ∨ m.head = none) := by
  revert he
  fun_cases workerMain m pc
  all_goals rintro ⟨⟩
  all_goals simp_all [WorkerPc.leaving]

theorem CallerMoves.due {p p' : CallerPc} {m' : Memory} (h : CallerMoves m p p' m') : m.queued <+: m'.queued := by
  rcases h.queue with ⟨hsame, _⟩ | ⟨_, rfl, _⟩ | ⟨_, _, _, rfl⟩ | ⟨j, _, _, _, _, rfl⟩ | ⟨_, _, _, _, _, rfl⟩
  case inl => exact hsame.queued ▸ prefix_rfl
  case inr.inr.inr.inl =>
    rw [(link_rest m j).1]
    exact prefix_append ..
  all_goals exact prefix_rfl

omit [DecidableEq T] in
theorem Queue.empty {pc : (x : Thread T) → Pc x} (h : Queue m pc) : m.head = none ↔ m.queued = m.taken := by
  obtain ⟨waiting, hline, hchain, _⟩ := h.line
  rw [hchain.nil_iff, hline]
  simp

/-- **What is queued before the stop stays due.** -/
theorem reachable_due {s₀ : System T} (h₀ : Reachable code start s₀)
    (hstop : s₀.mem.stopping = false) (h : Reachable code s₀ s) : Due s₀.mem.queued s.mem (s.pc .worker) := by
  refine reachable_rule (J := fun m pc => Due s₀.mem.queued m (pc .worker)) h ⟨prefix_rfl, fun hl => ?_⟩ ?_ ?_ ?_
  · rw [(reachable_ended h₀).leaving hl] at hstop
    cases hstop
  · intro s hs hJ e he
    obtain ⟨hqueued, htaken, _, hleaving⟩ := workerMain_due he
    refine ⟨hqueued ▸ hJ.queued, fun hl => ?_⟩
    rw [update_self] at hl
    rcases hleaving hl with hold | hempty
    · exact (hJ.taken hold).trans htaken
    · have hall := (reachable_queue (h₀.trans hs)).empty.mp hempty
      exact (hall ▸ hJ.queued).trans htaken
  · intro s _ hJ t p m' hmoves
    rw [update_of_ne (by simp)]
    exact ⟨hJ.queued.trans hmoves.due, fun hl => hmoves.work.1.taken ▸ hJ.taken hl⟩
  · intro s _ hJ p m' hmoves
    rw [update_of_ne (by simp)]
    exact ⟨hmoves.same.2.1.queued ▸ hJ.queued, fun hl => hmoves.same.1.taken ▸ hJ.taken hl⟩

/-- What has finished remains finished. -/
theorem reachable_finished {s₀ : System T} (h : Reachable code s₀ s) : s₀.mem.finished <+: s.mem.finished := by
  refine reachable_rule (J := fun m _ => s₀.mem.finished <+: m.finished) h prefix_rfl ?_ ?_ ?_
  · intro s _ hJ e he
    exact hJ.trans (workerMain_due he).2.2.1
  · intro s _ hJ t p m' hmoves
    exact hmoves.work.1.finished ▸ hJ
  · intro s _ hJ p m' hmoves
    exact hmoves.same.1.finished ▸ hJ

theorem leaving_idle (h : pc.leaving = true) : pc.holds = none ∧ pc.runs = none := by
  cases pc with
  | leaveExit | exited => exact ⟨rfl, rfl⟩
  | _ => simp [WorkerPc.leaving] at h

/-- A worker with something due is not on its way out, and has a job to take when it looks for one. -/
theorem due_busy {l : List Nat} (h : Reachable code start s) (hdue : Due l s.mem (s.pc .worker))
    (hless : s.mem.finished.length < l.length) : (s.pc .worker).leaving = false ∧
      ((s.pc .worker).holds = none → (s.pc .worker).runs = none → s.mem.head ≠ none) := by
  obtain ⟨htaken, hstarted, _⟩ := reachable_phase h
  have hdone : (s.pc .worker).holds = none → (s.pc .worker).runs = none → s.mem.taken = s.mem.finished := by
    intro hholds hruns
    rw [htaken, hstarted, hholds, hruns]
    simp
  constructor
  · by_contra hl
    have hleaving : (s.pc .worker).leaving = true := by simpa using hl
    have heq : s.mem.taken = s.mem.finished := hdone (leaving_idle hleaving).1 (leaving_idle hleaving).2
    have hle := (hdue.taken hleaving).length_le
    rw [heq] at hle
    omega
  · intro hholds hruns hempty
    have hall := (reachable_queue h).empty.mp hempty
    have hle := hdue.queued.length_le
    rw [hall, hdone hholds hruns] at hle
    omega

/-! ## Progress -/

/-- How far the worker is from the end of the next job. -/
def WorkerPc.rank : WorkerPc → Nat
  | .after _ => 14
  | .enterDone _ => 13
  | .setDone _ => 12
  | .wakeDone => 11
  | .leaveDone | .leave none => 10
  | .enter | .woken => 9
  | .check => 8
  | .take => 7
  | .takeTail _ => 6
  | .leave (some _) => 5
  | .begin_ _ => 4
  | .running _ => 3
  | .leaveExit | .exited => 0

theorem workerMain_rank (he : workerMain m pc = some e)
    (hleaving : pc.leaving = false) (hhead : pc.holds = none → pc.runs = none → m.head ≠ none) :
    m.finished.length < e.mem.finished.length ∨ (e.pc.rank < pc.rank ∧ ∀ c, e.op ≠ .sleep c) := by
  revert he
  fun_cases workerMain m pc
  all_goals rintro ⟨⟩
  case case2 hcheck => exact absurd (by simp_all) (hhead rfl rfl)
  case case6 hnone => exact absurd hnone (hhead rfl rfl)
  case case10 => simp [WorkerPc.leaving] at hleaving
  all_goals simp [WorkerPc.rank]

/-- **A worker that has something to do** comes closer to the end of a job, and stays awake. -/
theorem worker_step (hleaving : (s.pc .worker).leaving = false)
    (hhead : (s.pc .worker).holds = none → (s.pc .worker).runs = none → s.mem.head ≠ none) (hawake : ¬ Dozes s)
    (hstep : step code s a = some s') : s.mem.finished.length < s'.mem.finished.length ∨
      (¬ Dozes s' ∧ (s'.pc .worker).rank ≤ (s.pc .worker).rank ∧
        (owner a = some .worker → (s'.pc .worker).rank < (s.pc .worker).rank)) := by
  rcases step_of hstep .worker with ⟨pick, e, rfl, _, he, hdoes⟩ | ⟨i, e, _, he, _⟩ | ⟨hother, hpc, hwas⟩
  · obtain ⟨hmem, hpc⟩ := does_moves hdoes
    rw [hmem, hpc, update_self]
    rcases workerMain_rank he hleaving hhead with hmore | ⟨hlt, hop⟩
    · exact .inl hmore
    · refine .inr ⟨fun hasleep => ?_, Nat.le_of_lt hlt, fun _ => hlt⟩
      rcases does_asleep hdoes hasleep with hwas | ⟨_, hsleep⟩
      · exact hawake hwas
      · exact hop _ hsleep
  · simp [code] at he
  · rw [hpc]
    exact .inr ⟨fun hasleep => hawake (hwas _ hasleep), Nat.le_refl _, fun hown => absurd hown hother⟩

theorem workerMain_stmt (h : pc.leaving = false) : ∃ e, workerMain m pc = some e := by
  fun_cases workerMain m pc
  case case18 => simp [WorkerPc.leaving] at h
  all_goals exact ⟨_, rfl⟩

section Progress

variable {s₀ : System T} (h₀ : Reachable code start s₀) (hstop : s₀.mem.stopping = false)

/-- The run is behind `s₀`, and exactly `k` jobs have finished. -/
def Waits (s₀ : System T) (k : Nat) (s : System T) : Prop :=
  Reachable code s₀ s ∧ s.mem.finished.length = k

variable {k : Nat}

theorem Waits.step (h : Waits s₀ k s)
    (hstep : step code s a = some s') : k < s'.mem.finished.length ∨ Waits s₀ k s' := by
  have hle := (reachable_finished (Reachable.start.next a hstep)).length_le
  rw [h.2] at hle
  rcases Nat.lt_or_eq_of_le hle with hlt | heq
  · exact .inl hlt
  · exact .inr ⟨h.1.next a hstep, heq.symm⟩

variable (r : FairRun (step code) (owner : Action (Thread T) Call → Option (Thread T))) {n : Nat}
  (hn : Waits s₀ k (r.state n))
include h₀ hn

/-- **A sleeping worker with a job in the queue is woken.** -/
theorem wakes_up (hasleep : Dozes (r.state n)) (hhead : (r.state n).mem.head ≠ none) :
    ∃ m, n ≤ m ∧ (k < (r.state m).mem.finished.length ∨ (Waits s₀ k (r.state m) ∧ ¬ Dozes (r.state m))) := by
  obtain ⟨t, ht⟩ := reachable_heard (h₀.trans hn.1) hasleep hhead
  refine r.leads (P := fun s => Waits s₀ k s ∧ Dozes s ∧ 0 < (s.pc (.caller t)).toWake)
    (Q := fun s => k < s.mem.finished.length ∨ (Waits s₀ k s ∧ ¬ Dozes s))
    (μ := fun s => (s.pc (.caller t)).toWake) (x := .caller t) ?_ ?_ n ⟨hn, hasleep, ht⟩
  · rintro s a s' ⟨hw, _, hpos⟩ hs
    rcases hw.step hs with hmore | hw'
    · exact .inl (.inl hmore)
    · by_cases hstill : Dozes s'
      · obtain ⟨hpos', hle, hlt⟩ := waker_step (h₀.trans hw.1) hpos hs hstill
        exact .inr ⟨⟨hw', hstill, hpos'⟩, hle, hlt⟩
      · exact .inl (.inr ⟨hw', hstill⟩)
  · rintro i ⟨hw, _, hpos⟩
    obtain ⟨e, he⟩ := toWake_stmt (m := (r.state i).mem) hpos
    have hawake : (r.state i).sleeps (.caller t) = false := by
      by_contra hsleeps
      obtain ⟨c, hc⟩ := sleeps_iff.mp (by simpa using hsleeps)
      obtain ⟨_, j, hj⟩ := reachable_asleep (h₀.trans hw.1) (.caller t) c hc
      rw [hj] at hpos
      simp [CallerPc.toWake] at hpos
    exact ⟨i, Nat.le_refl i, .inr (enabled_of_stmt hawake he
      fun hop => absurd hop ((callerMain_wakes he).2 hpos).2.1)⟩

variable (hstart : r.state 0 = start) (hk : k < s₀.mem.queued.length)
include hstop hstart hk

/-- **A worker that is awake finishes one more job.** -/
theorem works_on (hawake : ¬ Dozes (r.state n)) : ∃ m, n ≤ m ∧ k < (r.state m).mem.finished.length := by
  let P : System T → Prop := fun s => Waits s₀ k s ∧ ¬ Dozes s
  let Q : System T → Prop := fun s => k < s.mem.finished.length
  have hbusy : ∀ s, P s → (s.pc .worker).leaving = false ∧
      ((s.pc .worker).holds = none → (s.pc .worker).runs = none → s.mem.head ≠ none) := by
    rintro s ⟨⟨hs, hlen⟩, _⟩
    exact due_busy (h₀.trans hs) (reachable_due h₀ hstop hs) (by omega)
  have hstep : ∀ s a s', P s → step code s a = some s' → Q s' ∨ (P s' ∧ (s'.pc .worker).rank ≤ (s.pc .worker).rank ∧
      (owner a = some .worker → (s'.pc .worker).rank < (s.pc .worker).rank)) := by
    intro s a s' hP hs
    obtain ⟨hleaving, hhead⟩ := hbusy s hP
    rcases hP.1.step hs with hmore | hw'
    · exact .inl hmore
    · rcases worker_step hleaving hhead hP.2 hs with hmore | ⟨hstill, hle, hlt⟩
      · exact .inl (show k < _ from hP.1.2 ▸ hmore)
      · exact .inr ⟨⟨hw', hstill⟩, hle, hlt⟩
  refine r.leads hstep ?_ n ⟨hn, hawake⟩
  · intro i hi
    by_cases hever : ∃ m, i ≤ m ∧ Q (r.state m)
    · obtain ⟨m, hm, hQ⟩ := hever
      exact ⟨m, hm, .inl hQ⟩
    · -- the lock is free some time, and nothing has changed for the worker till then
      have hmutex : ∀ l, Mutex code inside (r.state l) := fun l => by
        have hl := run_reachable r 0 l
        rw [hstart, Nat.zero_add] at hl
        exact reachable_mutex hl
      obtain ⟨m, hm, hfree⟩ := free_again code_bracketed code_leaves r hmutex i
      obtain ⟨d, rfl⟩ := Nat.exists_eq_add_of_le hm
      have hP := (r.stays hstep hi (fun l hl hQ => hever ⟨l, hl, hQ⟩) d).1
      obtain ⟨hleaving, _⟩ := hbusy _ hP
      obtain ⟨e, he⟩ := workerMain_stmt (m := (r.state (i + d)).mem) hleaving
      have hs := h₀.trans hP.1.1
      refine ⟨i + d, hm, .inr (enabled_of_stmt (worker_awake hs hP.2) he fun _ => ?_)⟩
      rcases hfree with hnone | hgone
      · exact hnone
      · have hended := reachable_ended hs
        rw [hended.ended (hended.freed hgone)] at hleaving
        simp [WorkerPc.leaving] at hleaving

/-- **One more job finishes**, as long as there is one that was queued before the stop. -/
theorem finishes_more : ∃ m, n ≤ m ∧ k < (r.state m).mem.finished.length := by
  by_cases hasleep : Dozes (r.state n)
  · have hs := h₀.trans hn.1
    have hpc := (reachable_asleep hs .worker .push hasleep).2
    -- a worker that sleeps has nothing in hand, so what is due still waits
    have hhead : (r.state n).mem.head ≠ none :=
      (due_busy hs (reachable_due h₀ hstop hn.1) (by rw [hn.2]; exact hk)).2 (by rw [hpc]; rfl) (by rw [hpc]; rfl)
    obtain ⟨m, hm, hmore | ⟨hw, hawake⟩⟩ := wakes_up h₀ r hn hasleep hhead
    · exact ⟨m, hm, hmore⟩
    · obtain ⟨m', hm', hmore⟩ := works_on h₀ hstop r hw hstart hk hawake
      exact ⟨m', Nat.le_trans hm hm', hmore⟩
  · exact works_on h₀ hstop r hn hstart hk hasleep

end Progress

/-- Every job that was queued before the stop finishes. -/
theorem finishes_all {r : FairRun (step code) (owner : Action (Thread T) Call → Option (Thread T))}
    (hstart : r.state 0 = start)
    {n : Nat} (hstop : (r.state n).mem.stopping = false) :
    ∀ k, k ≤ (r.state n).mem.queued.length → ∃ m, n ≤ m ∧ k ≤ (r.state m).mem.finished.length
  | 0, _ => ⟨n, Nat.le_refl n, Nat.zero_le _⟩
  | k + 1, hk => by
    obtain ⟨m, hm, hdone⟩ := finishes_all hstart hstop k (by omega)
    rcases Nat.lt_or_eq_of_le hdone with hmore | heq
    · exact ⟨m, hm, hmore⟩
    · obtain ⟨d, rfl⟩ := Nat.exists_eq_add_of_le hm
      have h₀ := run_reachable r 0 n
      rw [hstart, Nat.zero_add] at h₀
      obtain ⟨m', hm', hmore⟩ := finishes_more h₀ hstop r ⟨run_reachable r n d, heq.symm⟩ hstart hk
      exact ⟨m', by omega, hmore⟩

/-- What has started is a beginning of what was queued, and at most one job has started and not finished. -/
theorem in_order (h : Reachable code start s) : s.mem.started <+: s.mem.queued ∧ s.mem.finished <+: s.mem.started ∧
      s.mem.started.length ≤ s.mem.finished.length + 1 := by
  obtain ⟨htaken, hstarted, _⟩ := reachable_phase h
  obtain ⟨waiting, hline, _, _⟩ := (reachable_queue h).line
  refine ⟨⟨(s.pc .worker).holds.toList ++ waiting, ?_⟩, ⟨(s.pc .worker).runs.toList, hstarted.symm⟩, ?_⟩
  · rw [hline, htaken, append_assoc]
  · rw [hstarted, length_append]
    cases (s.pc .worker).runs <;> simp

/-- **The worker serves.**  Whatever the threads do, no job starts twice, jobs start in the order in which they
    were queued, none before the last one has finished; who comes back from `vms_worker_run` had its job done;
    and when the thread has ended, every job is done that was queued before the stop.  In a fair run each of
    these jobs is done. -/
theorem worker_serves :
    (∀ s : System T, Reachable code start s →
      s.mem.started.Nodup ∧ s.mem.started <+: s.mem.queued ∧
      s.mem.finished <+: s.mem.started ∧ s.mem.started.length ≤ s.mem.finished.length + 1 ∧
      ∀ j ∈ s.mem.returned, j ∈ s.mem.finished) ∧
    (∀ s s' : System T, Reachable code start s → s.mem.stopping = false → Reachable code s s' →
      s'.pc .worker = .exited → s.mem.queued <+: s'.mem.finished) ∧
    (∀ r : FairRun (step (code : Code (Pc : Thread T → Type) Memory Cond Call)) owner, r.state 0 = start →
      ∀ n, (r.state n).mem.stopping = false → ∃ m, n ≤ m ∧ (r.state n).mem.queued <+: (r.state m).mem.finished) := by
  refine ⟨fun s hs => ?_, fun s s' hs hstop hs' hexit => ?_, fun r hstart n hstop => ?_⟩
  · obtain ⟨horder, hdone, halone⟩ := in_order hs
    exact ⟨(reachable_queue hs).nodup.sublist horder.sublist, horder, hdone, halone, (reachable_told hs).returned⟩
  · have hdue := (reachable_due hs hstop hs').taken (by rw [hexit]; rfl)
    obtain ⟨htaken, hstarted, _⟩ := reachable_phase (hs.trans hs')
    rw [htaken, hstarted, hexit] at hdue
    simpa [WorkerPc.holds, WorkerPc.runs] using hdue
  · obtain ⟨m, hm, hlen⟩ := finishes_all hstart hstop _ (Nat.le_refl _)
    obtain ⟨d, rfl⟩ := Nat.exists_eq_add_of_le hm
    have h₀ := run_reachable r 0 n
    rw [hstart, Nat.zero_add] at h₀
    have hrun := run_reachable r n d
    obtain ⟨horder, hdone, _⟩ := in_order (h₀.trans hrun)
    exact ⟨n + d, hm, prefix_of_prefix_length_le (reachable_due h₀ hstop hrun).queued (hdone.trans horder) hlen⟩

/-- The worker sleeps, and so does everybody who is in a call. -/
theorem at_rest (hworker : s.sleeps .worker = true)
    (hcallers : ∀ t, s.sleeps (.caller t) = true ∨ s.pc (.caller t) = .idle) (hstopper : s.pc .stopper = .idle) :
    ∀ x, ¬ Enabled (step code) (owner : Action (Thread T) Call → Option (Thread T)) x s := by
  rintro x ⟨a, hown, hsome⟩
  obtain ⟨s', hstep⟩ := Option.isSome_iff_exists.mp hsome
  rcases step_cases hstep with ⟨y, pick, e, rfl, hawake, he, _⟩ | ⟨y, rfl, _⟩ | ⟨y, i, e, rfl, _⟩
  · cases y with
    | worker => exact absurd (hworker.symm.trans hawake) (by simp)
    | caller t =>
      rcases hcallers t with hsleeps | hidle
      · exact absurd (hsleeps.symm.trans hawake) (by simp)
      · rw [hidle] at he
        simp [code, callerMain] at he
    | stopper =>
      rw [hstopper] at he
      simp [code, stopMain] at he
  all_goals simp [owner] at hown

/-- One caller posts a job; the worker runs it and goes to sleep. -/
def onePost : List (Action (Thread Unit) Call) :=
  .call (.caller ()) (.post true) :: (List.replicate 5 (.act (.caller ()) none) ++
    List.replicate 14 (.act .worker none))

theorem worker_serves_one :
    ∃ r : FairRun (step (code : Code (Pc : Thread Unit → Type) Memory Cond Call)) owner, r.state 0 = start ∧
      (r.state 6).mem.queued = [0] ∧ ∃ m, 6 ≤ m ∧ (r.state 6).mem.queued <+: (r.state m).mem.finished := by
  obtain ⟨s', hs', hworker, hcallers, hstopper⟩ : ∃ s', onePost.foldlM (step code) start = some s' ∧
      s'.sleeps .worker = true ∧ (∀ t, s'.pc (.caller t) = .idle) ∧ s'.pc .stopper = .idle :=
    ⟨_, rfl, rfl, fun _ => rfl, rfl⟩
  obtain ⟨r, hr⟩ := FairRun.of_steps onePost hs' (at_rest hworker (fun t => .inr (hcallers t)) hstopper)
  have hstart : r.state 0 = start := hr 0 start rfl
  have hsix := hr 6 _ rfl
  have hstop : (r.state 6).mem.stopping = false := by rw [hsix]; rfl
  exact ⟨r, hstart, by rw [hsix]; rfl, worker_serves.2.2 r hstart 6 hstop⟩

end VirtualMssql.Worker
