/-
  WHAT THE WORKER KEEPS — the invariants of the worker's queue over all interleavings.

  Three of them follow a job through its life.  `Queue`: the jobs that hang in the queue are those that were
  queued and not taken, in their order, and the tail points to the last one, but for a thread that is in the
  middle of its two assignments; the lock keeps every other thread away then.  `Phase`: a job that was taken
  is started before the next one is taken, and finishes before the next one is started.  `Told`: a job is
  marked as done, and its caller comes back, when it has finished.  `Ended` is about the end: the thread
  leaves when the stop flag is set, and the worker is freed when the thread has left.
-/
import VirtualMssql.Lib.LinkedQueue
import VirtualMssql.Worker

namespace VirtualMssql.Worker

open LinkedQueue Monitor List Function

variable {T : Type} [DecidableEq T]

/-! ## What the worker has in hand -/

/-- The job that was taken and not started. -/
def WorkerPc.holds : WorkerPc → Option Nat
  | .takeTail j | .leave (some j) | .begin_ j => some j
  | _ => none

/-- The job that runs. -/
def WorkerPc.runs : WorkerPc → Option Nat
  | .running j => some j
  | _ => none

/-- The job that has run and is not marked. -/
def WorkerPc.ran : WorkerPc → Option Nat
  | .after j | .enterDone j | .setDone j => some j
  | _ => none

/-- **Jobs run one after another**: at most one was taken and not started, at most one runs. -/
structure Phase (m : Memory) (pc : WorkerPc) : Prop where
  taken : m.taken = m.started ++ pc.holds.toList
  started : m.started = m.finished ++ pc.runs.toList
  ran : ∀ j, pc.ran = some j → j ∈ m.finished

variable {m m' : Memory} {s : System T} {pc : (x : Thread T) → Pc x} {j : Nat} {t : T} {p p' : CallerPc}

variable {e : Stmt WorkerPc Memory Cond}

theorem workerMain_phase {pc : WorkerPc} (h : Phase m pc) (he : workerMain m pc = some e) : Phase e.mem e.pc := by
  obtain ⟨htaken, hstarted, hran⟩ := h
  revert he
  fun_cases workerMain m pc
  all_goals rintro ⟨⟩
  case case6 => cases m.stopping <;> exact ⟨htaken, hstarted, hran⟩
  all_goals constructor <;> simp_all [WorkerPc.holds, WorkerPc.runs, WorkerPc.ran]

/-- What the worker alone writes. -/
structure SameWork (m m' : Memory) : Prop where
  taken : m'.taken = m.taken
  started : m'.started = m.started
  finished : m'.finished = m.finished
  ended : m'.ended = m.ended

/-- The queue is left alone. -/
structure SameQueue (m m' : Memory) : Prop where
  queued : m'.queued = m.queued
  taken : m'.taken = m.taken
  head : m'.head = m.head
  tail : m'.tail = m.tail
  next : m'.next = m.next
  made : m'.made = m.made
  freed : m'.freed = false → m.freed = false

/-- **What a caller leaves alone.** -/
theorem CallerMoves.work (h : CallerMoves m p p' m') :
    SameWork m m' ∧ m'.stopping = m.stopping ∧ m'.freed = m.freed := by
  rcases h with ⟨op, he⟩ | ⟨_, ⟨wait, ⟨⟩⟩ | ⟨⟨⟩⟩ | ⟨j, ⟨⟩⟩⟩
  · revert he
    fun_cases callerMain m p
    all_goals rintro ⟨⟩
    case case3 j wait =>
      unfold Memory.link
      split_ifs
      · exact ⟨⟨rfl, rfl, rfl, rfl⟩, rfl, rfl⟩
      · cases m.tail <;> exact ⟨⟨rfl, rfl, rfl, rfl⟩, rfl, rfl⟩
    case case4 => split_ifs <;> exact ⟨⟨rfl, rfl, rfl, rfl⟩, rfl, rfl⟩
    all_goals exact ⟨⟨rfl, rfl, rfl, rfl⟩, rfl, rfl⟩
  all_goals exact ⟨⟨rfl, rfl, rfl, rfl⟩, rfl, rfl⟩

/-- **What the stop leaves alone.** -/
theorem StopMoves.same {p p' : StopPc} (h : StopMoves m p p' m') :
    SameWork m m' ∧ SameQueue m m' ∧ m'.returned = m.returned ∧ m'.done = m.done := by
  rcases h with ⟨op, he⟩ | ⟨_, _, rfl⟩
  · revert he
    fun_cases stopMain m p
    all_goals rintro ⟨⟩
    all_goals exact ⟨⟨rfl, rfl, rfl, rfl⟩, ⟨rfl, rfl, rfl, rfl, rfl, rfl, by simp⟩, rfl, rfl⟩
  · exact ⟨⟨rfl, rfl, rfl, rfl⟩, ⟨rfl, rfl, rfl, rfl, rfl, rfl, id⟩, rfl, rfl⟩

theorem Phase.congr {pc : WorkerPc} (h : Phase m pc) (hwork : SameWork m m') : Phase m' pc where
  taken := by rw [hwork.taken, hwork.started]; exact h.taken
  started := by rw [hwork.started, hwork.finished]; exact h.started
  ran := by rw [hwork.finished]; exact h.ran

theorem reachable_phase (h : Reachable code start s) : Phase s.mem (s.pc .worker) := by
  refine reachable_rule (J := fun m pc => Phase m (pc .worker)) h ⟨rfl, rfl, by simp [start, WorkerPc.ran]⟩ ?_ ?_ ?_
  · intro s _ hs e he
    rw [update_self]
    exact workerMain_phase hs he
  · intro s _ hs t p m' hmoves
    rw [update_of_ne (by simp)]
    exact hs.congr hmoves.work.1
  · intro s _ hs p m' hmoves
    rw [update_of_ne (by simp)]
    exact hs.congr hmoves.same.1

/-! ## Who is told -/

/-- A job is marked, and its caller told, when it has finished. -/
structure Told (m : Memory) (pc : (x : Thread T) → Pc x) : Prop where
  done : ∀ j, m.done j = true → j ∈ m.finished
  leaving : ∀ t j, pc (.caller t) = .leaveWait j → j ∈ m.finished
  returned : ∀ j ∈ m.returned, j ∈ m.finished

variable {pc' : (x : Thread T) → Pc x}

/-- That the job is done is known: by its mark, to a caller on its way back, or to one that is back. -/
def Known (m : Memory) (pc : (x : Thread T) → Pc x) (j : Nat) : Prop :=
  m.done j = true ∨ (∃ t, pc (.caller t) = .leaveWait j) ∨ j ∈ m.returned

theorem workerMain_told {pc : WorkerPc} (he : workerMain m pc = some e) :
    e.mem.returned = m.returned ∧ (∀ j ∈ m.finished, j ∈ e.mem.finished) ∧
      ∀ j, e.mem.done j = true → m.done j = true ∨ pc = .setDone j := by
  revert he
  fun_cases workerMain m pc
  all_goals rintro ⟨⟩
  case case15 j =>
    refine ⟨rfl, fun k hk => hk, fun k hk => ?_⟩
    by_cases hjk : k = j
    · exact .inr (hjk ▸ rfl)
    · exact .inl (by simpa [update_of_ne hjk] using hk)
  all_goals simp +contextual

/-- A caller marks no job, and is told of one that is marked. -/
theorem CallerMoves.told (h : CallerMoves m p p' m') :
    (∀ j, m'.done j = true → m.done j = true) ∧ (∀ j, p' = .leaveWait j → m.done j = true) ∧
      ∀ j ∈ m'.returned, j ∈ m.returned ∨ m.done j = true ∨ p = .leaveWait j := by
  rcases h with ⟨op, he⟩ | ⟨_, ⟨wait, ⟨⟩⟩ | ⟨⟨⟩⟩ | ⟨j, ⟨⟩⟩⟩
  · revert he
    fun_cases callerMain m p
    all_goals rintro ⟨⟩
    case case3 j wait =>
      unfold Memory.link
      split_ifs
      · simp +contextual
      · cases m.tail <;> simp +contextual
    case case4 => split_ifs <;> simp +contextual
    case case6 j wait => cases wait <;> simp +contextual
    all_goals simp_all +contextual [or_comm]
  · refine ⟨fun j hj => ?_, by simp, fun j hj => .inl hj⟩
    by_cases hnew : j = m.made
    · subst hnew
      simp [Memory.alloc] at hj
    · simpa [Memory.alloc, update_of_ne hnew] using hj
  all_goals exact ⟨fun _ hj => hj, by simp, fun j hj => .inl hj⟩

/-- The worker makes one job known, when it marks it … -/
theorem known_worker (he : workerMain m (pc .worker) = some e) (hj : Known e.mem (update pc .worker e.pc) j) :
    Known m pc j ∨ pc .worker = .setDone j := by
  obtain ⟨hreturned, -, hdone⟩ := workerMain_told he
  rcases hj with hmark | ⟨t, ht⟩ | hback
  · exact (hdone j hmark).imp_left .inl
  · rw [update_of_ne (by simp)] at ht
    exact .inl (.inr (.inl ⟨t, ht⟩))
  · exact .inl (.inr (.inr (hreturned ▸ hback)))

/-- … and a caller or the stop makes none. -/
theorem known_caller (h : CallerMoves m (pc (.caller t)) p m') (hj : Known m' (update pc (.caller t) p) j) :
    Known m pc j := by
  obtain ⟨hdone, hleaving, hreturned⟩ := h.told
  rcases hj with hmark | ⟨t', ht'⟩ | hback
  · exact .inl (hdone j hmark)
  · by_cases ht : t' = t
    · subst ht
      rw [update_self] at ht'
      exact .inl (hleaving j ht')
    · rw [update_of_ne (by simpa using ht)] at ht'
      exact .inr (.inl ⟨t', ht'⟩)
  · rcases hreturned j hback with hold | hmark | hpc
    · exact .inr (.inr hold)
    · exact .inl hmark
    · exact .inr (.inl ⟨t, hpc⟩)

theorem known_stop {q : StopPc} (h : StopMoves m (pc .stopper) q m') (hj : Known m' (update pc .stopper q) j) :
    Known m pc j := by
  obtain ⟨-, -, hreturned, hdone⟩ := h.same
  simpa [Known, hreturned, hdone] using hj

/-- **What is known to be done has finished.** -/
theorem known_finished (h : Reachable code start s) : Known s.mem s.pc j → j ∈ s.mem.finished := by
  refine reachable_rule (J := fun m pc => Known m pc j → j ∈ m.finished) h (by simp [start, Known]) ?_ ?_ ?_
  · intro s hs hJ e he hj
    refine (workerMain_told he).2.1 j ?_
    rcases known_worker he hj with hold | hpc
    · exact hJ hold
    · exact (reachable_phase hs).ran j (by rw [hpc]; rfl)
  · intro s _ hJ t p m' hmoves hj
    rw [hmoves.work.1.finished]
    exact hJ (known_caller hmoves hj)
  · intro s _ hJ p m' hmoves hj
    rw [hmoves.same.1.finished]
    exact hJ (known_stop hmoves hj)

theorem reachable_told (h : Reachable code start s) : Told s.mem s.pc where
  done _ hj := known_finished h (.inl hj)
  leaving t _ hj := known_finished h (.inr (.inl ⟨t, hj⟩))
  returned _ hj := known_finished h (.inr (.inr hj))

/-! ## The end of the thread -/

/-- The worker is on its way out. -/
def WorkerPc.leaving : WorkerPc → Bool
  | .leaveExit | .exited => true
  | _ => false

/-- The worker leaves when it was told to, and is freed when it has left. -/
structure Ended (m : Memory) (pc : (x : Thread T) → Pc x) : Prop where
  leaving : (pc .worker).leaving = true → m.stopping = true
  ended : m.ended = true → pc .worker = .exited
  freeing : pc .stopper = .free → m.ended = true
  freed : m.freed = true → m.ended = true

theorem workerMain_ended {pc : WorkerPc} (he : workerMain m pc = some e) :
    e.mem.stopping = m.stopping ∧ e.mem.freed = m.freed ∧ pc ≠ .exited ∧ (m.ended = true → e.mem.ended = true) ∧
      (e.pc.leaving = true → pc.leaving = true ∨ m.stopping = true) ∧
      (e.mem.ended = true → m.ended = true ∨ e.pc = .exited) := by
  revert he
  fun_cases workerMain m pc
  all_goals rintro ⟨⟩
  case case6 => cases m.stopping <;> simp +contextual [WorkerPc.leaving]
  all_goals simp +contextual [WorkerPc.leaving]

theorem StopMoves.ended {p p' : StopPc} (h : StopMoves m p p' m') :
    (m.stopping = true → m'.stopping = true) ∧ (p' = .free → m.ended = true) ∧
      (m'.freed = true → m.freed = true ∨ p = .free) := by
  rcases h with ⟨op, he⟩ | ⟨_, rfl, rfl⟩
  · revert he
    fun_cases stopMain m p
    all_goals rintro ⟨⟩
    all_goals simp_all
  · exact ⟨id, by simp, .inl⟩

omit [DecidableEq T] in
theorem Ended.frame (h : Ended m pc) (hworker : pc' .worker = pc .worker)
    (hended : m'.ended = m.ended) (hstopping : m.stopping = true → m'.stopping = true)
    (hfreeing : pc' .stopper = .free → m.ended = true) (hfreed : m'.freed = true → m.ended = true) :
    Ended m' pc' where
  leaving hl := hstopping (h.leaving (hworker ▸ hl))
  ended hd := by rw [hworker]; exact h.ended (hended ▸ hd)
  freeing hf := by rw [hended]; exact hfreeing hf
  freed hf := by rw [hended]; exact hfreed hf

theorem reachable_ended (h : Reachable code start s) : Ended s.mem s.pc := by
  refine reachable_rule (J := Ended) h (by constructor <;> simp [start, WorkerPc.leaving]) ?_ ?_ ?_
  · intro s _ hJ e he
    obtain ⟨hstopping, hfreed, hpc, hmono, hleaving, hended⟩ := workerMain_ended he
    refine ⟨fun hl => ?_, fun hd => ?_, fun hf => ?_, fun hf => ?_⟩
    · rw [update_self] at hl
      rw [hstopping]
      exact (hleaving hl).elim hJ.leaving id
    · rw [update_self]
      exact (hended hd).elim (fun hold => absurd (hJ.ended hold) hpc) id
    · rw [update_of_ne (by simp)] at hf
      exact hmono (hJ.freeing hf)
    · exact hmono (hJ.freed (hfreed ▸ hf))
  · intro s _ hJ t p m' hmoves
    obtain ⟨hwork, hstopping, hfreed⟩ := hmoves.work
    refine hJ.frame (update_of_ne (by simp) ..) hwork.ended (fun hs => hstopping ▸ hs) (fun hf => ?_)
      (fun hf => hJ.freed (hfreed ▸ hf))
    rw [update_of_ne (by simp)] at hf
    exact hJ.freeing hf
  · intro s _ hJ p m' hmoves
    obtain ⟨hstopping, hfree, hfreed⟩ := hmoves.ended
    refine hJ.frame (update_of_ne (by simp) ..) hmoves.same.1.ended hstopping (fun hf => ?_)
      (fun hf => (hfreed hf).elim hJ.freed hJ.freeing)
    rw [update_self] at hf
    exact hfree hf

/-! ## The queue -/

/-- The job a caller is about to queue. -/
def CallerPc.brings : CallerPc → Option Nat
  | .enter j _ | .link j _ => some j
  | _ => none

/-- The job that hangs in the queue while the tail does not point to it yet … -/
def CallerPc.links : CallerPc → Option Nat
  | .linkTail j _ => some j
  | _ => none

/-- … and the one that is out of the queue while the tail may still point to it. -/
def WorkerPc.takes : WorkerPc → Option Nat
  | .takeTail j => some j
  | _ => none

/-- Where the tail points: to the last waiting job, but for a thread in the middle of its work. -/
structure Tail (m : Memory) (pc : (x : Thread T) → Pc x) (waiting : List Nat) : Prop where
  still : (∀ t, (pc (.caller t)).links = none) → (pc .worker).takes = none → m.tail = waiting.getLast?
  links : ∀ t j, (pc (.caller t)).links = some j → ∃ l, waiting = l ++ [j] ∧ m.tail = l.getLast?
  takes : ∀ j, (pc .worker).takes = some j → m.tail = (j :: waiting).getLast?

/-- **The queue**: what hangs in it are the queued jobs that were not taken. -/
structure Queue (m : Memory) (pc : (x : Thread T) → Pc x) : Prop where
  made : ∀ j ∈ m.queued, j < m.made
  nodup : m.queued.Nodup
  brings : ∀ t j, (pc (.caller t)).brings = some j → j < m.made ∧ j ∉ m.queued ∧ m.next j = none
  apart : ∀ t t' j, (pc (.caller t)).brings = some j → (pc (.caller t')).brings = some j → t = t'
  line : ∃ waiting, m.queued = m.taken ++ waiting ∧ Chain m.next m.head waiting ∧ (m.freed = false → Tail m pc waiting)

omit [DecidableEq T] in
theorem Queue.frame (h : Queue m pc) (hsame : SameQueue m m')
    (hbrings : ∀ t, (pc' (.caller t)).brings = (pc (.caller t)).brings)
    (hlinks : ∀ t, (pc' (.caller t)).links = (pc (.caller t)).links)
    (htakes : (pc' .worker).takes = (pc .worker).takes) : Queue m' pc' := by
  obtain ⟨hqueued, htaken, hhead, htail, hnext, hmade, hfreed⟩ := hsame
  refine ⟨?_, ?_, ?_, ?_, ?_⟩
  · rw [hqueued, hmade]; exact h.made
  · rw [hqueued]; exact h.nodup
  · intro t
    rw [hqueued, hmade, hnext, hbrings t]
    exact h.brings t
  · intro t t'
    rw [hbrings t, hbrings t']
    exact h.apart t t'
  · obtain ⟨waiting, hline, hchain, hT⟩ := h.line
    refine ⟨waiting, by rw [hqueued, htaken]; exact hline, by rw [hnext, hhead]; exact hchain, fun hf => ?_⟩
    obtain ⟨hstill, hl, ht⟩ := hT (hfreed hf)
    refine ⟨?_, ?_, ?_⟩
    · simp only [hlinks, htakes, htail]; exact hstill
    · simp only [hlinks, htail]; exact hl
    · simp only [htakes, htail]; exact ht

theorem workerMain_queue {pc : WorkerPc} (he : workerMain m pc = some e) :
    (SameQueue m e.mem ∧ e.pc.takes = pc.takes) ∨ (∃ j, pc = .take ∧ m.head = some j ∧
      e = { pc := .takeTail j, mem := { m with head := m.next j, taken := m.taken ++ [j] } }) ∨
    (∃ j, pc = .takeTail j ∧
      e = { pc := .leave (some j), mem := { m with tail := if m.head.isNone then none else m.tail } }) := by
  revert he
  fun_cases workerMain m pc
  all_goals rintro ⟨⟩
  case case5 j hhead => exact .inr (.inl ⟨j, rfl, hhead, rfl⟩)
  case case6 => exact .inl ⟨⟨rfl, rfl, rfl, rfl, rfl, rfl, id⟩, by cases m.stopping <;> rfl⟩
  case case7 j => exact .inr (.inr ⟨j, rfl, rfl⟩)
  all_goals exact .inl ⟨⟨rfl, rfl, rfl, rfl, rfl, rfl, id⟩, rfl⟩

/-- **What a caller does to the queue**: nothing, also when the worker is freed; the two assignments; or it has a
    new job. -/
theorem CallerMoves.queue (h : CallerMoves m p p' m') : (SameQueue m m' ∧ p'.brings = p.brings ∧ p'.links = p.links) ∨
    (m.freed = true ∧ m' = m ∧ p'.brings = none) ∨ (∃ wait, p = .idle ∧ p' = .enter m.made wait ∧ m' = m.alloc) ∨
    (∃ j wait, m.freed = false ∧ p = .link j wait ∧ p' = .linkTail j wait ∧ m' = m.link j) ∨
    (∃ j wait, m.freed = false ∧ p = .linkTail j wait ∧ p' = .leave j wait ∧ m' = { m with tail := some j }) := by
  rcases h with ⟨op, he⟩ | ⟨rfl, ⟨wait, ⟨⟩⟩ | ⟨⟨⟩⟩ | ⟨j, ⟨⟩⟩⟩
  · revert he
    fun_cases callerMain m p
    all_goals rintro ⟨⟩
    case case3 j wait =>
      cases hfreed : m.freed with
      | true => exact .inr (.inl ⟨rfl, rfl, rfl⟩)
      | false => exact .inr (.inr (.inr (.inl ⟨j, wait, rfl, rfl, rfl, rfl⟩)))
    case case4 j wait =>
      cases hfreed : m.freed with
      | true => exact .inr (.inl ⟨rfl, rfl, rfl⟩)
      | false => exact .inr (.inr (.inr (.inr ⟨j, wait, rfl, rfl, rfl, rfl⟩)))
    case case6 j wait => exact .inl ⟨⟨rfl, rfl, rfl, rfl, rfl, rfl, id⟩, by cases wait <;> exact ⟨rfl, rfl⟩⟩
    all_goals exact .inl ⟨⟨rfl, rfl, rfl, rfl, rfl, rfl, id⟩, rfl, rfl⟩
  · exact .inr (.inr (.inl ⟨wait, rfl, rfl, rfl⟩))
  all_goals exact .inl ⟨⟨rfl, rfl, rfl, rfl, rfl, rfl, id⟩, rfl, rfl⟩

/-- The worker takes the first job … -/
theorem Queue.take (h : Queue m pc) (hhead : m.head = some j) (htakes : (pc .worker).takes = none)
    (halone : m.freed = false → ∀ t, (pc (.caller t)).links = none) :
    Queue { m with head := m.next j, taken := m.taken ++ [j] } (update pc .worker (.takeTail j)) := by
  obtain ⟨waiting, hline, hchain, htail⟩ := h.line
  rw [hhead] at hchain
  obtain ⟨rest, rfl, hrest⟩ := hchain.unhook
  refine ⟨h.made, h.nodup, ?_, ?_, rest, by simpa using hline, hrest, fun hfreed => ?_⟩
  · simpa using h.brings
  · simpa using h.apart
  · have hlinks := halone hfreed
    have hlast := (htail hfreed).still hlinks htakes
    refine ⟨fun _ ht => absurd ht (by simp [WorkerPc.takes]), fun t k hk => absurd hk (by simp [hlinks t]),
      fun k hk => ?_⟩
    obtain rfl : j = k := by simpa [WorkerPc.takes] using hk
    exact hlast

/-- … and moves the tail, if it was the last one. -/
theorem Queue.takeTail (h : Queue m pc) (htakes : pc .worker = .takeTail j)
    (halone : m.freed = false → ∀ t, (pc (.caller t)).links = none) :
    Queue { m with tail := if m.head.isNone then none else m.tail } (update pc .worker (.leave (some j))) := by
  obtain ⟨waiting, hline, hchain, htail⟩ := h.line
  refine ⟨h.made, h.nodup, by simpa using h.brings, by simpa using h.apart, waiting, hline, hchain, fun hfreed => ?_⟩
  have hlinks := halone hfreed
  have hlast := (htail hfreed).takes j (by rw [htakes]; rfl)
  refine ⟨fun _ _ => ?_, fun t k hk => absurd hk (by simp [hlinks t]), fun k hk => absurd hk (by simp [WorkerPc.takes])⟩
  show (if m.head.isNone then none else m.tail) = _
  cases waiting with
  | nil =>
    rw [hchain.nil_iff.mpr rfl]
    rfl
  | cons k rest =>
    rw [hchain.1, hlast]
    rfl

variable {f : CallerPc → Option Nat}

/-- A caller has moved to where it has no job: who has one is another, and has it from before. -/
theorem other_caller {t' : T} {i : Nat} (hp : f p = none) (hi : f (update pc (.caller t) p (.caller t')) = some i) :
    t' ≠ t ∧ f (pc (.caller t')) = some i := by
  by_cases ht : t' = t
  · subst ht
    rw [update_self, hp] at hi
    cases hi
  · rw [update_of_ne (by simpa using ht)] at hi
    exact ⟨ht, hi⟩

theorem same_callers (hp : f p = f (pc (.caller t))) (t' : T) :
    f (update pc (.caller t) p (.caller t')) = f (pc (.caller t')) := by
  by_cases ht : t' = t
  · subst ht
    rw [update_self, hp]
  · rw [update_of_ne (by simpa using ht)]

/-- A job is linked behind the last one. -/
theorem link_chain {waiting : List Nat} (hchain : Chain m.next m.head waiting)
    (htail : m.tail = waiting.getLast?) (hnodup : waiting.Nodup) (hnew : j ∉ waiting) (hnext : m.next j = none) :
    Chain (m.link j).next (m.link j).head (waiting ++ [j]) := by
  unfold Memory.link
  cases hlast : m.tail with
  | none =>
    have hnil : waiting = [] := getLast?_eq_none_iff.mp (htail.symm.trans hlast)
    subst hnil
    exact ⟨rfl, hnext⟩
  | some k => exact Chain.hook hnext hchain (htail.symm.trans hlast) hnodup hnew

theorem link_next {i : Nat} (hi : m.tail ≠ some i) : (m.link j).next i = m.next i := by
  unfold Memory.link
  cases hlast : m.tail with
  | none => rfl
  | some k =>
    have hik : i ≠ k := by
      rintro rfl
      exact hi hlast
    exact update_of_ne hik _ _

/-- The rest of the memory. -/
theorem link_rest (m : Memory) (j : Nat) :
    (m.link j).queued = m.queued ++ [j] ∧ (m.link j).made = m.made ∧ (m.link j).taken = m.taken ∧
      (m.link j).tail = m.tail := by
  unfold Memory.link
  cases m.tail <;> exact ⟨rfl, rfl, rfl, rfl⟩

theorem Queue.apart_moved (h : Queue m pc) (hp : p.brings = none) (t₁ t₂ : T) (i : Nat)
    (h₁ : (update pc (.caller t) p (.caller t₁)).brings = some i)
    (h₂ : (update pc (.caller t) p (.caller t₂)).brings = some i) : t₁ = t₂ :=
  h.apart t₁ t₂ i (other_caller hp h₁).2 (other_caller hp h₂).2

variable {wait : Bool}

/-- A job is hung behind the last one … -/
theorem Queue.link {m : Memory} {pc : (x : Thread T) → Pc x} (h : Queue m pc) {t : T} {j : Nat}
    (hpc : pc (.caller t) = .link j wait) (hfreed : m.freed = false) (htakes : (pc .worker).takes = none)
    (halone : ∀ t', (pc (.caller t')).links = none) :
    Queue (m.link j) (update pc (.caller t) (.linkTail j wait)) := by
  obtain ⟨waiting, hline, hchain, htail⟩ := h.line
  have hlast := (htail hfreed).still halone htakes
  have hmine : (pc (.caller t)).brings = some j := by rw [hpc]; rfl
  obtain ⟨hmade, hnew, hnext⟩ := h.brings t j hmine
  obtain ⟨hqueued, hmade', htaken, htail'⟩ := link_rest m j
  have hwaiting : ∀ i ∈ waiting, i ∈ m.queued := fun i hi => by rw [hline]; exact mem_append_right _ hi
  have hnodup : waiting.Nodup := (nodup_append.mp (hline ▸ h.nodup)).2.1
  refine ⟨?_, ?_, ?_, ?_, waiting ++ [j], ?_, ?_, fun _ => ⟨?_, ?_, ?_⟩⟩
  · intro i hi
    rw [hqueued, mem_append, mem_singleton] at hi
    rw [hmade']
    rcases hi with hold | rfl
    · exact h.made i hold
    · exact hmade
  · rw [hqueued]
    exact nodup_append.mpr ⟨h.nodup, by simp, fun i hi k hk hik =>
      hnew (by rw [← mem_singleton.mp hk, ← hik]; exact hi)⟩
  · intro t' i hi
    obtain ⟨ht, hbrings⟩ := other_caller (f := CallerPc.brings) rfl hi
    obtain ⟨himade, hinew, hinext⟩ := h.brings t' i hbrings
    have hij : i ≠ j := by
      rintro rfl
      exact ht (h.apart t' t i hbrings hmine)
    refine ⟨hmade' ▸ himade, by rw [hqueued]; simp [hinew, hij], ?_⟩
    rw [link_next]
    · exact hinext
    · intro hi'
      exact hinew (hwaiting i (mem_of_getLast? (hlast.symm.trans hi')))
  · exact h.apart_moved rfl
  · rw [hqueued, htaken, hline, append_assoc]
  · exact link_chain hchain hlast hnodup (fun hj => hnew (hwaiting j hj)) hnext
  · intro hlinks _
    exact absurd (hlinks t) (by simp [CallerPc.links])
  · intro t' i hi
    by_cases ht : t' = t
    · subst ht
      obtain rfl : j = i := by simpa [CallerPc.links] using hi
      exact ⟨waiting, rfl, htail'.trans hlast⟩
    · rw [update_of_ne (by simpa using ht), halone t'] at hi
      cases hi
  · intro i hi
    rw [update_of_ne (by simp), htakes] at hi
    cases hi

/-- … and the tail moves to it. -/
theorem Queue.linkTail (h : Queue m pc) (hpc : pc (.caller t) = .linkTail j wait)
    (hfreed : m.freed = false) (htakes : (pc .worker).takes = none)
    (halone : ∀ t', t' ≠ t → (pc (.caller t')).links = none) :
    Queue { m with tail := some j } (update pc (.caller t) (.leave j wait)) := by
  obtain ⟨waiting, hline, hchain, htail⟩ := h.line
  obtain ⟨l, rfl, _⟩ := (htail hfreed).links t j (by rw [hpc]; rfl)
  refine ⟨h.made, h.nodup, ?_, ?_, l ++ [j], hline, hchain, fun _ => ⟨?_, ?_, ?_⟩⟩
  · intro t' i hi
    exact h.brings t' i (other_caller (f := CallerPc.brings) rfl hi).2
  · exact h.apart_moved rfl
  · intro _ _
    exact (getLast?_concat ..).symm
  · intro t' i hi
    obtain ⟨ht, hi⟩ := other_caller (f := CallerPc.links) rfl hi
    exact absurd hi (by rw [halone t' ht]; simp)
  · intro i hi
    rw [update_of_ne (by simp), htakes] at hi
    cases hi

/-- When the worker is freed, a caller may still go on; the queue is left as it was. -/
theorem Queue.lost (h : Queue m pc) (hp : p.brings = none) (hfreed : m.freed = true) :
    Queue m (update pc (.caller t) p) := by
  obtain ⟨waiting, hline, hchain, _⟩ := h.line
  refine ⟨h.made, h.nodup, ?_, ?_, waiting, hline, hchain, fun hnot => absurd (hfreed.symm.trans hnot) (by simp)⟩
  · intro t' i hi
    exact h.brings t' i (other_caller (f := CallerPc.brings) hp hi).2
  · exact h.apart_moved hp

/-- A new job is one that nobody brings and that is not queued. -/
theorem Queue.alloc {m : Memory} {pc : (x : Thread T) → Pc x} (h : Queue m pc) {t : T}
    (hpc : pc (.caller t) = .idle) : Queue m.alloc (update pc (.caller t) (.enter m.made wait)) := by
  obtain ⟨waiting, hline, hchain, htail⟩ := h.line
  have hnext : ∀ i, i < m.made → m.alloc.next i = m.next i := fun i hi => update_of_ne (by omega) _ _
  have hbrings : ∀ t' i, (update pc (.caller t) (.enter m.made wait) (.caller t')).brings = some i →
      (t' = t ∧ i = m.made) ∨ (t' ≠ t ∧ (pc (.caller t')).brings = some i) := by
    intro t' i hi
    by_cases ht : t' = t
    · subst ht
      rw [update_self] at hi
      exact .inl ⟨rfl, (Option.some.inj hi).symm⟩
    · rw [update_of_ne (by simpa using ht)] at hi
      exact .inr ⟨ht, hi⟩
  have hidle : CallerPc.links (.enter m.made wait) = (pc (.caller t)).links := by rw [hpc]; rfl
  have hlinks := same_callers hidle
  refine ⟨fun j hj => Nat.lt_succ_of_lt (h.made j hj), h.nodup, ?_, ?_, waiting, hline, ?_, fun hfreed => ?_⟩
  · intro t' i hi
    rcases hbrings t' i hi with ⟨_, rfl⟩ | ⟨_, hold⟩
    · exact ⟨Nat.lt_succ_self _, fun hmem => Nat.lt_irrefl _ (h.made _ hmem), update_self ..⟩
    · obtain ⟨hmade, hnew, hnone⟩ := h.brings t' i hold
      exact ⟨Nat.lt_succ_of_lt hmade, hnew, (hnext i hmade).trans hnone⟩
  · intro t₁ t₂ i h₁ h₂
    rcases hbrings t₁ i h₁ with ⟨rfl, rfl⟩ | ⟨_, hold₁⟩ <;> rcases hbrings t₂ _ h₂ with ⟨rfl, hi⟩ | ⟨_, hold₂⟩
    · rfl
    · exact absurd (h.brings t₂ _ hold₂).1 (Nat.lt_irrefl _)
    · exact absurd (hi ▸ (h.brings t₁ i hold₁).1) (Nat.lt_irrefl _)
    · exact h.apart t₁ t₂ i hold₁ hold₂
  · exact hchain.congr fun j hj => hnext j (h.made j (by rw [hline]; exact mem_append_right _ hj))
  · obtain ⟨hstill, hl, ht⟩ := htail hfreed
    refine ⟨?_, ?_, ?_⟩
    · show _ → _ → m.tail = _
      simp only [hlinks]
      simpa using hstill
    · simp only [hlinks]
      exact hl
    · show ∀ j, _ → m.tail = _
      simpa using ht

/-! The lock keeps the other threads out of the queue. -/

omit [DecidableEq T] in
theorem no_links (h : Mutex code inside s) (hfreed : s.mem.freed = false) {x : Thread T}
    (hx : inside x (s.pc x) = true) (hne : Thread.caller t ≠ x) : (s.pc (.caller t)).links = none := by
  cases hpc : s.pc (.caller t) with
  | linkTail j wait =>
    have hin : inside (.caller t) (s.pc (.caller t)) = true := by rw [hpc]; rfl
    exact absurd (h.alone hfreed hin hx) hne
  | _ => rfl

omit [DecidableEq T] in
theorem no_takes (h : Mutex code inside s) (hfreed : s.mem.freed = false) {x : Thread T}
    (hx : inside x (s.pc x) = true) (hne : Thread.worker ≠ x) : (s.pc .worker).takes = none := by
  cases hpc : s.pc .worker with
  | takeTail j =>
    have hin : inside .worker (s.pc .worker) = true := by rw [hpc]; rfl
    exact absurd (h.alone hfreed hin hx) hne
  | _ => rfl

/-- Who links a job is alone with the queue. -/
theorem link_alone (h : Mutex code inside s) (hfreed : s.mem.freed = false) (hpc : s.pc (.caller t) = .link j wait) :
    (∀ t', (s.pc (.caller t')).links = none) ∧ (s.pc .worker).takes = none := by
  have hin : inside (.caller t) (s.pc (.caller t)) = true := by rw [hpc]; rfl
  refine ⟨fun t' => ?_, no_takes h hfreed hin (by simp)⟩
  by_cases ht : t' = t
  · rw [ht, hpc]
    rfl
  · exact no_links h hfreed hin (by simpa using ht)

theorem reachable_queue (h : Reachable code start s) : Queue s.mem s.pc := by
  refine reachable_rule (J := Queue) h ?_ ?_ ?_ ?_
  · refine ⟨by simp [start], by simp [start], by simp [start, CallerPc.brings],
      by simp [start, CallerPc.brings], [], rfl, rfl, ?_⟩
    exact fun _ => ⟨fun _ _ => rfl, by simp [start, CallerPc.links], by simp [start, WorkerPc.takes]⟩
  · intro s hs hJ e he
    have halone : inside .worker (s.pc .worker) = true → s.mem.freed = false → ∀ t, (s.pc (.caller t)).links = none :=
      fun hin hfreed t => no_links (reachable_mutex hs) hfreed hin (by simp)
    rcases workerMain_queue he with ⟨hsame, htakes⟩ | ⟨j, hpc, hhead, rfl⟩ | ⟨j, hpc, rfl⟩
    · exact hJ.frame hsame (by simp) (by simp) (by simpa using htakes)
    · exact hJ.take hhead (by rw [hpc]; rfl) (halone (by rw [hpc]; rfl))
    · exact hJ.takeTail hpc (halone (by rw [hpc]; rfl))
  · intro s hs hJ t p m' hmoves
    have hmutex := reachable_mutex hs
    rcases hmoves.queue with ⟨hsame, hbrings, hlinks⟩ | ⟨hfreed, rfl, hp⟩ | ⟨wait, hidle, rfl, rfl⟩ |
      ⟨j, wait, hfreed, hpc, rfl, rfl⟩ | ⟨j, wait, hfreed, hpc, rfl, rfl⟩
    · exact hJ.frame hsame (same_callers hbrings) (same_callers hlinks) (by simp)
    · exact hJ.lost hp hfreed
    · exact hJ.alloc hidle
    · obtain ⟨hlinks, htakes⟩ := link_alone hmutex hfreed hpc
      exact hJ.link hpc hfreed htakes hlinks
    · have hin : inside (.caller t) (s.pc (.caller t)) = true := by rw [hpc]; rfl
      exact hJ.linkTail hpc hfreed (no_takes hmutex hfreed hin (by simp))
        fun t' ht => no_links hmutex hfreed hin (by simpa using ht)
  · intro s _ hJ p m' hmoves
    exact hJ.frame hmoves.same.2.1 (by simp) (by simp) (by simp)

end VirtualMssql.Worker
