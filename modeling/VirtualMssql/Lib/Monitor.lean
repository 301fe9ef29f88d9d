/-
  MONITORS — threads that share a memory, one lock and some condition variables.

  The code of a thread says, for each place in it and the memory there, which statement comes next: where
  the thread goes, what it does to the memory, and whether it takes or gives back the lock, sleeps on a
  condition or wakes a sleeper.  To sleep is to give the lock back in the same step; a woken thread goes on
  behind the sleep and has to take the lock itself.  A sleeper may stir without being woken.  From outside,
  a thread may be called.  The memory can be `gone`: then the lock holds nobody back any more.

  If the code is bracketed (it takes the lock when it goes inside, gives it back when it goes out, and
  does neither in between), then the lock is held by exactly the thread that is inside (`Mutex.step`).  If
  a thread that is inside always finds its way out, the lock is free again and again in every fair run
  (`free_again`).
-/
import Mathlib.Logic.Function.Basic
import Mathlib.Data.List.Basic
import VirtualMssql.Lib.Fair

namespace VirtualMssql.Monitor

open Fair List Option Function

/-- What a statement does to the lock and the conditions. -/
inductive Op (C : Type)
  | keep
  | acquire
  | release
  | sleep (c : C)
  | signal (c : C)
  deriving DecidableEq

/-- A statement of a thread: its operation, where the thread goes, and the memory behind it. -/
structure Stmt (P M C : Type) where
  op : Op C := .keep
  pc : P
  mem : M

variable {θ M C ι : Type} {π : θ → Type}

/-- The next statement of a thread, if it can do anything at its place; what a call does to a thread; and
    whether the lock is gone with its memory. -/
structure Code (π : θ → Type) (M C ι : Type) where
  stmt : (x : θ) → π x → M → Option (Stmt (π x) M C)
  call : (x : θ) → ι → π x → M → Option (π x × M)
  gone : M → Bool

structure State (π : θ → Type) (M C : Type) where
  mem : M
  pc : (x : θ) → π x
  lock : Option θ := none
  asleep : List (θ × C) := []

/-- A thread goes on, and if its statement wakes a sleeper, this one; a sleeper stirs; a thread is called. -/
inductive Action (θ ι : Type)
  | act (x : θ) (pick : Option θ)
  | stir (x : θ)
  | call (x : θ) (i : ι)

def owner : Action θ ι → Option θ
  | .act x _ => some x
  | _ => none

section Step

variable [DecidableEq θ] [DecidableEq C] (code : Code π M C ι)

def State.sleeps (s : State π M C) (x : θ) : Bool := s.asleep.any (·.1 = x)

/-- The lock given back. -/
def State.unlocked (s : State π M C) : Option θ := if code.gone s.mem then s.lock else none

/-- A statement is carried out, if its operation is possible: the lock must be free, and a sleeper is woken
    if there is one. -/
def State.does (s : State π M C) (x : θ) (pick : Option θ) (e : Stmt (π x) M C) : Option (State π M C) :=
  let s' : State π M C := { s with mem := e.mem, pc := update s.pc x e.pc }
  match e.op with
  | .keep => some s'
  | .acquire => if code.gone s.mem then some s' else if s.lock.isNone then some { s' with lock := some x } else none
  | .release => some { s' with lock := s.unlocked code }
  | .sleep c => some { s' with lock := s.unlocked code, asleep := (x, c) :: s.asleep }
  | .signal c =>
    match pick with
    | some y => if (y, c) ∈ s.asleep then some { s' with asleep := s.asleep.filter (·.1 ≠ y) } else none
    | none => if s.asleep.any (·.2 = c) then none else some s'

def step (s : State π M C) : Action θ ι → Option (State π M C)
  | .act x pick => if s.sleeps x then none else (code.stmt x (s.pc x) s.mem).bind (s.does code x pick)
  | .stir x => if s.sleeps x then some { s with asleep := s.asleep.filter (·.1 ≠ x) } else none
  | .call x i =>
    if s.sleeps x then none
    else (code.call x i (s.pc x) s.mem).map fun e => { s with pc := update s.pc x e.1, mem := e.2 }

inductive Reachable (s₀ : State π M C) : State π M C → Prop
  | start : Reachable s₀ s₀
  | next {s s' : State π M C} (h : Reachable s₀ s) (a : Action θ ι) (hstep : step code s a = some s') :
      Reachable s₀ s'

variable {code} {s s' : State π M C} {x : θ} {pick : Option θ}

theorem Reachable.trans {s₀ : State π M C} (h : Reachable code s₀ s) (h' : Reachable code s s') :
    Reachable code s₀ s' := by
  induction h' with
  | start => exact h
  | next _ a hstep ih => exact ih.next a hstep

/-- **The rule of invariants**: what holds at the start and is kept by every step is always so. -/
theorem Reachable.keeps {s₀ : State π M C} {I : State π M C → Prop} (h : Reachable code s₀ s)
    (hstart : I s₀) (hstep : ∀ s a s', Reachable code s₀ s → I s → step code s a = some s' → I s') : I s := by
  induction h with
  | start => exact hstart
  | next h a hs ih => exact hstep _ a _ h ih hs

omit [DecidableEq C] in
theorem sleeps_iff : s.sleeps x = true ↔ ∃ c, (x, c) ∈ s.asleep := by
  simp [State.sleeps]

omit [DecidableEq C] in
theorem not_asleep (h : s.sleeps x = false) (c : C) : (x, c) ∉ s.asleep := by
  intro hmem
  rw [sleeps_iff.mpr ⟨c, hmem⟩] at h
  cases h

variable {a : Action θ ι}

/-- **What a step can do.** -/
theorem step_cases (h : step code s a = some s') :
    (∃ x pick e, a = .act x pick ∧ s.sleeps x = false ∧ code.stmt x (s.pc x) s.mem = some e ∧
      s.does code x pick e = some s') ∨
    (∃ x, a = .stir x ∧ s.sleeps x = true ∧ s' = { s with asleep := s.asleep.filter (·.1 ≠ x) }) ∨
    (∃ x i e, a = .call x i ∧ s.sleeps x = false ∧ code.call x i (s.pc x) s.mem = some e ∧
      s' = { s with pc := update s.pc x e.1, mem := e.2 }) := by
  cases a with
  | act x pick =>
    rw [step] at h
    split_ifs at h with hsleeps
    obtain ⟨e, he, hdoes⟩ := bind_eq_some_iff.mp h
    exact .inl ⟨x, pick, e, rfl, by simpa using hsleeps, he, hdoes⟩
  | stir x =>
    rw [step] at h
    split_ifs at h with hsleeps
    exact .inr (.inl ⟨x, rfl, hsleeps, (some.inj h).symm⟩)
  | call x i =>
    rw [step] at h
    split_ifs at h with hsleeps
    obtain ⟨e, he, hs⟩ := map_eq_some_iff.mp h
    exact .inr (.inr ⟨x, i, e, rfl, by simpa using hsleeps, he, hs.symm⟩)

variable {e : Stmt (π x) M C}

/-- A statement moves its own thread, and leaves its memory. -/
theorem does_moves (h : s.does code x pick e = some s') : s'.mem = e.mem ∧ s'.pc = update s.pc x e.pc := by
  revert h
  fun_cases State.does code s x pick e
  all_goals
    intro h
    first | cases h; done | rw [← some.inj h]; exact ⟨rfl, rfl⟩

/-- **The rule for the memory and the places**: what every statement and every call keeps, a run keeps. -/
theorem Reachable.holds {J : M → ((x : θ) → π x) → Prop} {s₀ s : State π M C} (h : Reachable code s₀ s)
    (hstart : J s₀.mem s₀.pc)
    (hstmt : ∀ s, Reachable code s₀ s → J s.mem s.pc → ∀ x e, code.stmt x (s.pc x) s.mem = some e →
      J e.mem (update s.pc x e.pc))
    (hcall : ∀ s, Reachable code s₀ s → J s.mem s.pc → ∀ x i e, code.call x i (s.pc x) s.mem = some e →
      J e.2 (update s.pc x e.1)) : J s.mem s.pc := by
  refine h.keeps (I := fun s => J s.mem s.pc) hstart fun s a s' hs hJ hstep => ?_
  rcases step_cases hstep with ⟨x, pick, e, rfl, _, he, hdoes⟩ | ⟨x, rfl, _, rfl⟩ | ⟨x, i, e, rfl, _, he, rfl⟩
  · obtain ⟨hmem, hpc⟩ := does_moves hdoes
    rw [hmem, hpc]
    exact hstmt s hs hJ x e he
  · exact hJ
  · exact hcall s hs hJ x i e he

/-! ## Sleepers -/

/-- A statement puts nobody to sleep but its own thread, and only if it says so. -/
theorem does_asleep (h : s.does code x pick e = some s') {z : θ × C} (hz : z ∈ s'.asleep) :
    z ∈ s.asleep ∨ (z.1 = x ∧ e.op = .sleep z.2) := by
  revert h
  fun_cases State.does code s x pick e
  all_goals
    intro h
    first | cases h; done | rw [← some.inj h] at hz
  case case6 c hop =>
    rcases mem_cons.mp hz with rfl | hz
    · exact .inr ⟨rfl, hop⟩
    · exact .inl hz
  case case7 => exact .inl (mem_filter.mp hz).1
  all_goals exact .inl hz

/-- **What a step is for one thread**: it acts, it is called, or it stays where it is. -/
theorem step_of (h : step code s a = some s') (x : θ) :
    (∃ pick e, a = .act x pick ∧ s.sleeps x = false ∧ code.stmt x (s.pc x) s.mem = some e ∧
      s.does code x pick e = some s') ∨
    (∃ i e, s.sleeps x = false ∧ code.call x i (s.pc x) s.mem = some e ∧ s'.asleep = s.asleep) ∨
    (owner a ≠ some x ∧ s'.pc x = s.pc x ∧ ∀ c, (x, c) ∈ s'.asleep → (x, c) ∈ s.asleep) := by
  rcases step_cases h with ⟨y, pick, e, rfl, hy, he, hdoes⟩ | ⟨y, rfl, _, rfl⟩ | ⟨y, i, e, rfl, hy, he, rfl⟩
  · by_cases hyx : y = x
    · subst hyx
      exact .inl ⟨pick, e, rfl, hy, he, hdoes⟩
    · refine .inr (.inr ⟨fun hown => hyx (some.inj hown), ?_, fun c hc => ?_⟩)
      · rw [(does_moves hdoes).2, update_of_ne (Ne.symm hyx)]
      · exact (does_asleep hdoes hc).resolve_right fun hown => hyx hown.1.symm
  · exact .inr (.inr ⟨by simp [owner], rfl, fun c hc => (mem_filter.mp hc).1⟩)
  · by_cases hyx : y = x
    · subst hyx
      exact .inr (.inl ⟨i, e, hy, he, rfl⟩)
    · exact .inr (.inr ⟨by simp [owner], update_of_ne (Ne.symm hyx) .., fun _ hc => hc⟩)

/-- **A sleeper stands where it fell asleep.** -/
theorem asleep_step {B : (x : θ) → C → π x → Prop}
    (hbed : ∀ x pc m e c, code.stmt x pc m = some e → e.op = .sleep c → B x c e.pc)
    (h : ∀ x c, (x, c) ∈ s.asleep → B x c (s.pc x)) (hstep : step code s a = some s') :
    ∀ x c, (x, c) ∈ s'.asleep → B x c (s'.pc x) := by
  intro x c hx
  rcases step_of hstep x with ⟨pick, e, rfl, hsleeps, he, hdoes⟩ | ⟨i, e, hsleeps, _, hasleep⟩ | ⟨_, hpc, hwas⟩
  · rcases does_asleep hdoes hx with hold | ⟨_, hop⟩
    · exact absurd hold (not_asleep hsleeps c)
    · rw [(does_moves hdoes).2, update_self]
      exact hbed x _ _ e c he hop
  · exact absurd (hasleep ▸ hx) (not_asleep hsleeps c)
  · rw [hpc]
    exact h x c (hwas c hx)

/-- **A signal** wakes one of the sleepers, if there are any. -/
theorem does_signal {c : C} (h : s.does code x pick e = some s') (hop : e.op = .signal c) :
    (∃ y, pick = some y ∧ (y, c) ∈ s.asleep ∧ s'.asleep = s.asleep.filter (·.1 ≠ y)) ∨
    (pick = none ∧ s'.asleep = s.asleep ∧ ∀ y, (y, c) ∉ s.asleep) := by
  unfold State.does at h
  simp only [hop] at h
  cases pick with
  | some y =>
    simp only at h
    split_ifs at h with hy
    rw [← some.inj h]
    exact .inl ⟨y, rfl, hy, rfl⟩
  | none =>
    simp only at h
    split_ifs at h with hany
    rw [← some.inj h]
    refine .inr ⟨rfl, rfl, fun y hy => hany ?_⟩
    exact any_eq_true.mpr ⟨(y, c), hy, by simp⟩

/-- **A signal wakes the only sleeper.** -/
theorem signal_wakes {w : θ} {c : C} (h : s.does code x pick e = some s') (hop : e.op = .signal c)
    (honly : ∀ y, (y, c) ∈ s.asleep → y = w) : (w, c) ∉ s'.asleep := by
  rcases does_signal h hop with ⟨y, _, hy, hasleep⟩ | ⟨_, hasleep, hnone⟩
  · rw [hasleep, honly y hy]
    simp
  · rw [hasleep]
    exact hnone w

variable (code) in
/-- An action that is not possible changes nothing. -/
def moves (s : State π M C) (a : Action θ ι) : State π M C := (step code s a).getD s

theorem Reachable.moves {s₀ s : State π M C} (h : Reachable code s₀ s) (a : Action θ ι) :
    Reachable code s₀ (moves code s a) := by
  unfold Monitor.moves
  cases hstep : step code s a with
  | none => exact h
  | some s' => exact h.next a hstep

end Step

/-! ## Mutual exclusion -/

/-- The operation fits to being inside or not, before it and behind it. -/
def Op.Crosses (op : Op C) (was now : Bool) : Prop :=
  match op with
  | .keep | .signal _ => now = was
  | .acquire => was = false ∧ now = true
  | .release | .sleep _ => was = true ∧ now = false

/-- The code takes the lock when it goes inside and gives it back when it goes out. -/
structure Bracketed (code : Code π M C ι) (inside : (x : θ) → π x → Bool) : Prop where
  gone : ∀ x pc m e, code.stmt x pc m = some e → code.gone m = true → code.gone e.mem = true
  stmt : ∀ x pc m e, code.stmt x pc m = some e → e.op.Crosses (inside x pc) (inside x e.pc)
  call : ∀ x i pc m e, code.call x i pc m = some e →
    inside x pc = false ∧ inside x e.1 = false ∧ (code.gone m = true → code.gone e.2 = true)

/-- **The lock is held by the thread that is inside**, as long as there is a lock; and no sleeper is. -/
structure Mutex (code : Code π M C ι) (inside : (x : θ) → π x → Bool) (s : State π M C) : Prop where
  lock : code.gone s.mem = false → ∀ x, s.lock = some x ↔ inside x (s.pc x) = true
  sleeper : ∀ x c, (x, c) ∈ s.asleep → inside x (s.pc x) = false

section Mutex

variable {code : Code π M C ι} {inside : (x : θ) → π x → Bool} {s s' : State π M C} {x : θ}

/-- Two threads are never inside. -/
theorem Mutex.alone (h : Mutex code inside s) (hgone : code.gone s.mem = false) {y : θ}
    (hx : inside x (s.pc x) = true) (hy : inside y (s.pc y) = true) : x = y := by
  have hlx := (h.lock hgone x).mpr hx
  have hly := (h.lock hgone y).mpr hy
  exact some.inj (hlx.symm.trans hly)

variable [DecidableEq θ]

/-- Who is inside when one thread has moved. -/
theorem inside_moved {pc : (x : θ) → π x} {p : π x} {b : Bool} (hp : inside x p = b) (y : θ) :
    inside y (update pc x p y) = true ↔ (y = x ∧ b = true) ∨ (y ≠ x ∧ inside y (pc y) = true) := by
  by_cases hy : y = x
  · subst hy
    simp [hp]
  · simp [hy]

variable [DecidableEq C] {pick : Option θ} {e : Stmt (π x) M C}

/-- The lock and the sleepers behind a statement. -/
theorem does_lock (h : s.does code x pick e = some s') (hgone : code.gone s.mem = false) : s'.lock = (match e.op with
      | .acquire => some x
      | .release | .sleep _ => none
      | _ => s.lock) ∧ (e.op = .acquire → s.lock = none) := by
  unfold State.does State.unlocked at h
  cases hop : e.op <;> simp only [hop, hgone, Bool.false_eq_true, if_false] at h
  case acquire =>
    split_ifs at h with hfree
    cases h
    exact ⟨rfl, fun _ => by simpa using hfree⟩
  case signal =>
    cases pick <;> simp only at h <;> split_ifs at h <;> cases h <;> exact ⟨rfl, by simp⟩
  all_goals
    cases h
    exact ⟨rfl, by simp⟩

/-- **A statement of a bracketed code** stays where it is and leaves the lock alone, goes inside with the lock,
    or goes out without it. -/
theorem Bracketed.does_cases (hcode : Bracketed code inside)
    (he : code.stmt x (s.pc x) s.mem = some e) (hdoes : s.does code x pick e = some s')
    (hgone : code.gone s.mem = false) : (s'.lock = s.lock ∧ inside x e.pc = inside x (s.pc x)) ∨
    (s.lock = none ∧ s'.lock = some x ∧ inside x e.pc = true) ∨
    (s'.lock = none ∧ inside x (s.pc x) = true ∧ inside x e.pc = false) := by
  obtain ⟨hlock, hfree⟩ := does_lock hdoes hgone
  have hbracket := hcode.stmt x (s.pc x) s.mem e he
  cases hop : e.op <;> rw [hop] at hlock hbracket
  case keep | signal => exact .inl ⟨hlock, hbracket⟩
  case acquire => exact .inr (.inl ⟨hfree hop, hlock, hbracket.2⟩)
  case release | sleep => exact .inr (.inr ⟨hlock, hbracket⟩)

theorem Mutex.does (hcode : Bracketed code inside) (h : Mutex code inside s)
    (he : code.stmt x (s.pc x) s.mem = some e) (hdoes : s.does code x pick e = some s')
    (hgone : code.gone s'.mem = false) (y : θ) : s'.lock = some y ↔ inside y (s'.pc y) = true := by
  obtain ⟨hmem, hpc⟩ := does_moves hdoes
  have hthere : code.gone s.mem = false := by
    by_contra hnot
    rw [hmem, hcode.gone x _ _ e he (by simpa using hnot)] at hgone
    cases hgone
  have hold := h.lock hthere
  rw [hpc]
  rcases hcode.does_cases he hdoes hthere with ⟨hlock, hsame⟩ | ⟨hfree, hlock, hin⟩ | ⟨hlock, hwas, hout⟩
  · rw [hlock, hold y, inside_moved hsame]
    by_cases hy : y = x
    · subst hy
      simp
    · simp [hy]
  · have hnone : ∀ z, inside z (s.pc z) = false := by
      intro z
      by_contra hz
      have hheld := (hold z).mpr (by simpa using hz)
      rw [hfree] at hheld
      cases hheld
    rw [hlock, inside_moved hin]
    simp only [hnone, Option.some.injEq]
    constructor
    · intro hxy
      exact .inl ⟨hxy.symm, trivial⟩
    · rintro (⟨rfl, _⟩ | ⟨_, hfalse⟩)
      · rfl
      · cases hfalse
  · rw [hlock, inside_moved hout]
    refine iff_of_false (by simp) ?_
    rintro (⟨_, hfalse⟩ | ⟨hne, hy⟩)
    · cases hfalse
    · exact hne (h.alone hthere hy hwas)

/-- **Every step keeps the lock with the thread that is inside.** -/
theorem Mutex.step (hcode : Bracketed code inside) (h : Mutex code inside s) {a : Action θ ι}
    (hstep : step code s a = some s') : Mutex code inside s' := by
  refine ⟨?_, asleep_step (B := fun x _ pc => inside x pc = false) ?_ h.sleeper hstep⟩
  · intro hgone y
    rcases step_cases hstep with ⟨x, pick, e, rfl, _, he, hdoes⟩ | ⟨x, rfl, _, rfl⟩ | ⟨x, i, e, rfl, _, he, rfl⟩
    · exact h.does hcode he hdoes hgone y
    · exact h.lock hgone y
    · obtain ⟨hout, hin, hthen⟩ := hcode.call x i (s.pc x) s.mem e he
      have hwas : code.gone s.mem = false := by
        by_contra hnot
        rw [hthen (by simpa using hnot)] at hgone
        cases hgone
      show s.lock = some y ↔ inside y (update s.pc x e.1 y) = true
      rw [h.lock hwas y, inside_moved hin]
      by_cases hyx : y = x
      · subst hyx
        simp [hout]
      · simp [hyx]
  · intro x pc m e c he hop
    have hbracket := hcode.stmt x pc m e he
    rw [hop] at hbracket
    exact hbracket.2

/-! ## Progress -/

/-- A thread that is awake and has a statement can act, unless it waits for the lock. -/
theorem enabled_of_stmt (hsleeps : s.sleeps x = false) (he : code.stmt x (s.pc x) s.mem = some e)
    (hlock : e.op = .acquire → s.lock = none) : Enabled (step code) (owner : Action θ ι → Option θ) x s := by
  -- a signal has to name a sleeper, if there is one
  have hdoes : ∃ pick, (s.does code x pick e).isSome = true := by
    unfold State.does
    cases hop : e.op with
    | acquire =>
      refine ⟨none, ?_⟩
      simp only [hlock hop, isNone_none, if_true]
      split_ifs <;> rfl
    | signal c =>
      by_cases hany : s.asleep.any (·.2 = c) = true
      · obtain ⟨⟨y, c'⟩, hy, hc⟩ := any_eq_true.mp hany
        obtain rfl : c' = c := by simpa using hc
        exact ⟨some y, by simp [hy]⟩
      · exact ⟨none, by simp [hany]⟩
    | _ => exact ⟨none, rfl⟩
  obtain ⟨pick, hpick⟩ := hdoes
  refine ⟨.act x pick, rfl, ?_⟩
  rw [step, hsleeps, he]
  exact hpick

theorem run_reachable (r : FairRun (step code) (owner : Action θ ι → Option θ)) (n k : Nat) :
    Reachable code (r.state n) (r.state (n + k)) := by
  induction k with
  | zero => exact .start
  | succ k ih =>
    cases ha : r.act (n + k) with
    | none => rw [← Nat.add_assoc, r.still (n + k) ha]; exact ih
    | some a => exact ih.next a (r.moves (n + k) a ha)

/-- Inside, the code always has a next statement, and there is a bound on how many are left. -/
structure Leaves (code : Code π M C ι) (inside : (x : θ) → π x → Bool) (depth : (x : θ) → π x → Nat) : Prop where
  stmt : ∀ x pc m, inside x pc = true → ∃ e, code.stmt x pc m = some e
  falls : ∀ x pc m e, code.stmt x pc m = some e → inside x pc = true → inside x e.pc = true → depth x e.pc < depth x pc

variable {depth : (x : θ) → π x → Nat}

/-- While a thread is inside, a step of another leaves it the lock; its own brings it closer to the end. -/
theorem holder_step (hcode : Bracketed code inside)
    (hleaves : Leaves code inside depth) (h : Mutex code inside s) (hgone : code.gone s.mem = false)
    (hx : s.lock = some x) {a : Action θ ι} (hstep : step code s a = some s') :
    s'.lock = none ∨ (s'.lock = some x ∧ depth x (s'.pc x) ≤ depth x (s.pc x) ∧
      (owner a = some x → depth x (s'.pc x) < depth x (s.pc x))) := by
  have hin : inside x (s.pc x) = true := (h.lock hgone x).mp hx
  rcases step_cases hstep with ⟨y, pick, e, rfl, _, he, hdoes⟩ | ⟨y, rfl, _, rfl⟩ | ⟨y, i, e, rfl, _, he, rfl⟩
  · obtain ⟨_, hpc⟩ := does_moves hdoes
    rcases hcode.does_cases he hdoes hgone with ⟨hlock, hsame⟩ | ⟨hfree, _, _⟩ | ⟨hnone, _, _⟩
    · refine .inr ⟨hlock.trans hx, ?_⟩
      rw [hpc]
      by_cases hy : y = x
      · subst hy
        rw [update_self]
        have hlt := hleaves.falls y (s.pc y) s.mem e he hin (hsame.trans hin)
        exact ⟨Nat.le_of_lt hlt, fun _ => hlt⟩
      · rw [update_of_ne (Ne.symm hy)]
        exact ⟨Nat.le_refl _, fun hown => absurd (some.inj hown) hy⟩
    · simp [hx] at hfree
    · exact .inl hnone
  · exact .inr ⟨hx, Nat.le_refl _, fun hown => absurd hown (by simp [owner])⟩
  · obtain ⟨hout, _⟩ := hcode.call y i (s.pc y) s.mem e he
    have hne : x ≠ y := by
      rintro rfl
      exact absurd (hout.symm.trans hin) (by simp)
    refine .inr ⟨hx, ?_⟩
    show depth x (update s.pc y e.1 x) ≤ _ ∧ _
    rw [update_of_ne hne]
    exact ⟨Nat.le_refl _, fun hown => absurd hown (by simp [owner])⟩

/-- **The lock is free again and again**, until it is gone. -/
theorem free_again (hcode : Bracketed code inside) (hleaves : Leaves code inside depth)
    (r : FairRun (step code) (owner : Action θ ι → Option θ)) (hmutex : ∀ n, Mutex code inside (r.state n)) (n : Nat) :
    ∃ m, n ≤ m ∧ ((r.state m).lock = none ∨ code.gone (r.state m).mem = true) := by
  cases hlock : (r.state n).lock with
  | none => exact ⟨n, Nat.le_refl n, .inl hlock⟩
  | some x =>
    cases hgone : code.gone (r.state n).mem with
    | true => exact ⟨n, Nat.le_refl n, .inr hgone⟩
    | false =>
      refine r.leads (P := fun s => Mutex code inside s ∧ code.gone s.mem = false ∧ s.lock = some x)
        (Q := fun s => s.lock = none ∨ code.gone s.mem = true) (μ := fun s => depth x (s.pc x)) (x := x) ?_ ?_ n
        ⟨hmutex n, hgone, hlock⟩
      · rintro s a s' ⟨hm, hg, hl⟩ hs
        rcases holder_step hcode hleaves hm hg hl hs with hnone | ⟨hl', hle, hlt⟩
        · exact .inl (.inl hnone)
        · cases hg' : code.gone s'.mem with
          | true => exact .inl (.inr rfl)
          | false => exact .inr ⟨⟨hm.step hcode hs, rfl, hl'⟩, hle, hlt⟩
      · rintro k ⟨hm, hg, hl⟩
        have hin := (hm.lock hg x).mp hl
        obtain ⟨e, he⟩ := hleaves.stmt x _ (r.state k).mem hin
        have hawake : (r.state k).sleeps x = false := by
          by_contra hsleeps
          obtain ⟨c, hc⟩ := sleeps_iff.mp (by simpa using hsleeps)
          exact absurd (hin.symm.trans (hm.sleeper x c hc)) (by simp)
        refine ⟨k, Nat.le_refl k, .inr (enabled_of_stmt hawake he fun hop => ?_)⟩
        have hbracket := hcode.stmt x _ _ e he
        rw [hop] at hbracket
        exact absurd (hin.symm.trans hbracket.1) (by simp)

end Mutex

end VirtualMssql.Monitor
