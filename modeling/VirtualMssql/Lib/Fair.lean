/-
  FAIR RUNS — infinite runs of a system of threads, and what must happen in them.

  A system has a step function that says which actions are possible, and every action may belong to a
  thread.  A run is fair when every thread that is able to act again and again does act again and again.
  The one rule is `FairRun.leads`: from `P` the run gets to `Q` if every step keeps `P` and raises no
  measure until `Q` holds, every action of one chosen thread lowers the measure, and that thread is always
  able to act sooner or later.
-/
import Mathlib.Order.Basic

namespace VirtualMssql.Fair

open List Option

variable {σ α θ : Type}

/-- The thread can act. -/
def Enabled (step : σ → α → Option σ) (owner : α → Option θ) (x : θ) (s : σ) : Prop :=
  ∃ a, owner a = some x ∧ (step s a).isSome = true

/-- An infinite run in which no thread is forgotten; nothing need happen at a moment. -/
structure FairRun (step : σ → α → Option σ) (owner : α → Option θ) where
  state : Nat → σ
  act : Nat → Option α
  still : ∀ n, act n = none → state (n + 1) = state n
  moves : ∀ n a, act n = some a → step (state n) a = some (state (n + 1))
  fair : ∀ x, (∀ n, ∃ m, n ≤ m ∧ Enabled step owner x (state m)) →
    ∀ n, ∃ m, n ≤ m ∧ ∃ a, act m = some a ∧ owner a = some x

namespace FairRun

variable {step : σ → α → Option σ} {owner : α → Option θ} (r : FairRun step owner) {P Q : σ → Prop}
  {μ : σ → Nat} {x : θ}

section Progress

variable (hstep : ∀ s a s', P s → step s a = some s' →
  Q s' ∨ (P s' ∧ μ s' ≤ μ s ∧ (owner a = some x → μ s' < μ s)))
include hstep

/-- Until the goal is reached `P` stays and the measure does not grow. -/
theorem stays {n : Nat} (hP : P (r.state n)) (hQ : ∀ m, n ≤ m → ¬ Q (r.state m)) :
    ∀ k, P (r.state (n + k)) ∧ μ (r.state (n + k)) ≤ μ (r.state n) := by
  intro k
  induction k with
  | zero => exact ⟨hP, Nat.le_refl _⟩
  | succ k ih =>
    cases ha : r.act (n + k) with
    | none =>
      rw [← Nat.add_assoc, r.still (n + k) ha]
      exact ih
    | some a =>
      rcases hstep _ a _ ih.1 (r.moves (n + k) a ha) with hgoal | ⟨hP', hμ, _⟩
      · exact absurd hgoal (hQ (n + k + 1) (by omega))
      · exact ⟨hP', Nat.le_trans hμ ih.2⟩

/-- **The rule of progress.** -/
theorem leads (henabled : ∀ n, P (r.state n) → ∃ m, n ≤ m ∧ (Q (r.state m) ∨ Enabled step owner x (r.state m))) :
    ∀ n, P (r.state n) → ∃ m, n ≤ m ∧ Q (r.state m) := by
  intro n
  -- by induction on the measure: the thread acts once more, and the measure is smaller
  induction hk : μ (r.state n) using Nat.strongRecOn generalizing n with
  | ind k ih =>
    intro hP
    by_contra hnever
    have hQ : ∀ m, n ≤ m → ¬ Q (r.state m) := fun m hm hgoal => hnever ⟨m, hm, hgoal⟩
    have hstays := r.stays hstep hP hQ
    have hable : ∀ l, ∃ m, l ≤ m ∧ Enabled step owner x (r.state m) := by
      intro l
      obtain ⟨m, hm, hgoal | hen⟩ := henabled (n + l) (hstays l).1
      · exact absurd hgoal (hQ m (by omega))
      · exact ⟨m, by omega, hen⟩
    obtain ⟨m, hm, a, ha, hown⟩ := r.fair x hable n
    obtain ⟨d, rfl⟩ := Nat.exists_eq_add_of_le hm
    rcases hstep _ a _ (hstays d).1 (r.moves (n + d) a ha) with hgoal | ⟨hP', _, hlt⟩
    · exact hQ (n + d + 1) (by omega) hgoal
    · have hsmall : μ (r.state (n + d + 1)) < k := by
        have hlower := hlt hown
        have hbound := (hstays d).2
        omega
      obtain ⟨m', hm', hgoal⟩ := ih _ hsmall (n + d + 1) rfl hP'
      exact hQ m' (by omega) hgoal

end Progress

/-! ## Runs that come to an end -/

/-- Nothing happens any more. -/
def halt (s : σ) (h : ∀ x, ¬ Enabled step owner x s) : FairRun step owner where
  state _ := s
  act _ := none
  still _ _ := rfl
  moves _ _ ha := absurd ha (by simp)
  fair x hx := by
    obtain ⟨_, _, hen⟩ := hx 0
    exact absurd hen (h x)

/-- One step before a run. -/
def cons (s : σ) (a : α) (h : step s a = some (r.state 0)) : FairRun step owner where
  state
    | 0 => s
    | n + 1 => r.state n
  act
    | 0 => some a
    | n + 1 => r.act n
  still
    | 0, ha => absurd ha (by simp)
    | n + 1, ha => r.still n ha
  moves
    | 0, b, hb => by
      obtain rfl : a = b := some.inj hb
      exact h
    | n + 1, b, hb => r.moves n b hb
  fair x hx n := by
    have hx' : ∀ l, ∃ m, l ≤ m ∧ Enabled step owner x (r.state m) := by
      intro l
      obtain ⟨m, hm, hen⟩ := hx (l + 1)
      obtain ⟨d, rfl⟩ := Nat.exists_eq_add_of_le hm
      exact ⟨l + d, Nat.le_add_right l d, by rwa [Nat.add_right_comm] at hen⟩
    obtain ⟨m, hm, hact⟩ := r.fair x hx' n
    exact ⟨m + 1, Nat.le_succ_of_le hm, hact⟩

/-- **Steps to a state where no thread can act** are a fair run. -/
theorem of_steps : ∀ (as : List α) {s s' : σ}, as.foldlM step s = some s' → (∀ x, ¬ Enabled step owner x s') →
    ∃ r : FairRun step owner, ∀ n s'', (as.take n).foldlM step s = some s'' → r.state n = s''
  | [], s, s', hs, hend => by
    obtain rfl : s = s' := some.inj hs
    refine ⟨halt s hend, fun n s'' h => ?_⟩
    rw [take_nil] at h
    exact some.inj h
  | a :: as, s, s', hs, hend => by
    rw [foldlM_cons] at hs
    obtain ⟨s₁, h₁, hs⟩ := bind_eq_some_iff.mp hs
    obtain ⟨r, hr⟩ := of_steps as hs hend
    have hzero : r.state 0 = s₁ := hr 0 s₁ rfl
    refine ⟨r.cons s a (hzero ▸ h₁), fun n s'' h => ?_⟩
    cases n with
    | zero => exact some.inj h
    | succ n =>
      rw [take_succ_cons, foldlM_cons] at h
      obtain ⟨s₂, h₂, h⟩ := bind_eq_some_iff.mp h
      obtain rfl : s₁ = s₂ := some.inj (h₁.symm.trans h₂)
      exact hr n s'' h

end FairRun

end VirtualMssql.Fair
