/-
  RUNS — a machine that takes one step after another.

  `run` folds the step function over a list of inputs; `Along` says that every step of the run meets a
  condition on the state it is taken in and on its input.  The one rule about them is the rule of
  invariants: what a step keeps under the condition, a run along the condition keeps (`Along.keeps`).
-/
import Mathlib.Logic.Basic

namespace VirtualMssql.Run

open List

variable {σ ι : Type} {step : σ → ι → σ}

/-- The state after the inputs. -/
def run (step : σ → ι → σ) (s : σ) (is : List ι) : σ := is.foldl step s

/-- Every step of the run meets the condition. -/
def Along (step : σ → ι → σ) (Ok : σ → ι → Prop) : σ → List ι → Prop
  | _, [] => True
  | s, i :: is => Ok s i ∧ Along step Ok (step s i) is

instance instDecidableAlong {Ok : σ → ι → Prop} [∀ s i, Decidable (Ok s i)] :
    ∀ (s : σ) (is : List ι), Decidable (Along step Ok s is)
  | _, [] => inferInstanceAs (Decidable True)
  | s, i :: is =>
    have : Decidable (Along step Ok (step s i) is) := instDecidableAlong (step s i) is
    inferInstanceAs (Decidable (Ok s i ∧ Along step Ok (step s i) is))

theorem run_cons (s : σ) (i : ι) (is : List ι) : run step s (i :: is) = run step (step s i) is := rfl

theorem run_append (s : σ) (is js : List ι) : run step s (is ++ js) = run step (run step s is) js := foldl_append

variable {Ok : σ → ι → Prop}

theorem along_append {is js : List ι} {s : σ} :
    Along step Ok s (is ++ js) ↔ Along step Ok s is ∧ Along step Ok (run step s is) js := by
  induction is generalizing s with
  | nil => simp [Along, run]
  | cons i is ih => rw [cons_append, Along, Along, ih, run_cons, and_assoc]

/-- Step by step. -/
theorem along_of_steps : ∀ {is : List ι} {s : σ},
    (∀ before i after, is = before ++ i :: after → Ok (run step s before) i) → Along step Ok s is
  | [], _, _ => trivial
  | i :: is, s, h => by
    refine ⟨h [] i is rfl, along_of_steps fun before j after heq => ?_⟩
    exact h (i :: before) j after (by rw [heq, cons_append])

theorem Along.imp {Ok Ok' : σ → ι → Prop} (himp : ∀ s i, Ok s i → Ok' s i) :
    ∀ {is : List ι} {s : σ}, Along step Ok s is → Along step Ok' s is
  | [], _, _ => trivial
  | i :: _, s, h => ⟨himp s i h.1, Along.imp himp h.2⟩

theorem Along.and {Ok Ok' : σ → ι → Prop} : ∀ {is : List ι} {s : σ}, Along step Ok s is → Along step Ok' s is →
    Along step (fun s i => Ok s i ∧ Ok' s i) s is
  | [], _, _, _ => trivial
  | _ :: _, _, h, h' => ⟨⟨h.1, h'.1⟩, Along.and h.2 h'.2⟩

/-- A condition on the inputs alone. -/
theorem along_of_mem {Ok : ι → Prop} : ∀ {is : List ι} {s : σ}, (∀ i ∈ is, Ok i) → Along step (fun _ i => Ok i) s is
  | [], _, _ => trivial
  | i :: _, _, h => ⟨h i mem_cons_self, along_of_mem fun j hj => h j (mem_cons_of_mem i hj)⟩

/-- Inputs that change nothing. -/
theorem run_still : ∀ {is : List ι} {s : σ}, (∀ i ∈ is, step s i = s) → run step s is = s
  | [], _, _ => rfl
  | i :: is, s, h => by
    obtain ⟨hi, his⟩ := forall_mem_cons.mp h
    rw [run_cons, hi]
    exact run_still his

theorem along_still : ∀ {is : List ι} {s : σ}, (∀ i ∈ is, step s i = s) → (Along step Ok s is ↔ ∀ i ∈ is, Ok s i)
  | [], _, _ => iff_of_true trivial nofun
  | i :: is, s, h => by
    obtain ⟨hi, his⟩ := forall_mem_cons.mp h
    rw [Along, forall_mem_cons, hi, along_still his]

variable {Inv : σ → Prop}

/-- Two conditions that agree wherever an invariant holds. -/
theorem along_congr {Ok Ok' : σ → ι → Prop} {P : ι → Prop}
    (hkeep : ∀ s i, Inv s → P i → Inv (step s i)) (hiff : ∀ s i, Inv s → P i → (Ok s i ↔ Ok' s i)) :
    ∀ {is : List ι} {s : σ}, Inv s → (∀ i ∈ is, P i) → (Along step Ok s is ↔ Along step Ok' s is)
  | [], _, _, _ => Iff.rfl
  | i :: _, s, hs, hP => by
    obtain ⟨hi, his⟩ := forall_mem_cons.mp hP
    exact and_congr (hiff s i hs hi) (along_congr hkeep hiff (hkeep s i hs hi) his)

/-- **The rule of invariants.** -/
theorem Along.keeps (hstep : ∀ s i, Inv s → Ok s i → Inv (step s i)) :
    ∀ {is : List ι} {s : σ}, Inv s → Along step Ok s is → Inv (run step s is)
  | [], _, hs, _ => hs
  | i :: is, s, hs, h => by
    rw [run_cons]
    exact Along.keeps hstep (hstep s i hs h.1) h.2

/-- Without a condition. -/
theorem run_keeps (hstep : ∀ s i, Inv s → Inv (step s i)) : ∀ (is : List ι) {s : σ}, Inv s → Inv (run step s is)
  | [], _, hs => hs
  | i :: is, s, hs => run_keeps hstep is (hstep s i hs)

/-- **The rule of exact conditions**: when a step keeps the invariant exactly under the condition, the
    invariant holds in every state of the run exactly when the run goes along the condition. -/
theorem along_iff_keeps (hstep : ∀ s i, Inv s → (Inv (step s i) ↔ Ok s i)) : ∀ (is : List ι) {s : σ}, Inv s →
      ((∀ before after, is = before ++ after → Inv (run step s before)) ↔ Along step Ok s is)
  | [], s, hs => by
    refine ⟨fun _ => trivial, fun _ before after h => ?_⟩
    rw [(append_eq_nil_iff.mp h.symm).1]
    exact hs
  | i :: is, s, hs => by
    constructor
    · intro h
      have hnext : Inv (step s i) := h [i] is rfl
      refine ⟨(hstep s i hs).mp hnext, (along_iff_keeps hstep is hnext).mp ?_⟩
      intro before after his
      exact h (i :: before) after (by rw [his, cons_append])
    · rintro ⟨hok, halong⟩ before after his
      cases before with
      | nil => exact hs
      | cons j before =>
        obtain ⟨rfl, htail⟩ := cons_eq_cons.mp his
        exact (along_iff_keeps hstep is ((hstep s i hs).mpr hok)).mpr halong before after htail

/-- **The rule of termination**: a measure that every working input lowers, and that no other input raises,
    is zero once there were as many working inputs as it counted. -/
theorem run_exhausts {left : σ → Nat} {work : ι → Bool} (hwork : ∀ s i, work i = true → left (step s i) ≤ left s - 1)
    (hidle : ∀ s i, work i = false → left (step s i) ≤ left s) :
    ∀ (is : List ι) {s : σ}, left s ≤ is.countP work → left (run step s is) = 0
  | [], s, h => by simpa [run] using h
  | i :: is, s, h => by
    rw [run_cons]
    cases hi : work i with
    | true =>
      have hs := hwork s i hi
      rw [countP_cons_of_pos hi] at h
      exact run_exhausts hwork hidle is (by omega)
    | false =>
      have hs := hidle s i hi
      rw [countP_cons_of_neg (by simp [hi])] at h
      exact run_exhausts hwork hidle is (by omega)

end VirtualMssql.Run
