/-
  PROGRAMS — code that makes calls and goes on with the answers.

  A program is finished, or it makes a call and goes on with whatever is answered.  `run` feeds it answers and
  keeps the calls it made; `wp` says that a condition holds behind it whatever the answers are, where a state is
  carried along that every call changes.  The rules take a program apart at its binds and branches, and `wp_run`
  brings the condition to a run.
-/
import Mathlib.Logic.Basic

namespace VirtualMssql.Calls

/-- A program with calls `E`, answers `A` and results `α`. -/
inductive Prog (E A α : Type)
  | ret (a : α)
  | ask (e : E) (k : A → Prog E A α)

variable {E A α β σ : Type}

namespace Prog

def bind : Prog E A α → (α → Prog E A β) → Prog E A β
  | .ret a, f => f a
  | .ask e k, f => .ask e fun x => (k x).bind f

instance : Monad (Prog E A) where
  pure := .ret
  bind := Prog.bind

end Prog

/-- One call; its answer is the result. -/
def call (e : E) : Prog E A A := .ask e .ret

@[simp] theorem pure_bind (a : α) (f : α → Prog E A β) : (pure a : Prog E A α) >>= f = f a := rfl

@[simp] theorem call_bind (e : E) (f : A → Prog E A β) : call e >>= f = .ask e f := rfl

@[simp] theorem ask_bind (e : E) (k : A → Prog E A α) (f : α → Prog E A β) :
    Prog.ask e k >>= f = .ask e fun x => k x >>= f := rfl

/-! ## Runs -/

/-- The calls with their answers, and the result.  When the answers are used up, the default is given. -/
def Prog.run [Inhabited A] : Prog E A α → List A → List (E × A) × α
  | .ret a, _ => ([], a)
  | .ask e k, xs =>
    let x := xs.headD default
    let rest := (k x).run xs.tail
    ((e, x) :: rest.1, rest.2)

@[simp] theorem run_pure [Inhabited A] (a : α) (xs : List A) : (pure a : Prog E A α).run xs = ([], a) := rfl

@[simp] theorem run_ask [Inhabited A] (e : E) (k : A → Prog E A α) (xs : List A) :
    (Prog.ask e k).run xs = ((e, xs.headD default) :: ((k (xs.headD default)).run xs.tail).1,
      ((k (xs.headD default)).run xs.tail).2) := rfl

/-! ## What holds behind a program -/

/-- Whatever is answered, the condition holds behind the program for the state carried along. -/
def Prog.wp (track : σ → E → A → σ) : Prog E A α → (σ → α → Prop) → σ → Prop
  | .ret a, Q, s => Q s a
  | .ask e k, Q, s => ∀ x, (k x).wp track Q (track s e x)

variable {track : σ → E → A → σ} {Q : σ → α → Prop} {s : σ}

@[simp] theorem wp_pure {a : α} : (pure a : Prog E A α).wp track Q s ↔ Q s a := Iff.rfl

@[simp] theorem wp_ask {e : E} {k : A → Prog E A α} :
    (Prog.ask e k).wp track Q s ↔ ∀ x, (k x).wp track Q (track s e x) := Iff.rfl

@[simp] theorem wp_call {e : E} {Q : σ → A → Prop} :
    (call e : Prog E A A).wp track Q s ↔ ∀ x, Q (track s e x) x := Iff.rfl

@[simp] theorem wp_bind {f : β → Prog E A α} : ∀ {p : Prog E A β} {s : σ},
    (p >>= f).wp track Q s ↔ p.wp track (fun s b => (f b).wp track Q s) s
  | .ret _, _ => Iff.rfl
  | .ask e k, s => forall_congr' fun x => wp_bind (p := k x) (s := track s e x)

@[simp] theorem wp_ite {c : Prop} [Decidable c] {p q : Prog E A α} :
    (if c then p else q).wp track Q s ↔ (c → p.wp track Q s) ∧ (¬ c → q.wp track Q s) := by
  by_cases hc : c <;> simp [hc]

theorem Prog.wp.mono {Q' : σ → α → Prop} : ∀ {p : Prog E A α} {s : σ}, p.wp track Q s →
    (∀ s a, Q s a → Q' s a) → p.wp track Q' s
  | .ret a, s, h, himp => himp s a h
  | .ask _ k, _, h, himp => fun x => Prog.wp.mono (p := k x) (h x) himp

/-- **From all answers to a run.** -/
theorem Prog.wp.run [Inhabited A] : ∀ {p : Prog E A α} {s : σ}, p.wp track Q s → ∀ xs : List A,
    Q ((p.run xs).1.foldl (fun s c => track s c.1 c.2) s) (p.run xs).2
  | .ret _, _, h, _ => h
  | .ask _ k, _, h, xs => Prog.wp.run (p := k _) (h (xs.headD default)) xs.tail

/-! ## The calls of a program -/

/-- Every call the program can make is of the kind. -/
def Prog.Only (P : E → Prop) : Prog E A α → Prop
  | .ret _ => True
  | .ask e k => P e ∧ ∀ x, (k x).Only P

variable {P : E → Prop}

@[simp] theorem only_pure {a : α} : (pure a : Prog E A α).Only P ↔ True := Iff.rfl

@[simp] theorem only_ask {e : E} {k : A → Prog E A α} : (Prog.ask e k).Only P ↔ P e ∧ ∀ x, (k x).Only P := Iff.rfl

@[simp] theorem only_ite {c : Prop} [Decidable c] {p q : Prog E A α} :
    (if c then p else q).Only P ↔ (c → p.Only P) ∧ (¬ c → q.Only P) := by
  by_cases hc : c <;> simp [hc]

theorem Prog.Only.bind {f : β → Prog E A α} (hf : ∀ b, (f b).Only P) : ∀ {p : Prog E A β}, p.Only P → (p >>= f).Only P
  | .ret b, _ => hf b
  | .ask _ k, h => ⟨h.1, fun x => Prog.Only.bind (p := k x) hf (h.2 x)⟩

theorem Prog.Only.run [Inhabited A] : ∀ {p : Prog E A α}, p.Only P → ∀ (xs : List A), ∀ c ∈ (p.run xs).1, P c.1
  | .ask e k, h, xs, c, hc => by
    rcases List.mem_cons.mp hc with rfl | hc
    · exact h.1
    · exact Prog.Only.run (h.2 (xs.headD default)) xs.tail c hc

/-- **Calls that do not matter**: the state is the same behind the program. -/
theorem Prog.Only.wp (hkeep : ∀ s e x, P e → track s e x = s) : ∀ {p : Prog E A α} {s : σ}, p.Only P → (∀ a, Q s a) →
    p.wp track Q s
  | .ret a, _, _, hQ => hQ a
  | .ask e k, s, h, hQ => fun x => by
    rw [hkeep s e x h.1]
    exact Prog.Only.wp hkeep (h.2 x) hQ

end VirtualMssql.Calls
