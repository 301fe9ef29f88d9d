/-
  LEDGER — resources that are taken, used and given back.

  What happens to one resource is a word of takes, gives and uses.  In a word that is `Settled` every take is answered
  by exactly one give before the next take, and a use stands between the two (or before the first take, when the
  resource belongs to someone else).  A status says where in such a word one is, and is broken for good by an entry
  that does not fit (`fits_iff`).  A book keeps the status of every resource at once (`foldl_enter`).

  A program whose book is closed behind it, whatever it is answered, settles every resource in every run
  (`settled_of_leaves`).
-/
import VirtualMssql.Lib.Prog
import Mathlib.Data.List.Basic
import Mathlib.Logic.Function.Basic

namespace VirtualMssql.Ledger

open List Function

/-! ## One resource -/

inductive Kind
  | take
  | give
  | use
  deriving DecidableEq

/-- Takes, each with its uses and its one give. -/
inductive Sessions : List Kind → Prop
  | nil : Sessions []
  | cons (n : Nat) {ks : List Kind} (h : Sessions ks) : Sessions (.take :: (List.replicate n .use ++ .give :: ks))

/-- Before the first take the resource may be used: it is not ours yet. -/
def Settled (ks : List Kind) : Prop := ∃ n rest, ks = List.replicate n .use ++ rest ∧ Sessions rest

/-- Not taken yet, taken, given back, or taken, given or used when it must not be. -/
inductive Status
  | fresh
  | held
  | returned
  | broken
  deriving DecidableEq

def Status.next : Status → Kind → Status
  | .fresh, .take => .held
  | .fresh, .give => .broken
  | .fresh, .use => .fresh
  | .held, .take => .broken
  | .held, .give => .returned
  | .held, .use => .held
  | .returned, .take => .held
  | .returned, .give => .broken
  | .returned, .use => .broken
  | .broken, _ => .broken

def Status.after (s : Status) (ks : List Kind) : Status := ks.foldl Status.next s

/-- Nothing is owed. -/
def Status.Over (s : Status) : Prop := s = .fresh ∨ s = .returned

variable {s : Status}

theorem Status.Over.take (h : s.Over) : s.next .take = .held := by rcases h with rfl | rfl <;> rfl

/-- What may still come behind a status. -/
def Status.Fits : Status → List Kind → Prop
  | .fresh, ks => Settled ks
  | .held, ks => ∃ n rest, ks = List.replicate n .use ++ .give :: rest ∧ Sessions rest
  | .returned, ks => Sessions ks
  | .broken, _ => False

variable {k : Kind} {ks : List Kind}

theorem sessions_cons : Sessions (k :: ks) ↔ k = .take ∧ Status.held.Fits ks := by
  constructor
  · rintro (_ | ⟨n, h⟩)
    exact ⟨rfl, n, _, rfl, h⟩
  · rintro ⟨rfl, n, rest, rfl, h⟩
    exact .cons n h

theorem settled_cons : Settled (k :: ks) ↔ k = .use ∧ Settled ks ∨ Sessions (k :: ks) := by
  constructor
  · rintro ⟨_ | n, rest, heq, h⟩
    · obtain rfl : k :: ks = rest := by simpa using heq
      exact .inr h
    · rw [replicate_succ, cons_append, List.cons.injEq] at heq
      exact .inl ⟨heq.1, n, rest, heq.2, h⟩
  · rintro (⟨rfl, n, rest, rfl, h⟩ | h)
    · exact ⟨n + 1, rest, by rw [replicate_succ, cons_append], h⟩
    · exact ⟨0, _, rfl, h⟩

theorem held_cons : Status.held.Fits (k :: ks) ↔ k = .use ∧ Status.held.Fits ks ∨ k = .give ∧ Sessions ks := by
  constructor
  · rintro ⟨_ | n, rest, heq, h⟩
    · obtain ⟨rfl, rfl⟩ : k = .give ∧ ks = rest := by simpa using heq
      exact .inr ⟨rfl, h⟩
    · rw [replicate_succ, cons_append, List.cons.injEq] at heq
      exact .inl ⟨heq.1, n, rest, heq.2, h⟩
  · rintro (⟨rfl, n, rest, rfl, h⟩ | ⟨rfl, h⟩)
    · exact ⟨n + 1, rest, by rw [replicate_succ, cons_append], h⟩
    · exact ⟨0, ks, rfl, h⟩

/-- **One entry.** -/
theorem fits_cons : s.Fits (k :: ks) ↔ (s.next k).Fits ks := by
  cases s with
  | fresh => cases k <;> simp [Status.Fits, Status.next, settled_cons, sessions_cons]
  | held =>
    rw [held_cons]
    cases k <;> simp [Status.next, Status.Fits]
  | returned => cases k <;> simp [Status.Fits, Status.next, sessions_cons]
  | broken => exact Iff.rfl

theorem fits_nil : s.Fits [] ↔ s.Over := by
  cases s with
  | fresh => exact iff_of_true ⟨0, [], rfl, .nil⟩ (.inl rfl)
  | held | broken => simp [Status.Fits, Status.Over]
  | returned => exact iff_of_true .nil (.inr rfl)

/-- **A word fits exactly if nothing is owed or broken behind it.**  Induction on the word. -/
theorem fits_iff : ∀ {s : Status}, s.Fits ks ↔ (s.after ks).Over := by
  induction ks with
  | nil => exact fits_nil
  | cons k ks ih => exact fits_cons.trans ih

theorem settled_iff : Settled ks ↔ (Status.fresh.after ks).Over := fits_iff (s := .fresh)

/-- Nothing becomes fresh again. -/
theorem after_ne_fresh : ∀ {s : Status}, s ≠ .fresh → s.after ks ≠ .fresh := by
  induction ks with
  | nil => exact id
  | cons k ks ih =>
    intro s hs
    refine ih ?_
    cases s <;> cases k <;> simp_all [Status.next]

/-- A resource that is still fresh was neither taken nor given. -/
theorem uses_of_fresh (h : Status.fresh.after ks = .fresh) : ∀ k ∈ ks, k = .use := by
  induction ks with
  | nil => exact nofun
  | cons k ks ih =>
    cases k with
    | take => exact absurd h (after_ne_fresh (s := .held) nofun)
    | give => exact absurd h (after_ne_fresh (s := .broken) nofun)
    | use =>
      intro k hk
      rcases mem_cons.mp hk with rfl | hk
      · rfl
      · exact ih h k hk

/-! ## All of them -/

structure Act (R : Type) where
  kind : Kind
  res : R

/-- The status of every resource. -/
abbrev Book (R : Type) := R → Status

variable {R : Type}

/-- Nothing has happened. -/
def Book.empty : Book R := fun _ => .fresh

/-- Those of the list are held, and nothing is owed for the others. -/
structure Book.Held (l : List R) (b : Book R) : Prop where
  held : ∀ r ∈ l, b r = .held
  rest : ∀ r, r ∉ l → (b r).Over

/-- Nothing is held. -/
def Book.Closed (b : Book R) : Prop := ∀ r, (b r).Over

/-- This one is held, and no other was ever taken. -/
def Book.HoldsFirst (r : R) (b : Book R) : Prop := b r = .held ∧ ∀ q, q ≠ r → b q = .fresh

theorem Book.closed_empty : (Book.empty : Book R).Closed := fun _ => .inl rfl

variable {b : Book R}

theorem Book.Closed.held (h : b.Closed) : b.Held [] := ⟨by simp, fun r _ => h r⟩

theorem Book.Held.closed (h : b.Held []) : b.Closed := fun r => h.rest r (by simp)

theorem Book.HoldsFirst.held {r : R} (h : b.HoldsFirst r) : b.Held [r] where
  held q hq := by rw [mem_singleton.mp hq, h.1]
  rest q hq := .inl (h.2 q (by simpa using hq))

variable [DecidableEq R]

/-- What happens to one of them. -/
def about (r : R) (as : List (Act R)) : List Kind := as.filterMap fun a => if a.res = r then some a.kind else none

def Book.enter (b : Book R) (a : Act R) : Book R := update b a.res ((b a.res).next a.kind)

theorem Book.enter_self (b : Book R) (k : Kind) (r : R) : b.enter ⟨k, r⟩ r = (b r).next k := by simp [Book.enter]

theorem Book.enter_of_ne (b : Book R) {a : Act R} {r : R} (h : r ≠ a.res) : b.enter a r = b r := by
  simp [Book.enter, h]

/-- **The book is right about each.**  Induction on what is entered. -/
theorem foldl_enter (r : R) : ∀ (as : List (Act R)) (b : Book R), as.foldl Book.enter b r = (b r).after (about r as)
  | [], _ => rfl
  | a :: as, b => by
    rw [foldl_cons, foldl_enter r as]
    by_cases hr : a.res = r
    · subst hr
      simp [about, Status.after, Book.enter]
    · rw [b.enter_of_ne (Ne.symm hr)]
      simp [about, hr]

section Entries
variable {b : Book R} {l : List R} {r : R}

/-- A use that is allowed changes nothing. -/
theorem Book.enter_use (h : (b r).next .use = b r) : b.enter ⟨.use, r⟩ = b := by
  rw [Book.enter, h, update_eq_self]

/-- What is not held may be taken. -/
theorem Book.Held.take (h : b.Held l) (hr : r ∉ l) : (b.enter ⟨.take, r⟩).Held (r :: l) where
  held q hq := by
    by_cases hqr : q = r
    · rw [hqr, b.enter_self, (h.rest r hr).take]
    · rw [b.enter_of_ne hqr]
      exact h.held q ((mem_cons.mp hq).resolve_left hqr)
  rest q hq := by
    rw [mem_cons, not_or] at hq
    rw [b.enter_of_ne hq.1]
    exact h.rest q hq.2

/-- What is held may be used. -/
theorem Book.Held.use (h : b.Held l) (hr : r ∈ l) : (b.enter ⟨.use, r⟩).Held l := by
  rw [Book.enter_use (by rw [h.held r hr]; rfl)]
  exact h

/-- What is held is given back. -/
theorem Book.Held.give (h : b.Held l) (hr : r ∈ l) : (b.enter ⟨.give, r⟩).Held (l.filter (· ≠ r)) where
  held q hq := by
    obtain ⟨hq, hqr⟩ := mem_filter.mp hq
    rw [b.enter_of_ne (by simpa using hqr)]
    exact h.held q hq
  rest q hq := by
    by_cases hqr : q = r
    · rw [hqr, b.enter_self, h.held r hr]
      exact .inr rfl
    · rw [b.enter_of_ne hqr]
      exact h.rest q fun hmem => hq (mem_filter.mpr ⟨hmem, by simpa using hqr⟩)

theorem Book.Held.give_only (h : b.Held [r]) : (b.enter ⟨.give, r⟩).Closed := by
  have hgive := h.give (mem_singleton.mpr rfl)
  rw [show [r].filter (· ≠ r) = [] by simp] at hgive
  exact hgive.closed

theorem Book.take_first (r : R) : ((Book.empty : Book R).enter ⟨.take, r⟩).HoldsFirst r :=
  ⟨Book.enter_self _ _ r, fun _ hq => Book.enter_of_ne _ hq⟩

/-- The first holder may use whatever it does not own, too. -/
theorem Book.HoldsFirst.use (h : b.HoldsFirst r) (q : R) : (b.enter ⟨.use, q⟩).HoldsFirst r := by
  have hsame : b.enter ⟨.use, q⟩ = b := by
    apply Book.enter_use
    by_cases hq : q = r
    · rw [hq, h.1]
      rfl
    · rw [h.2 q hq]
      rfl
  rw [hsame]
  exact h

/-! ### Many at once -/

def Book.giveAll (b : Book R) (rs : List R) : Book R := rs.foldl (fun b r => b.enter ⟨.give, r⟩) b

theorem Book.giveAll_cons (b : Book R) (q : R) (rs : List R) :
    b.giveAll (q :: rs) = (b.enter ⟨.give, q⟩).giveAll rs := rfl

theorem Book.giveAll_append (b : Book R) (rs ps : List R) : b.giveAll (rs ++ ps) = (b.giveAll rs).giveAll ps :=
  foldl_append

/-- What is not in the list is left alone. -/
theorem Book.giveAll_of_not_mem : ∀ {rs : List R} {b : Book R}, r ∉ rs → b.giveAll rs r = b r
  | [], _, _ => rfl
  | q :: rs, b, h => by
    rw [mem_cons, not_or] at h
    rw [Book.giveAll_cons, Book.giveAll_of_not_mem h.2]
    exact b.enter_of_ne h.1

/-- **Everything that is held is given back, each once.**  Induction on what is given. -/
theorem Book.Held.giveAll : ∀ {rs l : List R} {b : Book R}, b.Held l → rs.Nodup → (∀ r, r ∈ rs ↔ r ∈ l) →
    (b.giveAll rs).Closed
  | [], l, b, h, _, hl => by
    intro r
    exact h.rest r fun hr => by simpa using (hl r).mpr hr
  | q :: rs, l, b, h, hnodup, hl => by
    rw [nodup_cons] at hnodup
    have hgive := h.give ((hl q).mp mem_cons_self)
    rw [Book.giveAll_cons]
    refine hgive.giveAll hnodup.2 fun r => ?_
    rw [mem_filter, ← hl r, mem_cons]
    constructor
    · intro hr
      exact ⟨.inr hr, by simpa using fun heq : r = q => hnodup.1 (heq ▸ hr)⟩
    · rintro ⟨hr, hne⟩
      exact hr.resolve_left (by simpa using hne)

/-- What is given is returned or broken. -/
theorem Book.giveAll_of_mem : ∀ {rs : List R} {b : Book R}, r ∈ rs →
    b.giveAll rs r = .returned ∨ b.giveAll rs r = .broken
  | q :: rs, b, hmem => by
    rw [Book.giveAll_cons]
    by_cases hrs : r ∈ rs
    · exact Book.giveAll_of_mem hrs
    · obtain rfl : r = q := (mem_cons.mp hmem).resolve_right hrs
      rw [Book.giveAll_of_not_mem hrs, b.enter_self]
      cases b r <;> simp [Status.next]

theorem Book.giveAll_broken : ∀ {rs : List R} {b : Book R}, b r = .broken → b.giveAll rs r = .broken
  | [], _, h => h
  | q :: rs, b, h => by
    rw [Book.giveAll_cons]
    refine Book.giveAll_broken ?_
    by_cases hq : r = q
    · rw [← hq, b.enter_self, h]
      rfl
    · rwa [b.enter_of_ne hq]

theorem Book.giveAll_again : ∀ {rs : List R} {b : Book R}, b r = .returned → r ∈ rs → b.giveAll rs r = .broken
  | q :: rs, b, h, hmem => by
    rw [Book.giveAll_cons]
    by_cases hq : r = q
    · refine Book.giveAll_broken ?_
      rw [← hq, b.enter_self, h]
      rfl
    · refine Book.giveAll_again ?_ ((mem_cons.mp hmem).resolve_left hq)
      rwa [b.enter_of_ne hq]

/-- **What is given twice is broken.** -/
theorem Book.giveAll_twice {rs ps : List R} (hr : r ∈ rs) (hp : r ∈ ps) : b.giveAll (rs ++ ps) r = .broken := by
  rw [Book.giveAll_append]
  rcases Book.giveAll_of_mem hr with h | h
  · exact Book.giveAll_again h hp
  · exact Book.giveAll_broken h

end Entries

/-! ## Programs -/

section Programs
open Calls
variable {E A α β : Type} {acts : E → A → List (Act R)} {Q : Book R → α → Prop} {b : Book R}

/-- The entries of a call. -/
def Book.follow (acts : E → A → List (Act R)) (b : Book R) (e : E) (x : A) : Book R := (acts e x).foldl Book.enter b

/-- The entries of a run. -/
def entries (acts : E → A → List (Act R)) (calls : List (E × A)) : List (Act R) := calls.flatMap fun c => acts c.1 c.2

theorem foldl_follow (calls : List (E × A)) (b : Book R) :
    calls.foldl (fun b c => b.follow acts c.1 c.2) b = (entries acts calls).foldl Book.enter b := by
  induction calls generalizing b with
  | nil => rfl
  | cons c calls ih =>
    rw [foldl_cons, ih, entries, entries, flatMap_cons, foldl_append]
    rfl

/-- Whatever is answered, the book is so behind the program. -/
def Leaves (acts : E → A → List (Act R)) (Q : Book R → α → Prop) (p : Prog E A α) (b : Book R) : Prop :=
  p.wp (Book.follow acts) Q b

theorem leaves_pure {x : α} (h : Q b x) : Leaves acts Q (pure x) b := h

theorem Leaves.bind {Q' : Book R → β → Prop} {p : Prog E A β} {k : β → Prog E A α} (hp : Leaves acts Q' p b)
    (hk : ∀ x b', Q' b' x → Leaves acts Q (k x) b') : Leaves acts Q (p >>= k) b :=
  wp_bind.mpr (hp.mono fun b' x => hk x b')

theorem leaves_call {c : E} {k : A → Prog E A α} (h : ∀ x, Leaves acts Q (k x) ((acts c x).foldl Book.enter b)) :
    Leaves acts Q (call c >>= k) b := h

/-- A call that touches nothing. -/
theorem leaves_skip {c : E} {k : A → Prog E A α} (hc : ∀ x, acts c x = []) (h : ∀ x, Leaves acts Q (k x) b) :
    Leaves acts Q (call c >>= k) b := by
  refine leaves_call fun x => ?_
  rw [hc x]
  exact h x

/-- **From all answers to the status behind a run.** -/
theorem Leaves.run [Inhabited A] {p : Prog E A α} (h : Leaves acts Q p Book.empty) (xs : List A) :
    Q (fun r => Status.fresh.after (about r (entries acts (p.run xs).1))) (p.run xs).2 := by
  have hrun := Prog.wp.run h xs
  rw [foldl_follow] at hrun
  rwa [show (entries acts (p.run xs).1).foldl Book.enter Book.empty = _ from funext fun r => foldl_enter r _ _] at hrun

/-- **A book that is closed behind every answer settles each resource in every run.** -/
theorem settled_of_leaves [Inhabited A] {p : Prog E A α} (h : Leaves acts (fun b _ => b.Closed) p Book.empty)
    (xs : List A) (r : R) : Settled (about r (entries acts (p.run xs).1)) :=
  settled_iff.mpr (h.run xs r)

end Programs

end VirtualMssql.Ledger
