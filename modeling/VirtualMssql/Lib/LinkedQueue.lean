/-
  A LINKED QUEUE — the elements that hang on a head pointer, one behind another.

  `Chain next p l` says that following `next` from `p` one meets exactly the elements of `l`.  An element
  is hooked in behind the last one (`Chain.hook`) and taken off at the front (`Chain.unhook`); elements
  that are not in the chain may be written to freely (`Chain.congr`).
-/
import Mathlib.Logic.Function.Basic
import Mathlib.Data.List.Basic

namespace VirtualMssql.LinkedQueue

open List Function

variable {J : Type}

/-- The elements from the pointer on. -/
def Chain (next : J → Option J) : Option J → List J → Prop
  | p, [] => p = none
  | p, j :: l => p = some j ∧ Chain next (next j) l

variable {next : J → Option J}

theorem Chain.nil_iff {p : Option J} {l : List J} (h : Chain next p l) : p = none ↔ l = [] := by
  cases l with
  | nil => exact iff_of_true h rfl
  | cons j l => exact iff_of_false (by simp [h.1]) (by simp)

/-- Only the links of the elements count. -/
theorem Chain.congr {next next' : J → Option J} : ∀ {l : List J} {p : Option J}, Chain next p l →
    (∀ j ∈ l, next' j = next j) → Chain next' p l
  | [], _, h, _ => h
  | j :: l, _, h, heq => by
    refine ⟨h.1, ?_⟩
    rw [heq j mem_cons_self]
    exact Chain.congr h.2 fun k hk => heq k (mem_cons_of_mem j hk)

/-- **Taking the first element.** -/
theorem Chain.unhook {j : J} {l : List J} (h : Chain next (some j) l) :
    ∃ rest, l = j :: rest ∧ Chain next (next j) rest := by
  cases l with
  | nil => simp [Chain] at h
  | cons k rest =>
    obtain rfl : j = k := Option.some.inj h.1
    exact ⟨rest, rfl, h.2⟩

/-- **Hooking an element behind the last one.** -/
theorem Chain.hook [DecidableEq J] {j k : J} (hj : next j = none) :
    ∀ {l : List J} {p : Option J}, Chain next p l → l.getLast? = some k → l.Nodup → j ∉ l →
      Chain (update next k (some j)) p (l ++ [j])
  | [], _, _, hlast, _, _ => absurd hlast (by simp)
  | [i], _, h, hlast, _, hnot => by
    obtain rfl : i = k := by simpa using hlast
    have hne : j ≠ i := by simpa using hnot
    refine ⟨h.1, ?_, ?_⟩
    · rw [update_self]
    · rw [update_of_ne hne]
      exact hj
  | i :: i' :: l, _, h, hlast, hnodup, hnot => by
    have hlast' : (i' :: l).getLast? = some k := by simpa using hlast
    have hk : k ∈ i' :: l := mem_of_getLast? hlast'
    obtain ⟨hi, hnodup'⟩ := nodup_cons.mp hnodup
    have hne : i ≠ k := fun heq => hi (heq ▸ hk)
    refine ⟨h.1, ?_⟩
    rw [update_of_ne hne]
    exact Chain.hook hj h.2 hlast' hnodup' fun hmem => hnot (mem_cons_of_mem i hmem)

end VirtualMssql.LinkedQueue
