/-
  BLOCKS — memory of a fixed size, read and written a stretch at a time.

  An access that leaves the block has no result, so a program that has one stayed inside.  A write inside keeps the
  size and what stands before it (`write_inside`).
-/
import Mathlib.Data.List.Basic

namespace VirtualMssql.Block

open List

variable {α : Type}

/-- `src` written from `i` on. -/
def write (m : List α) (i : Nat) (src : List α) : Option (List α) :=
  if i + src.length ≤ m.length then some (m.take i ++ (src ++ m.drop (i + src.length))) else none

/-- The first `n` elements. -/
def front (m : List α) (n : Nat) : Option (List α) := if n ≤ m.length then some (m.take n) else none

theorem front_inside {m : List α} {n : Nat} (h : n ≤ m.length) : front m n = some (m.take n) := if_pos h

/-- **A write inside.** -/
theorem write_inside {m src : List α} {i : Nat} (h : i + src.length ≤ m.length) :
    ∃ m', write m i src = some m' ∧ m'.length = m.length ∧ m'.take (i + src.length) = m.take i ++ src := by
  refine ⟨_, if_pos h, ?_, ?_⟩
  · simp only [length_append, length_take, length_drop]
    omega
  · rw [← append_assoc]
    refine take_left' ?_
    rw [length_append, length_take]
    omega

end VirtualMssql.Block
