/-
  TALLIES — how many threads are at places of a kind.

  There may be any number of threads, and only finitely many are on their way at any moment.  When one thread
  moves, the tally goes up by the place it comes to and down by the place it leaves (`Tally.moved`).
-/
import Mathlib.Data.Finset.Card
import Mathlib.Logic.Function.Basic

namespace VirtualMssql.Counting

variable {θ P : Type}

/-- Exactly `n` threads are at a place of the kind. -/
def Tally (kind : P → Bool) (pc : θ → P) (n : Nat) : Prop :=
  ∃ S : Finset θ, (∀ x, x ∈ S ↔ kind (pc x) = true) ∧ S.card = n

variable {kind : P → Bool} {pc : θ → P} {n : Nat}

/-- Nobody is. -/
theorem tally_none (h : ∀ x, kind (pc x) = false) : Tally kind pc 0 := ⟨∅, by simp [h], rfl⟩

theorem Tally.eq_zero (h : Tally kind pc n) (hnone : ∀ x, kind (pc x) = false) : n = 0 := by
  obtain ⟨S, hS, rfl⟩ := h
  rw [Finset.card_eq_zero]
  refine Finset.eq_empty_of_forall_notMem fun x hx => ?_
  have hx' := (hS x).mp hx
  rw [hnone x] at hx'
  cases hx'

/-- **One thread moves.** -/
theorem Tally.moved [DecidableEq θ] (h : Tally kind pc n) (x : θ) (p : P) :
    ∃ n', Tally kind (Function.update pc x p) n' ∧ n' + (kind (pc x)).toNat = n + (kind p).toNat := by
  obtain ⟨S, hS, rfl⟩ := h
  have hx : x ∈ S ↔ kind (pc x) = true := hS x
  -- who is at such a place now
  have hmem : ∀ y, kind (Function.update pc x p y) = true ↔ if y = x then kind p = true else y ∈ S := by
    intro y
    by_cases hy : y = x
    · subst hy
      simp
    · simp [hy, hS y]
  cases hp : kind p with
  | true =>
    refine ⟨(insert x S).card, ⟨insert x S, fun y => ?_, rfl⟩, ?_⟩
    · rw [hmem y, Finset.mem_insert]
      by_cases hy : y = x <;> simp [hy, hp]
    · by_cases hin : x ∈ S
      · rw [Finset.insert_eq_of_mem hin, hx.mp hin]
      · have hout : kind (pc x) = false := by simpa [hx] using hin
        rw [Finset.card_insert_of_notMem hin, hout]
        rfl
  | false =>
    refine ⟨(S.erase x).card, ⟨S.erase x, fun y => ?_, rfl⟩, ?_⟩
    · rw [hmem y, Finset.mem_erase]
      by_cases hy : y = x <;> simp [hy, hp]
    · by_cases hin : x ∈ S
      · rw [hx.mp hin]
        exact Finset.card_erase_add_one hin
      · have hout : kind (pc x) = false := by simpa [hx] using hin
        rw [Finset.erase_eq_of_notMem hin, hout]

end VirtualMssql.Counting
