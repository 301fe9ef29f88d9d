/-
  JOINS — the rows of two tables put together, as lists with their multiplicity.

  `join` pairs every row with its partners, `leftJoin` gives a row without one the partner NULL.  What a join
  does to the NUMBER of rows that a row of the left table appears in is one rule (`countP_pairs`): as many as it
  has partners; in a left join at least one (`countP_leftJoin`).
-/
import Mathlib.Data.List.Basic

namespace VirtualMssql.Join

open List

variable {α β : Type}

/-- `l JOIN r ON on`. -/
def join (on : α → β → Bool) (l : List α) (r : List β) : List (α × β) :=
  l.flatMap fun a => (r.filter (on a)).map fun b => (a, b)

/-- The partners, or NULL for want of one. -/
def padded : List β → List (Option β)
  | [] => [none]
  | b :: bs => (b :: bs).map some

/-- `l LEFT JOIN r ON on`. -/
def leftJoin (on : α → β → Bool) (l : List α) (r : List β) : List (α × Option β) :=
  l.flatMap fun a => (padded (r.filter (on a))).map fun b => (a, b)

variable {on : α → β → Bool} {l : List α} {r : List β}

theorem mem_join {p : α × β} : p ∈ join on l r ↔ p.1 ∈ l ∧ p.2 ∈ r ∧ on p.1 p.2 = true := by
  simp only [join, mem_flatMap, mem_map, mem_filter]
  constructor
  · rintro ⟨a, ha, b, hb, rfl⟩
    exact ⟨ha, hb⟩
  · rintro ⟨ha, hb⟩
    exact ⟨p.1, ha, p.2, hb, rfl⟩

theorem fst_mem_of_mem_leftJoin {p : α × Option β} (h : p ∈ leftJoin on l r) : p.1 ∈ l := by
  obtain ⟨a, ha, hp⟩ := mem_flatMap.mp h
  obtain ⟨b, -, rfl⟩ := mem_map.mp hp
  exact ha

theorem snd_mem_of_mem_leftJoin {p : α × Option β} {b : β} (h : p ∈ leftJoin on l r) (hb : p.2 = some b) : b ∈ r := by
  obtain ⟨a, -, hp⟩ := mem_flatMap.mp h
  obtain ⟨b', hb', rfl⟩ := mem_map.mp hp
  obtain rfl : b' = some b := hb
  cases hbs : r.filter (on a) with
  | nil => simp [hbs, padded] at hb'
  | cons d ds =>
    rw [hbs, padded] at hb'
    obtain ⟨e, he, hsome⟩ := mem_map.mp hb'
    obtain rfl : e = b := Option.some.inj hsome
    exact (mem_filter.mp (hbs ▸ he)).1

theorem length_padded : ∀ bs : List β, (padded bs).length = max 1 bs.length
  | [] => rfl
  | b :: bs => by
    rw [padded, length_map, length_cons]
    omega

/-! ## Counting -/

variable {P : α → Bool}

/-- **Pairs by their first part**: where every row that counts has `k` partners, the pairs that count are `k`
    times as many. -/
theorem countP_pairs {γ : Type} {f : α → List γ} {k : Nat} : ∀ {l : List α},
    (∀ a ∈ l, P a = true → (f a).length = k) →
      (l.flatMap fun a => (f a).map fun b => (a, b)).countP (fun p => P p.1) = l.countP P * k
  | [], _ => (Nat.zero_mul k).symm
  | a :: l, h => by
    obtain ⟨ha, hl⟩ := forall_mem_cons.mp h
    rw [flatMap_cons, countP_append, countP_pairs hl, countP_map]
    cases hP : P a with
    | true =>
      have hall : (f a).countP ((fun p => P p.1) ∘ fun b => (a, b)) = (f a).length :=
        countP_eq_length.mpr fun _ _ => hP
      rw [hall, ha hP, countP_cons_of_pos hP, Nat.succ_mul, Nat.add_comm]
    | false =>
      have hnone : (f a).countP ((fun p => P p.1) ∘ fun b => (a, b)) = 0 := countP_eq_zero.mpr fun _ _ => by simp [hP]
      rw [hnone, countP_cons_of_neg (by simp [hP]), Nat.zero_add]

theorem countP_join {k : Nat} (h : ∀ a ∈ l, P a = true → (r.filter (on a)).length = k) :
    (join on l r).countP (fun p => P p.1) = l.countP P * k :=
  countP_pairs h

/-- **A left join** counts every row at least once. -/
theorem countP_leftJoin {k : Nat} (h : ∀ a ∈ l, P a = true → max 1 (r.filter (on a)).length = k) :
    (leftJoin on l r).countP (fun p => P p.1) = l.countP P * k :=
  countP_pairs fun a ha hP => (length_padded _).trans (h a ha hP)

end VirtualMssql.Join
