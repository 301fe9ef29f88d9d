/-
  QUERIES — the answers to `filter, sort, cut`, over rows of any type.

  A query keeps some rows, asks for an order, and cuts a window out.  An order that leaves ties does not
  determine the answer, so `Answer` is a relation: SOME sorted arrangement of the rows kept, cut to the
  window.

  The results are about work shared by two parties.  When the first one filters and the second filters
  again, the second's answers answer the conjunction (`Answer.then_filter`, `Answer.then_answer`).  A
  window is another matter: it may be cut by the first party only if nothing is left to filter or sort.
-/
import Mathlib.Data.List.Basic
import Mathlib.Order.Basic

namespace VirtualMssql.Query

open List

variable {R : Type}

/-! ## Sorting by several keys -/

/-- A strict weak order: one sort key, ties allowed. -/
structure WeakOrder (lt : R → R → Bool) : Prop where
  asymm : ∀ a b, lt a b = true → lt b a = false
  split : ∀ a b c, lt a c = true → lt a b = true ∨ lt b c = true

/-- By a key. -/
theorem WeakOrder.on {K : Type} {lt : K → K → Bool} (h : WeakOrder lt) (key : R → K) :
    WeakOrder fun a b => lt (key a) (key b) where
  asymm a b := h.asymm (key a) (key b)
  split a b c := h.split (key a) (key b) (key c)

/-- Descending. -/
theorem WeakOrder.flip {lt : R → R → Bool} (h : WeakOrder lt) : WeakOrder fun a b => lt b a where
  asymm a b := h.asymm b a
  split a b c hac := (h.split c b a hac).symm

/-- The keys decide one after the other. -/
def lexLe : List (R → R → Bool) → R → R → Bool
  | [], _, _ => true
  | lt :: lts, a, b => lt a b || (!lt b a && lexLe lts a b)

variable {lts : List (R → R → Bool)}

theorem lexLe_total (h : ∀ lt ∈ lts, WeakOrder lt) (a b : R) : (lexLe lts a b || lexLe lts b a) = true := by
  induction lts with
  | nil => rfl
  | cons lt lts ih =>
    have hih := ih (forall_mem_cons.mp h).2
    rw [lexLe, lexLe]
    cases hab : lt a b with
    | true => rfl
    | false =>
      cases hba : lt b a with
      | true => simp
      | false => simpa using hih

theorem lexLe_trans (h : ∀ lt ∈ lts, WeakOrder lt) (a b c : R)
    (hab : lexLe lts a b = true) (hbc : lexLe lts b c = true) : lexLe lts a c = true := by
  induction lts with
  | nil => rfl
  | cons lt lts ih =>
    have hlt := h lt mem_cons_self
    have hih := ih (forall_mem_cons.mp h).2
    simp only [lexLe, Bool.or_eq_true, Bool.and_eq_true, Bool.not_eq_true'] at hab hbc ⊢
    have hba : lt b a = false := hab.elim (hlt.asymm a b) And.left
    have hcb : lt c b = false := hbc.elim (hlt.asymm b c) And.left
    have hnot {x y z : R} (hxy : lt x y = false) (hyz : lt y z = false) : lt x z = false := by
      rw [Bool.eq_false_iff]
      intro hxz
      rcases hlt.split x y z hxz with h' | h'
      · simp [hxy] at h'
      · simp [hyz] at h'
    cases hac : lt a c with
    | true => exact .inl rfl
    | false =>
      -- the first key is no reason for either
      refine .inr ⟨hnot hcb hba, hih ?_ ?_⟩
      · exact (hab.resolve_left (by simp [hnot hac hcb])).2
      · exact (hbc.resolve_left (by simp [hnot hba hac])).2

/-- Keys that agree on two rows order them alike. -/
theorem lexLe_congr {ι : Type} {f g : ι → R → R → Bool} {l : List ι} {a b : R}
    (h : ∀ i ∈ l, f i a b = g i a b ∧ f i b a = g i b a) : lexLe (l.map f) a b = lexLe (l.map g) a b := by
  induction l with
  | nil => rfl
  | cons i l ih =>
    obtain ⟨hab, hba⟩ := h i mem_cons_self
    rw [map_cons, map_cons, lexLe, lexLe, hab, hba, ih (forall_mem_cons.mp h).2]

/-! ## Windows -/

/-- The rows behind the first `offset`, at most `limit` of them. -/
def window (offset : Nat) (limit : Option Nat) (l : List R) : List R :=
  match limit with
  | none => l.drop offset
  | some n => (l.drop offset).take n

/-- Cutting again to the same length changes nothing. -/
theorem window_again (offset n : Nat) (l : List R) :
    window 0 (some n) (window offset (some n) l) = window offset (some n) l := by
  simp [window, take_take]

/-! ## Answers -/

/-- **An answer to a query.** -/
def Answer (rows : List R) (keep : R → Bool) (le : R → R → Bool) (offset : Nat) (limit : Option Nat)
    (out : List R) : Prop :=
  ∃ sorted : List R, sorted.Perm (rows.filter keep) ∧
    sorted.Pairwise (fun a b => le a b = true) ∧ out = window offset limit sorted

section

variable {rows : List R} {keep p q : R → Bool} {le : R → R → Bool} {offset : Nat} {limit : Option Nat}

theorem exists_answer (rows : List R) (keep : R → Bool) (offset : Nat) (limit : Option Nat)
    (htotal : ∀ a b, (le a b || le b a) = true) (htrans : ∀ a b c, le a b = true → le b c = true → le a c = true) :
    ∃ out, Answer rows keep le offset limit out :=
  ⟨_, (rows.filter keep).mergeSort le, mergeSort_perm .., pairwise_mergeSort htrans htotal _,
    rfl⟩

variable {le' : R → R → Bool}

/-- Answers only depend on the order of the rows kept, and on which rows those are. -/
theorem Answer.congr {keep' : R → Bool} {out : List R}
    (h : Answer rows keep le offset limit out) (hkeep : ∀ r ∈ rows, keep r = keep' r)
    (hle : ∀ a ∈ rows, ∀ b ∈ rows, le a b = le' a b) : Answer rows keep' le' offset limit out := by
  obtain ⟨sorted, hperm, hsorted, rfl⟩ := h
  rw [filter_congr hkeep] at hperm
  have hmem : ∀ r ∈ sorted, r ∈ rows := fun r hr => mem_of_mem_filter (hperm.mem_iff.mp hr)
  refine ⟨sorted, hperm, List.Pairwise.imp_of_mem ?_ hsorted, rfl⟩
  intro a b ha hb hab
  rw [← hle a (hmem a ha) b (hmem b hb)]
  exact hab

/-- An answer without a window, filtered once more. -/
theorem Answer.then_filter {scanned : List R} (h : Answer rows p le 0 none scanned) (q : R → Bool) :
    (scanned.filter q).Perm (rows.filter fun r => p r && q r) ∧
      (scanned.filter q).Pairwise fun a b => le a b = true := by
  obtain ⟨sorted, hperm, hsorted, rfl⟩ := h
  refine ⟨?_, hsorted.filter _⟩
  have hfilter := hperm.filter q
  rw [filter_filter] at hfilter
  refine hfilter.trans (List.Perm.of_eq (filter_congr fun r _ => ?_))
  exact Bool.and_comm ..

/-- **The second party filters and cuts**, in the order of the first. -/
theorem Answer.then_window {scanned : List R} (h : Answer rows p le 0 none scanned) (q : R → Bool) :
    Answer rows (fun r => p r && q r) le offset limit (window offset limit (scanned.filter q)) :=
  ⟨scanned.filter q, (h.then_filter q).1, (h.then_filter q).2, rfl⟩

/-- **The second party filters, sorts and cuts**; the first one's order does not matter. -/
theorem Answer.then_answer {scanned out : List R}
    (h : Answer rows p le' 0 none scanned) (hout : Answer scanned q le offset limit out) :
    Answer rows (fun r => p r && q r) le offset limit out := by
  obtain ⟨sorted, hperm, hsorted, rfl⟩ := hout
  exact ⟨sorted, hperm.trans (h.then_filter q).1, hsorted, rfl⟩

end

end VirtualMssql.Query
