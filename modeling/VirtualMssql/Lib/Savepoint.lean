/-
  SAVEPOINTS — one session on a server, its open transaction, and the savepoints in it.

  A transaction sees its own data and keeps a stack of savepoints, most recent first.  Names may be used
  again: ROLLBACK goes to the MOST RECENT savepoint of the name, drops what lies above it and keeps it.
  A statement that fails takes the whole transaction with it.  Outside a transaction a write is committed
  at once.  Data is an arbitrary type.

  Somebody who uses the stack for nested levels means, for each open level, a certain savepoint.
  `Aligned levels saves` says that he gets it: of every open level the most recent savepoint of its name
  satisfies what the level was opened with, and rolling back to a level leaves those below it as they
  were.  Levels may be opened, saved again, released (the savepoint stays on the server) and rolled back
  to; `Aligned` is kept by all four.
-/
import Mathlib.Data.List.Basic

namespace VirtualMssql.Savepoint

open List

variable {N D : Type}

/-! ## The session -/

/-- An open transaction. -/
structure Tran (N D : Type) where
  current : D
  saves : List (N × D) := []
  deriving DecidableEq

/-- What the server has committed, and the open transaction of the session. -/
structure Server (N D : Type) where
  committed : D
  tran : Option (Tran N D) := none
  deriving DecidableEq

namespace Server

variable (s : Server N D)

/-- The data the session sees. -/
def data : D := s.tran.elim s.committed Tran.current

def saves : List (N × D) := s.tran.elim [] Tran.saves

/-- `BEGIN TRANSACTION`, with none open. -/
def start : Server N D := { s with tran := some ⟨s.committed, []⟩ }

/-- A write that succeeds. -/
def exec (f : D → D) (s : Server N D) : Server N D :=
  match s.tran with
  | some t => { s with tran := some { t with current := f t.current } }
  | none => { s with committed := f s.committed }

/-- The transaction is gone: rolled back, or lost with a failing statement. -/
def abort : Server N D := { s with tran := none }

def commit : Server N D := ⟨s.data, none⟩

/-- `SAVE TRANSACTION n`; refused outside a transaction. -/
def save (n : N) (s : Server N D) : Option (Server N D) :=
  s.tran.map fun t => { s with tran := some { t with saves := (n, t.current) :: t.saves } }

/-- The savepoints from the most recent one of the name on. -/
def dropTo [DecidableEq N] (n : N) : List (N × D) → Option (D × List (N × D))
  | [] => none
  | e :: l => if e.1 = n then some (e.2, e :: l) else dropTo n l

/-- `ROLLBACK TRANSACTION n`; refused when there is no such savepoint. -/
def rollbackTo [DecidableEq N] (n : N) (s : Server N D) : Option (Server N D) :=
  (dropTo n s.saves).map fun r => { s with tran := some ⟨r.1, r.2⟩ }

variable {s}

@[simp] theorem data_start (h : s.tran = none) : s.start.data = s.data := by
  simp [data, start, h]

@[simp] theorem data_exec (f : D → D) (s : Server N D) : (s.exec f).data = f s.data := by
  unfold exec data
  cases s.tran <;> rfl

@[simp] theorem saves_exec (f : D → D) (s : Server N D) : (s.exec f).saves = s.saves := by
  unfold exec saves
  cases s.tran <;> simp

@[simp] theorem tran_exec (f : D → D) (s : Server N D) : (s.exec f).tran.isSome = s.tran.isSome := by
  unfold exec
  cases s.tran <;> simp

@[simp] theorem saves_abort (s : Server N D) : s.abort.saves = [] := rfl

theorem abort_of_none (h : s.tran = none) : s.abort = s := by
  cases s
  subst h
  rfl

/-- Nothing the session can see has changed. -/
structure Same (s s' : Server N D) : Prop where
  data : s'.data = s.data
  saves : s'.saves = s.saves
  committed : s'.committed = s.committed

theorem Same.refl (s : Server N D) : Same s s := ⟨rfl, rfl, rfl⟩

theorem Same.trans {a b c : Server N D} (h : Same a b) (h' : Same b c) : Same a c :=
  ⟨h'.data.trans h.data, h'.saves.trans h.saves, h'.committed.trans h.committed⟩

theorem Same.start {s : Server N D} (h : s.tran = none) : Same s s.start :=
  ⟨data_start h, by simp [Server.saves, Server.start, h], rfl⟩

theorem Same.abort {s : Server N D} (h : s.tran = none) : Same s s.abort := by
  rw [abort_of_none h]
  exact Same.refl s

/-- Nothing has changed, or something has gone wrong and the transaction is lost. -/
def Settles (wrong : Prop) (s s' : Server N D) : Prop := Same s s' ∨ (wrong ∧ s' = s.abort)

variable {s' : Server N D}

theorem Settles.imp {p q : Prop} (h : Settles p s s') (hpq : p → q) :
    Settles q s s' := h.imp_right fun hlost => ⟨hpq hlost.1, hlost.2⟩

/-- A quiet step first. -/
theorem Settles.after {p : Prop} {a b c : Server N D} (hab : Same a b) (h : Settles p b c) : Settles p a c := by
  rcases h with h | ⟨hp, rfl⟩
  · exact .inl (hab.trans h)
  · refine .inr ⟨hp, ?_⟩
    rw [Server.abort, Server.abort, hab.committed]

variable {n : N}

theorem save_some (h : s.save n = some s') :
    s.tran.isSome = true ∧ s'.tran.isSome = true ∧ s'.data = s.data ∧ s'.committed = s.committed ∧
      s'.saves = (n, s.data) :: s.saves := by
  unfold save at h
  cases ht : s.tran with
  | none => simp [ht] at h
  | some t =>
    rw [ht, Option.map_some] at h
    cases h
    simp [data, saves, ht]

theorem rollbackTo_some [DecidableEq N] (h : s.rollbackTo n = some s') :
    ∃ d l, dropTo n s.saves = some (d, l) ∧ s'.data = d ∧ s'.saves = l ∧ s'.tran.isSome = true ∧
      s'.committed = s.committed := by
  unfold rollbackTo at h
  obtain ⟨⟨d, l⟩, hdrop, rfl⟩ := Option.map_eq_some_iff.mp h
  exact ⟨d, l, hdrop, rfl, rfl, rfl, rfl⟩

theorem dropTo_some [DecidableEq N] {n : N} : ∀ {l : List (N × D)} {d : D} {l' : List (N × D)},
    dropTo n l = some (d, l') →
      ∃ above below, l = above ++ (n, d) :: below ∧ l' = (n, d) :: below ∧ ∀ e ∈ above, e.1 ≠ n
  | [], _, _, h => absurd h (by simp [dropTo])
  | (m, x) :: l, d, l', h => by
    rw [dropTo] at h
    split_ifs at h with hm
    · cases h
      obtain rfl : m = n := hm
      exact ⟨[], l, rfl, rfl, by simp⟩
    · obtain ⟨above, below, rfl, rfl, habove⟩ := dropTo_some h
      refine ⟨(m, x) :: above, below, rfl, rfl, fun e he => ?_⟩
      rcases mem_cons.mp he with rfl | he
      · exact hm
      · exact habove e he

/-- ROLLBACK keeps the savepoint it went to. -/
theorem dropTo_again [DecidableEq N] {l l' : List (N × D)} {d : D} (h : dropTo n l = some (d, l')) :
    dropTo n l' = some (d, l') := by
  obtain ⟨_, below, _, rfl, _⟩ := dropTo_some h
  simp [dropTo]

end Server

/-! ## Levels -/

/-- The open levels, innermost first, each with its name and what its savepoint has to satisfy. -/
abbrev Levels (N D : Type) := List (N × (D → Prop))

/-- **The stack serves the levels.**  The savepoints fall into a part for the innermost level and the rest
    for the others: in the upper part no other open level has a savepoint, and those of the innermost
    level are right; the lower part has none of that level that could be taken for it. -/
def Aligned : Levels N D → List (N × D) → Prop
  | [], _ => True
  | (n, P) :: ls, saves => ∃ upper lower, saves = upper ++ lower ∧
      (∀ e ∈ upper, e.1 ∉ ls.map Prod.fst) ∧ (∀ e ∈ upper, e.1 = n → P e.2) ∧
      ((∃ e ∈ upper, e.1 = n) ∨ ∀ e ∈ lower, e.1 ≠ n) ∧ Aligned ls lower

theorem aligned_nil : ∀ ls : Levels N D, Aligned ls []
  | [] => trivial
  | (_, _) :: ls => ⟨[], [], rfl, by simp, by simp, .inr (by simp), aligned_nil ls⟩

variable {ls : Levels N D} {saves : List (N × D)}

/-- Savepoints of no open level may lie on top. -/
theorem Aligned.under (h : Aligned ls saves) {top : List (N × D)}
    (htop : ∀ e ∈ top, e.1 ∉ ls.map Prod.fst) : Aligned ls (top ++ saves) := by
  cases ls with
  | nil => trivial
  | cons l ls =>
    obtain ⟨n, P⟩ := l
    obtain ⟨upper, lower, rfl, hother, hright, hfound, hrest⟩ := h
    have hname : ∀ e ∈ top, e.1 ≠ n ∧ e.1 ∉ ls.map Prod.fst := by
      intro e he
      simpa [not_or] using htop e he
    refine ⟨top ++ upper, lower, (append_assoc ..).symm, fun e he => ?_, fun e he hn => ?_, ?_, hrest⟩
    · rcases mem_append.mp he with he | he
      · exact (hname e he).2
      · exact hother e he
    · rcases mem_append.mp he with he | he
      · exact absurd hn (hname e he).1
      · exact hright e he hn
    · exact hfound.imp_left fun ⟨e, he, hn⟩ => ⟨e, mem_append_right _ he, hn⟩

variable {n : N} {P : D → Prop} {d : D}

/-- **Opening a level** with at least one savepoint for it, all right. -/
theorem Aligned.opened (h : Aligned ls saves) (hn : n ∉ ls.map Prod.fst) (hd : P d)
    {top : List (N × D)} (hne : top ≠ []) (htop : ∀ e ∈ top, e = (n, d)) : Aligned ((n, P) :: ls) (top ++ saves) := by
  refine ⟨top, saves, rfl, fun e he => ?_, fun e he _ => ?_, .inl ?_, h⟩
  · rw [htop e he]; exact hn
  · rw [htop e he]; exact hd
  · obtain ⟨e, he⟩ := exists_mem_of_ne_nil top hne
    exact ⟨e, he, by rw [htop e he]⟩

/-- **Saving the innermost level again.** -/
theorem Aligned.saved (h : Aligned ((n, P) :: ls) saves) (hn : n ∉ ls.map Prod.fst) (hd : P d) :
    Aligned ((n, P) :: ls) ((n, d) :: saves) := by
  obtain ⟨upper, lower, rfl, hother, hright, _, hrest⟩ := h
  refine ⟨(n, d) :: upper, lower, rfl, fun e he => ?_, fun e he hen => ?_, .inl ⟨(n, d), mem_cons_self, rfl⟩, hrest⟩
  · rcases mem_cons.mp he with rfl | he
    · exact hn
    · exact hother e he
  · rcases mem_cons.mp he with rfl | he
    · exact hd
    · exact hright e he hen

/-- **Releasing levels** leaves their savepoints where they are. -/
theorem Aligned.released {ls : Levels N D} {saves : List (N × D)} : ∀ {l : Levels N D},
    Aligned (l ++ ls) saves → Aligned ls saves
  | [], h => h
  | (_, _) :: inner, h => by
    obtain ⟨upper, lower, rfl, hother, _, _, hrest⟩ := h
    refine (Aligned.released hrest).under fun e he hmem => hother e he ?_
    obtain ⟨l, hl, hname⟩ := mem_map.mp hmem
    exact mem_map.mpr ⟨l, mem_append_right inner hl, hname⟩

/-- **Rolling back to a level** reaches its savepoint, and the levels below keep theirs. -/
theorem Aligned.rolledBack [DecidableEq N] (h : Aligned ((n, P) :: ls) saves)
    {saves' : List (N × D)} (hdrop : Server.dropTo n saves = some (d, saves')) :
    P d ∧ Aligned ((n, P) :: ls) saves' := by
  obtain ⟨above, below, hsaves, rfl, habove⟩ := Server.dropTo_some hdrop
  obtain ⟨upper, lower, hcut, hother, hright, hfound, hrest⟩ := h
  -- the first savepoint of the name is in the upper part
  have hupper : ∃ mid, upper = above ++ (n, d) :: mid ∧ below = mid ++ lower := by
    rw [hcut] at hsaves
    rcases append_eq_append_iff.mp hsaves with ⟨c, hc, hlower⟩ | ⟨c, hc, hbelow⟩
    · exfalso
      have hnone : ∀ e ∈ upper, e.1 ≠ n := fun e he => habove e (by rw [hc]; exact mem_append_left _ he)
      rcases hfound with ⟨e, he, hen⟩ | hno
      · exact hnone e he hen
      · exact hno (n, d) (by rw [hlower]; simp) rfl
    · cases c with
      | nil =>
        exfalso
        rw [append_nil] at hc
        rw [nil_append] at hbelow
        rcases hfound with ⟨e, he, hen⟩ | hno
        · exact habove e (hc ▸ he) hen
        · exact hno (n, d) (by rw [← hbelow]; simp) rfl
      | cons e mid =>
        cases hbelow
        exact ⟨mid, hc, rfl⟩
  obtain ⟨mid, rfl, rfl⟩ := hupper
  refine ⟨hright (n, d) (by simp) rfl, (n, d) :: mid, lower, rfl, fun e he => ?_, fun e he => ?_,
    .inl ⟨(n, d), mem_cons_self, rfl⟩, hrest⟩
  · exact hother e (mem_append_right _ he)
  · exact hright e (mem_append_right _ he)

end VirtualMssql.Savepoint
