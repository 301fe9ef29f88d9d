/-
  OUTCOMES — taking a computation that may fail apart.

  A fallible function of the modelled program returns `Except` or `Option`.  The lemmas here invert the
  ways such functions are put together: sequencing, mapping the result, and a loop that stops at the first
  failure.  An invariant of the loop body is an invariant of the loop (`foldlM_keeps`); a list is
  mapped item by item (`mapM_map_iff`).
-/
import Mathlib.Data.List.Basic

namespace VirtualMssql.Outcome

open List

variable {ε α β γ σ : Type}

theorem bind_ok {x : Except ε α} {f : α → Except ε β} {r : β} : (x >>= f) = .ok r ↔ ∃ a, x = .ok a ∧ f a = .ok r := by
  cases x with
  | error e | ok a => simp [bind, Except.bind]

theorem map_ok {x : Except ε α} {f : α → β} {r : β} : x.map f = .ok r ↔ ∃ a, x = .ok a ∧ f a = r := by
  cases x with
  | error e | ok a => simp [Except.map]

/-- **The loop keeps what its body keeps.** -/
theorem foldlM_keeps {P : σ → Prop} {f : σ → α → Except ε σ} : ∀ {l : List α} {s s' : σ},
      (∀ a ∈ l, ∀ s s', P s → f s a = .ok s' → P s') → P s → l.foldlM f s = .ok s' → P s'
  | [], s, s', _, hs, h => by
    obtain rfl : s = s' := Except.ok.inj h
    exact hs
  | a :: l, s, s', hbody, hs, h => by
    rw [foldlM_cons, bind_ok] at h
    obtain ⟨t, hfa, hrest⟩ := h
    refine foldlM_keeps ((forall_mem_cons.mp hbody).2) ?_ hrest
    exact hbody a mem_cons_self s t hs hfa

section Mapping

variable {f g : α → Option β}

theorem mapM_cons_some {a : α} {l : List α} {bs : List β} :
    (a :: l).mapM f = some bs ↔ ∃ b cs, f a = some b ∧ l.mapM f = some cs ∧ bs = b :: cs := by
  rw [mapM_cons]
  cases f a with
  | none => simp
  | some b => cases l.mapM f <;> simp [eq_comm]

theorem mapM_mono : ∀ {l : List α} {bs : List β}, l.mapM f = some bs → (∀ a ∈ l, ∀ b, f a = some b → g a = some b) →
    l.mapM g = some bs
  | [], _, h, _ => h
  | a :: l, _, h, hfg => by
    obtain ⟨b, cs, hb, hcs, rfl⟩ := mapM_cons_some.mp h
    obtain ⟨ha, hl⟩ := forall_mem_cons.mp hfg
    exact mapM_cons_some.mpr ⟨b, cs, ha b hb, mapM_mono hcs hl, rfl⟩

/-- Item by item: what the values made from a list have to be. -/
theorem mapM_map_iff {u : β → γ} {k : α → γ} : ∀ {l : List α} {bs : List β}, l.mapM f = some bs →
    (bs.map u = l.map k ↔ ∀ a ∈ l, ∀ b, f a = some b → u b = k a)
  | [], _, h => by
    cases h
    simp
  | a :: l, _, h => by
    obtain ⟨b, cs, hb, hcs, rfl⟩ := mapM_cons_some.mp h
    simp [mapM_map_iff hcs, hb]

variable {l : List α} {bs : List β} (h : l.mapM f = some bs)
include h

theorem mapM_items : bs.map some = l.map f := (mapM_map_iff h).mpr fun _ _ _ hab => hab.symm

theorem mapM_each : ∀ a ∈ l, ∃ b ∈ bs, some b = f a := fun _ ha =>
  mem_map.mp (mapM_items h ▸ mem_map_of_mem ha)

theorem mapM_mem : ∀ b ∈ bs, ∃ a ∈ l, f a = some b := fun _ hb =>
  mem_map.mp (mapM_items h ▸ mem_map_of_mem hb)

end Mapping

end VirtualMssql.Outcome
