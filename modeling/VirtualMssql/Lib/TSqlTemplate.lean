/-
  STATEMENT TEMPLATES — a fixed T-SQL text with `N'%s'` holes, filled by plain substitution.

  A template is a first part and the parts after each hole; `sprintfS` substitutes the arguments as
  they are, the way a `%s` conversion does.  Filling the TEXT and filling the TOKENS are two different
  things: `fillHoles` replaces the string tokens that read `%s` by the arguments.  The crux
  (`lex_filled_iff`): the filled text lexes to the filled tokens exactly when no argument contains a
  quote.  Induction over the holes; at each one `Delimited.not_mem_of_readBody` decides.
-/
import VirtualMssql.Lib.TSqlLex

namespace VirtualMssql.TSql

open Delimited List

/-- The conversion that marks a hole. -/
def hole : List Nat := [37, 115]

/-- `printf` with nothing but `%s` conversions: each takes the next argument. -/
def sprintfS : List Nat → List (List Nat) → List Nat
  | [], _ => []
  | 37 :: 115 :: fmt, a :: as => a ++ sprintfS fmt as
  | c :: fmt, as => c :: sprintfS fmt as

/-- Put the arguments into the string tokens that are holes, in order. -/
def fillHoles : List Tok → List (List Nat) → List Tok
  | [], _ => []
  | t :: ts, [] => t :: fillHoles ts []
  | t :: ts, a :: as => if t = .str hole then .str a :: fillHoles ts as else t :: fillHoles ts (a :: as)

/-- A template text, its holes filled: `first`, then for each hole the argument, the closing quote
    and the next part. -/
def filled (first : List Nat) : List (List Nat × List Nat) → List Nat
  | [] => first
  | (a, next) :: holes => first ++ (a ++ 39 :: filled next holes)

/-! ## Substitution into a format -/

theorem sprintfS_hole (a : List Nat) (fmt : List Nat) (as : List (List Nat)) :
    sprintfS (37 :: 115 :: fmt) (a :: as) = a ++ sprintfS fmt as := by
  rw [sprintfS]

theorem sprintfS_plain : ∀ {p : List Nat}, 37 ∉ p → ∀ (fmt : List Nat) (as : List (List Nat)),
    sprintfS (p ++ fmt) as = p ++ sprintfS fmt as
  | [], _, _, _ => rfl
  | c :: p, hp, fmt, as => by
    have hc : c ≠ 37 := fun he => hp (he ▸ mem_cons_self)
    rw [cons_append, sprintfS, sprintfS_plain fun hm => hp (mem_cons_of_mem c hm)]
    · rfl
    · intro fmt' a as' _ he
      exact absurd he hc

/-- Substituting into a format with holes gives the filled text. -/
theorem sprintfS_filled : ∀ (first : List Nat) (holes : List (List Nat × List Nat)),
    37 ∉ first → (∀ h ∈ holes, 37 ∉ h.2) →
    sprintfS (filled first (holes.map fun h => (hole, h.2))) (holes.map Prod.fst) = filled first holes
  | first, [], hf, _ => by
    have := sprintfS_plain hf [] []
    rw [append_nil] at this
    simpa [filled, sprintfS] using this
  | first, (a, next) :: holes, hf, hh => by
    have hn : 37 ∉ next := hh (a, next) mem_cons_self
    have ih := sprintfS_filled next holes hn (forall_mem_cons.mp hh).2
    have hq : 37 ∉ ([39] : List Nat) := by decide
    have hstep := sprintfS_plain hq (filled next (holes.map fun h => (hole, h.2))) (holes.map Prod.fst)
    rw [ih] at hstep
    simp only [map_cons, filled]
    rw [sprintfS_plain hf, hole, cons_append, cons_append, nil_append, sprintfS_hole]
    exact congrArg (fun t => first ++ (a ++ t)) hstep

/-! ## Filling tokens -/

theorem fillHoles_nil : ∀ ts : List Tok, fillHoles ts [] = ts
  | [] => rfl
  | t :: ts => by rw [fillHoles, fillHoles_nil ts]

theorem fillHoles_hole : ∀ {ts : List Tok}, Tok.str hole ∉ ts →
    ∀ (us : List Tok) (a : List Nat) (as : List (List Nat)),
    fillHoles (ts ++ .str hole :: us) (a :: as) = ts ++ .str a :: fillHoles us as
  | [], _, us, a, as => by rw [nil_append, fillHoles, if_pos rfl]; rfl
  | t :: ts, h, us, a, as => by
    have ht : t ≠ .str hole := fun he => h (he ▸ mem_cons_self)
    rw [cons_append, fillHoles, if_neg ht, fillHoles_hole fun hm => h (mem_cons_of_mem t hm)]
    rfl

/-! ## Filled text against filled tokens -/

variable (cls : CharClass)

/-- A part that leads into a hole: it ends right after the opening quote, and its own tokens are not
    mistaken for holes. -/
def LeadsIn (p : List Nat) : Prop :=
  (runPrefix cls .start p).2 = .str [] ∧ Tok.str hole ∉ (runPrefix cls .start p).1

instance (p : List Nat) : Decidable (LeadsIn cls p) :=
  inferInstanceAs (Decidable (_ ∧ _))

/-- All parts but the last lead into the next hole, and each part after a hole goes on with a
    character that neither doubles the quote nor is a NUL. -/
def Shaped : List Nat → List (List Nat) → Prop
  | _, [] => True
  | p, next :: rest =>
    LeadsIn cls p ∧ (∃ c cs, next = c :: cs ∧ c ≠ 39 ∧ c ≠ 0) ∧ Shaped next rest

theorem filled_head {c : Nat} {cs : List Nat} (holes : List (List Nat × List Nat)) :
    (filled (c :: cs) holes).head? = some c := by
  cases holes with
  | nil | cons h holes => rfl

/-- Reading on from inside the literal of a hole. -/
theorem lexFrom_hole {a rest : List Nat} (hr : rest.head? ≠ some 39) (ha : 39 ∉ a) :
    lexFrom cls (.str []) (a ++ 39 :: rest) = .str a :: lexFrom cls .start rest := by
  rw [lexFrom_str, readBody_plain hr ha]
  rfl

/-- One hole of a statement: the text put in, the surplus that was cut off the argument it was MEANT
    to be, and the part of the template that follows. -/
structure Slot where
  arg : List Nat
  cut : List Nat
  next : List Nat

/-- **Filled text against filled tokens.**  The filled text lexes to the template's tokens filled with
    the meant arguments exactly when every argument is free of quotes and nothing was cut off (a cut
    happens at a NUL). -/
theorem lex_filled_iff : ∀ (p : List Nat) (slots : List Slot), Shaped cls p (slots.map Slot.next) →
    (∀ h ∈ slots, h.cut = [] ∨ ∃ z, h.cut = 0 :: z) →
    (lexFrom cls .start (filled p (slots.map fun h => (h.arg, h.next))) =
        fillHoles (lexFrom cls .start (filled p (slots.map fun h => (hole, h.next))))
          (slots.map fun h => h.arg ++ h.cut) ↔ ∀ h ∈ slots, 39 ∉ h.arg ∧ h.cut = [])
  | p, [], _, _ => by simp [fillHoles_nil, filled]
  | p, ⟨a, z, next⟩ :: slots, hs, hz => by
    obtain ⟨⟨hmode, hfree⟩, ⟨c, cs, rfl, hc39, hc0⟩, hnext⟩ := hs
    have hrun : runPrefix cls .start p = ((runPrefix cls .start p).1, .str []) := by
      rw [← hmode]
    have hhead : ∀ l, (filled (c :: cs) l).head? ≠ some 39 := by
      intro l; rw [filled_head]; simpa using hc39
    have htemplate := lexFrom_hole cls (hhead (slots.map fun h => (hole, h.next))) (show 39 ∉ hole by decide)
    have ih := lex_filled_iff (c :: cs) slots hnext (forall_mem_cons.mp hz).2
    have hz0 : z = [] ∨ ∃ z', z = 0 :: z' := hz ⟨a, z, c :: cs⟩ mem_cons_self
    simp only [map_cons, filled, forall_mem_cons]
    rw [lexFrom_of_run cls hrun, lexFrom_of_run cls hrun, htemplate, fillHoles_hole hfree, append_cancel_left_eq]
    constructor
    · -- the literal that is really read must be the meant argument
      intro h
      rw [lexFrom_str] at h
      cases hb : readBody 39 (a ++ 39 :: filled (c :: cs) (slots.map fun h => (h.arg, h.next))) with
      | none => simp [hb] at h
      | some br =>
        obtain ⟨b, r⟩ := br
        rw [hb] at h
        simp only [nil_append, List.cons.injEq, Tok.str.injEq] at h
        obtain ⟨rfl, htail⟩ := h
        have hne : ∀ x, z.head? = some x → x ≠ 39 ∧
            (filled (c :: cs) (slots.map fun h => (h.arg, h.next))).head? ≠ some x := by
          intro x hx
          rcases hz0 with h0 | ⟨z', h0⟩
          · simp [h0] at hx
          · rw [h0] at hx
            obtain rfl : 0 = x := by simpa using hx
            exact ⟨by decide, by rw [filled_head]; simpa using hc0⟩
        obtain ⟨ha, rfl⟩ := not_mem_of_readBody (hhead _) hne hb
        rw [readBody_plain (hhead _) ha, append_nil, Option.some.injEq, Prod.mk.injEq] at hb
        rw [← hb.2] at htail
        exact ⟨⟨ha, rfl⟩, ih.mp htail⟩
    · rintro ⟨⟨ha, rfl⟩, hrest⟩
      rw [lexFrom_hole cls (hhead _) ha, ih.mpr hrest, append_nil]

end VirtualMssql.TSql
