/-
  BEST INDEX — what `vms_plan_compile` writes is well formed.

  Three loops over the same constraints share the argument counter.  Each of them gives a number only to a
  constraint that has none, and the numbers go up by one: so at every moment the arguments given out are
  `1..nargs`, each to one constraint (`Numbered`).  Together with the usage of the terms (`PlanUsage`) this is what
  SQLite's contract for xBestIndex asks, and what xFilter relies on (`bestIndex_wellFormed`).
-/
import VirtualMssql.PlanUsage
import Mathlib.Data.List.Forall2

namespace VirtualMssql.Plan

open List

/-! ## Arguments -/

/-- Every argument from 1 to `n` is named by exactly one constraint, and no other argument is named. -/
def Numbered (usage : List ConstraintUsage) (n : Nat) : Prop :=
  ∀ v, 0 < v → (usage.map (·.argvIndex)).count v = if v ≤ n then 1 else 0

/-- The constraint has no argument yet. -/
def Free (usage : List ConstraintUsage) (i : Nat) : Prop := ∃ u, usage[i]? = some u ∧ u.argvIndex = 0

section Arguments

variable {usage : List ConstraintUsage} {n i j : Nat} {u : ConstraintUsage}

theorem Free.set_ne (h : Free usage j) (hne : i ≠ j) : Free (usage.set i u) j := by
  obtain ⟨w, hw, hzero⟩ := h
  exact ⟨w, by rw [getElem?_set_ne hne]; exact hw, hzero⟩

/-- A constraint without an argument gets one: only this argument is named once more. -/
theorem count_set_free (hi : Free usage i) {v : Nat} (hv : 0 < v) : ((usage.set i u).map (·.argvIndex)).count v =
      (usage.map (·.argvIndex)).count v + if u.argvIndex = v then 1 else 0 := by
  obtain ⟨w, hw, hzero⟩ := hi
  obtain ⟨hlt, hget⟩ := List.getElem?_eq_some_iff.mp hw
  have hlt' : i < (usage.map (·.argvIndex)).length := by simpa using hlt
  have hold : usage[i].argvIndex ≠ v := by
    rw [hget, hzero]
    omega
  rw [map_set, count_set hlt']
  simp [hold]

/-- The next argument. -/
theorem Numbered.take (h : Numbered usage n) (hi : Free usage i) : Numbered (usage.set i ⟨n + 1, true⟩) (n + 1) := by
  intro v hv
  rw [count_set_free hi hv, h v hv]
  simp only
  split_ifs <;> omega

/-- A null test takes none. -/
theorem Numbered.flag (h : Numbered usage n) (hi : Free usage i) : Numbered (usage.set i ⟨0, true⟩) n := by
  intro v hv
  rw [count_set_free hi hv, h v hv]
  simp only
  split_ifs <;> omega

end Arguments

/-- **The first two loops number their arguments.**  Induction on what is pushed; no constraint is pushed twice, so
    those still to come are free. -/
theorem pushAll_numbered : ∀ {ps : List Pushed} {st : CompileState}, (ps.map Pushed.index).Nodup →
    (∀ p ∈ ps, Free st.usage p.index) → Numbered st.usage st.nargs →
    Numbered (pushAll st ps).usage (pushAll st ps).nargs
  | [], _, _, _, h => h
  | p :: ps, st, hnodup, hfree, h => by
    rw [map_cons, nodup_cons] at hnodup
    have hp := hfree p mem_cons_self
    refine @pushAll_numbered ps (st.push p) hnodup.2 (fun q hq => ?_) ?_
    · have hne : p.index ≠ q.index := fun heq => hnodup.1 (heq ▸ mem_map_of_mem hq)
      rw [push_usage]
      exact (hfree q (mem_cons_of_mem _ hq)).set_ne hne
    · rw [push_usage]
      cases hnull : p.op.isNullTest with
      | true => simpa [CompileState.push, hnull] using h.flag hp
      | false => simpa [CompileState.push, hnull] using h.take hp

variable {usage : List ConstraintUsage}

/-- **The third loop goes on.**  A LIMIT or OFFSET that is still to come is as free as it was before the loop. -/
theorem foldl_tailStep_numbered {n : Nat} (h : Numbered usage n)
    (cs : List IndexConstraint) (hlen : cs.length ≤ usage.length)
    (hfree : ∀ i c, cs[i]? = some c → c.op = .limit ∨ c.op = .offset → Free usage i) :
    Numbered (cs.zipIdx.foldl tailStep { nargs := n, usage }).usage
      (cs.zipIdx.foldl tailStep { nargs := n, usage }).nargs := by
  induction cs using reverseRecOn with
  | nil => exact h
  | append_singleton cs c ih =>
    rw [length_append, length_singleton] at hlen
    have hinv := foldl_tailStep_inv n cs (show cs.length ≤ usage.length by omega)
    specialize ih (by omega) fun i d hd => hfree i d (getElem?_init hd c)
    rw [zipIdx_append, foldl_append]
    simp only [zipIdx_singleton, foldl_cons, foldl_nil, Nat.zero_add]
    generalize cs.zipIdx.foldl tailStep { nargs := n, usage } = st at hinv ih
    have hnext : c.op = .limit ∨ c.op = .offset → Free st.usage cs.length := by
      intro hop
      rw [Free, hinv.kept cs.length (by simp)]
      exact hfree cs.length c getElem?_concat_length hop
    rcases tailStep_cases st c cs.length with hs | ⟨hop, _, hs⟩ | ⟨hop, _, hs⟩ <;> rw [hs]
    · exact ih
    · exact ih.take (hnext (.inl hop))
    · exact ih.take (hnext (.inr hop))

section Compiled

variable (cols : List VmsMetaColumn) (info : IndexInfo)

theorem compileTerms_numbered : Numbered (compileTerms cols info).usage (compileTerms cols info).nargs := by
  rw [compileTerms_eq]
  refine pushAll_numbered (pushed_index_nodup cols info) (fun p hp => ⟨{}, ?_, rfl⟩) fun v hv => ?_
  · simp [pushed_index_lt cols info hp]
  · have hnone : v ∉ (info.aConstraint.map fun _ => ({} : ConstraintUsage)).map (·.argvIndex) := by
      simp only [map_map, mem_map, not_exists, not_and]
      rintro c _ rfl
      cases hv
    rw [count_eq_zero.mpr hnone, if_neg (by show ¬ v ≤ 0; omega)]

theorem compileTail_numbered : Numbered (compileTail cols info).usage (compileTail cols info).nargs := by
  refine foldl_tailStep_numbered (compileTerms_numbered cols info) _ (compileTerms_usage_length cols info).ge
    fun j c hc hop => ⟨{}, ?_, rfl⟩
  refine compileTerms_usage_other cols info (fun hmem => ?_) (List.getElem?_eq_some_iff.mp hc).1
  obtain ⟨p, hp, rfl⟩ := mem_map.mp hmem
  obtain ⟨hl, ho⟩ := pushed_rowOp cols info hp hc
  exact hop.elim hl ho

/-! ## The contract -/

/-- The operator of the term for a constraint. -/
def planOp : ConstraintOp → Option VmsPlanOp
  | .in_ => some .in_
  | op => compareOp op

/-- The term speaks of the constraint: usable, on the same column and with the same operator, and its usage names
    the term's argument. -/
structure Speaks (out : Compiled) (t : VmsPlanTerm) (i : Nat) : Prop where
  constraint : ∃ c, info.aConstraint[i]? = some c ∧ c.usable = true ∧ c.iColumn = t.col ∧ planOp c.op = some t.op
  usage : out.usage[i]? = some ⟨(t.argIndex + 1).toNat, true⟩

/-- The constraint is omitted, and is no LIMIT or OFFSET. -/
def OmittedRow (out : Compiled) (i : Nat) : Prop :=
  ∃ c u, info.aConstraint[i]? = some c ∧ out.usage[i]? = some u ∧ u.omitted = true ∧ c.op ≠ .limit ∧ c.op ≠ .offset

/-- What xBestIndex has to hand over.  `source` says for each term which constraint it is for. -/
structure WellFormed (out : Compiled) : Prop where
  args : ∃ n : Nat, out.plan.nargs = n ∧ Numbered out.usage n
  values : ∀ t ∈ out.plan.terms, t.op.isNullTest = false → 0 ≤ t.argIndex ∧ t.argIndex < out.plan.nargs ∧
    ∃ i, Speaks info out t i
  source : ∃ source : List Nat, source.Nodup ∧ (∀ i, i ∈ source ↔ OmittedRow info out i) ∧
    List.Forall₂ (fun i t => Speaks info out t i) source out.plan.terms
  columns : ∀ t ∈ out.plan.terms, 0 ≤ t.col ∧ t.col < cols.length
  orders : ∀ o ∈ out.plan.order, 0 ≤ o.1 ∧ o.1 < cols.length
  room : out.plan.terms.length ≤ vmsPlanMaxArgs ∧ out.plan.order.length ≤ vmsPlanMaxArgs

/-- Term `k` speaks of the `k`-th constraint pushed. -/
theorem speaks_pushed {k : Nat} {p : Pushed} {t : VmsPlanTerm} (hp : (pushed cols info)[k]? = some p)
    (ht : (vmsPlanCompile cols info).plan.terms[k]? = some t) :
    Speaks info (vmsPlanCompile cols info) t p.index ∧ t.col = p.col ∧ (t.op.isNullTest = false → 0 ≤ t.argIndex) := by
  obtain ⟨t', ht', hcol, hop, harg⟩ := pushTerms_getElem? (n := 0) hp
  rw [← compiled_terms, ht] at ht'
  cases ht'
  obtain ⟨c, hc, husable, hcolumn, _, hops⟩ := mem_pushed cols info (mem_of_getElem? hp)
  refine ⟨⟨⟨c, hc, husable, by rw [hcolumn, hcol], ?_⟩, usage_pushed cols info hp ht⟩, hcol, fun h => harg (hop ▸ h)⟩
  rw [hop]
  rcases hops with ⟨hcmp, _⟩ | ⟨hin, hin', _⟩
  · cases hc' : c.op <;> simp_all [planOp, compareOp]
  · rw [hin, hin']
    rfl

theorem compiled_terms_length : (vmsPlanCompile cols info).plan.terms.length = (pushed cols info).length := by
  rw [compiled_terms, pushTerms_length]

/-- Every term was pushed. -/
theorem pushed_of_term {k : Nat} {t : VmsPlanTerm} (ht : (vmsPlanCompile cols info).plan.terms[k]? = some t) :
    ∃ p, (pushed cols info)[k]? = some p := by
  have hlt := (List.getElem?_eq_some_iff.mp ht).1
  rw [compiled_terms_length] at hlt
  exact ⟨_, getElem?_eq_getElem hlt⟩

/-- A constraint on rows is omitted exactly if it was pushed. -/
theorem omittedRow_iff (i : Nat) :
    OmittedRow info (vmsPlanCompile cols info) i ↔ i ∈ (pushed cols info).map Pushed.index := by
  constructor
  · rintro ⟨c, u, hc, hu, homit, hl, ho⟩
    by_contra hi
    rw [usage_other cols info hc hl (fun h => absurd h ho) hi] at hu
    rw [← Option.some.inj hu] at homit
    cases homit
  · intro hi
    obtain ⟨p, hp, rfl⟩ := mem_map.mp hi
    obtain ⟨k, hk⟩ := mem_iff_getElem?.mp hp
    obtain ⟨t, ht⟩ : ∃ t, (vmsPlanCompile cols info).plan.terms[k]? = some t := by
      have hlt := (List.getElem?_eq_some_iff.mp hk).1
      rw [← compiled_terms_length] at hlt
      exact ⟨_, getElem?_eq_getElem hlt⟩
    obtain ⟨c, hc, _⟩ := mem_pushed cols info hp
    obtain ⟨hl, ho⟩ := pushed_rowOp cols info hp hc
    exact ⟨c, _, hc, usage_pushed cols info hk ht, rfl, hl, ho⟩

/-- A usage that names an argument names one that there is. -/
theorem Numbered.le {n i v : Nat} {b : Bool} (h : Numbered usage n)
    (hu : usage[i]? = some ⟨v, b⟩) (hv : 0 < v) : v ≤ n := by
  have hmem : v ∈ usage.map (·.argvIndex) := mem_map.mpr ⟨_, mem_of_getElem? hu, rfl⟩
  have hpos := count_pos_iff.mpr hmem
  rw [h v hv] at hpos
  by_contra hgt
  rw [if_neg hgt] at hpos
  cases hpos

/-- **xBestIndex hands over a well-formed plan**, whatever the constraints, the ORDER BY and the columns are. -/
theorem bestIndex_wellFormed : WellFormed cols info (vmsPlanCompile cols info) where
  args := ⟨(compileTail cols info).nargs, rfl, compileTail_numbered cols info⟩
  values t ht hvalue := by
    obtain ⟨k, hk⟩ := mem_iff_getElem?.mp ht
    obtain ⟨p, hp⟩ := pushed_of_term cols info hk
    obtain ⟨hspeaks, _, harg⟩ := speaks_pushed cols info hp hk
    have hnonneg := harg hvalue
    have hle := (compileTail_numbered cols info).le hspeaks.usage (by omega)
    refine ⟨hnonneg, ?_, p.index, hspeaks⟩
    show t.argIndex < ((compileTail cols info).nargs : Int)
    omega
  source := by
    refine ⟨(pushed cols info).map Pushed.index, pushed_index_nodup cols info, fun i =>
      (omittedRow_iff cols info i).symm, ?_⟩
    refine forall₂_iff_get.mpr ⟨by rw [length_map, compiled_terms_length], fun k hk ht => ?_⟩
    have hk' : k < (pushed cols info).length := by simpa using hk
    simp only [get_eq_getElem, getElem_map]
    exact (speaks_pushed cols info (getElem?_eq_getElem hk') (getElem?_eq_getElem ht)).1
  columns t ht := by
    obtain ⟨k, hk⟩ := mem_iff_getElem?.mp ht
    obtain ⟨p, hp⟩ := pushed_of_term cols info hk
    obtain ⟨_, hcol, _⟩ := speaks_pushed cols info hp hk
    obtain ⟨_, _, _, _, hlt, _⟩ := mem_pushed cols info (mem_of_getElem? hp)
    rw [hcol]
    omega
  orders o ho := by
    rcases compileOrder_cases cols info with hnone | ⟨hall, hcols⟩
    · simp [vmsPlanCompile, hnone] at ho
    · have ho' : o ∈ compileOrder cols info := ho
      rw [hall] at ho'
      obtain ⟨item, hitem, rfl⟩ := mem_map.mp ho'
      obtain ⟨hnonneg, hlt, _⟩ := hcols item hitem
      exact ⟨hnonneg, hlt⟩
  room := ⟨(compiled_fits cols info).terms, compileOrder_length cols info⟩

end Compiled

end VirtualMssql.Plan
