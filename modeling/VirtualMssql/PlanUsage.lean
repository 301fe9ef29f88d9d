/-
  PLAN USAGE — what `vms_plan_compile` tells SQLite about each constraint.

  The plan and the usage array are written side by side; SQLite reads the one, xFilter the other, and
  they have to speak of the same constraints.  The lemmas here tie them together: term `k` of the plan is
  the `k`-th constraint pushed, its argument is the one its usage names, and a constraint is flagged
  `omit` exactly when it was pushed or consumed as a LIMIT or an OFFSET.
-/
import VirtualMssql.Plan
import Mathlib.Data.List.Induction

namespace VirtualMssql.Plan

open List Option

variable (cols : List VmsMetaColumn) (info : IndexInfo)

/-! ## Terms and their arguments -/

/-- The terms of the constraints pushed, with their arguments numbered from `n`. -/
def pushTerms : Nat → List Pushed → List VmsPlanTerm
  | _, [] => []
  | n, p :: ps =>
    if p.op.isNullTest then ⟨p.col, p.op, -1⟩ :: pushTerms n ps
    else ⟨p.col, p.op, n⟩ :: pushTerms (n + 1) ps

theorem pushAll_terms (ps : List Pushed) (st : CompileState) :
    (pushAll st ps).terms = st.terms ++ pushTerms st.nargs ps := by
  induction ps generalizing st with
  | nil => simp [pushAll, pushTerms]
  | cons p ps ih =>
    rw [pushAll, foldl_cons, ← pushAll, ih, pushTerms]
    cases hp : p.op.isNullTest <;> simp [CompileState.push, hp]

variable {k i n : Nat} {p : Pushed} {c : IndexConstraint} {ps : List Pushed}

/-- Term `k` is the `k`-th constraint pushed; it has an argument unless it is a null test. -/
theorem pushTerms_getElem? (h : ps[k]? = some p) : ∃ t, (pushTerms n ps)[k]? = some t ∧ t.col = p.col ∧ t.op = p.op ∧
      (p.op.isNullTest = false → 0 ≤ t.argIndex) := by
  induction ps generalizing n k with
  | nil => cases h
  | cons q ps ih =>
    rw [pushTerms]
    cases k with
    | zero =>
      obtain rfl : q = p := by simpa using h
      split_ifs with hnull
      · exact ⟨_, rfl, rfl, rfl, fun h' => absurd hnull (by simp [h'])⟩
      · exact ⟨_, rfl, rfl, rfl, fun _ => Int.natCast_nonneg n⟩
    | succ k =>
      have h' : ps[k]? = some p := by simpa using h
      split_ifs
      all_goals exact ih h'

theorem pushTerms_length (n : Nat) (ps : List Pushed) : (pushTerms n ps).length = ps.length := by
  induction ps generalizing n with
  | nil => rfl
  | cons p ps ih =>
    rw [pushTerms]
    split_ifs <;> simp [ih]

variable {t : VmsPlanTerm}

theorem pushTerms_pushed (h : (pushTerms n ps)[k]? = some t) : ∃ p, ps[k]? = some p := by
  have hlt := (List.getElem?_eq_some_iff.mp h).1
  rw [pushTerms_length] at hlt
  exact ⟨_, getElem?_eq_getElem hlt⟩

/-- Every term is that of a constraint pushed. -/
theorem mem_pushTerms (h : t ∈ pushTerms n ps) :
    ∃ (k : Nat) (p : Pushed), ps[k]? = some p ∧ (pushTerms n ps)[k]? = some t ∧ t.col = p.col ∧ t.op = p.op := by
  obtain ⟨k, hk⟩ := mem_iff_getElem?.mp h
  obtain ⟨p, hp⟩ := pushTerms_pushed hk
  obtain ⟨t', ht', hcol, hop, _⟩ := pushTerms_getElem? (n := n) hp
  obtain rfl := some.inj (hk.symm.trans ht')
  exact ⟨k, p, hp, hk, hcol, hop⟩

theorem compiled_terms : (vmsPlanCompile cols info).plan.terms = pushTerms 0 (pushed cols info) := by
  show (compileTerms cols info).terms = _
  rw [compileTerms_eq, pushAll_terms]
  rfl

/-! ## Each constraint is pushed once -/

theorem qualifying_index {push : IndexConstraint → Nat → Option Pushed}
    (hpush : ∀ c i p, push c i = some p → p.index = i) (cs : List (IndexConstraint × Nat)) :
    ((qualifying push cs).map Pushed.index).Sublist (cs.map Prod.snd) := by
  induction cs with
  | nil => simp [qualifying]
  | cons c cs ih =>
    rw [qualifying, filterMap_cons]
    cases hp : push c.1 c.2 with
    | none => exact ih.cons _
    | some p =>
      simp only [map_cons, hpush _ _ _ hp]
      exact ih.cons_cons _

theorem zipIdx_snd_nodup {β : Type} (l : List β) : (l.zipIdx.map Prod.snd).Nodup := by
  rw [zipIdx_map_snd]
  exact nodup_range'

/-- **No constraint is pushed twice**: within a loop the indices increase, and the two loops take
    different operators. -/
theorem pushed_index_nodup : ((pushed cols info).map Pushed.index).Nodup := by
  have hsub : ∀ (push : IndexConstraint → Nat → Option Pushed) (n : Nat), (∀ c i p, push c i = some p → p.index = i) →
      (((qualifying push info.aConstraint.zipIdx).take n).map Pushed.index).Nodup := by
    intro push n hpush
    exact (((take_sublist ..).map _).trans (qualifying_index hpush _)).nodup (zipIdx_snd_nodup _)
  rw [pushed, map_append, nodup_append]
  refine ⟨hsub _ _ fun c i p h => (pushCompare_some cols h).1, hsub _ _ fun c i p h => (pushIn_some cols info h).1, ?_⟩
  rintro i hi j hj rfl
  obtain ⟨p, hp, rfl⟩ := mem_map.mp hi
  obtain ⟨q, hq, hpq⟩ := mem_map.mp hj
  obtain ⟨⟨c, i⟩, hc, hpushC⟩ := mem_filterMap.mp (mem_of_mem_take hp)
  obtain ⟨⟨d, j⟩, hd, hpushD⟩ := mem_filterMap.mp (mem_of_mem_take hq)
  obtain ⟨hpi, _, _, _, hopC, _⟩ := pushCompare_some cols hpushC
  obtain ⟨hqj, _, _, _, hopD, _⟩ := pushIn_some cols info hpushD
  have hcd : some c = some d := by
    rw [← mem_zipIdx_iff_getElem?.mp hc, ← mem_zipIdx_iff_getElem?.mp hd]
    simp only at hpi hqj ⊢
    rw [← hpi, ← hqj, hpq]
  rw [some.inj hcd, hopD] at hopC
  simp [compareOp] at hopC

/-! ## The usage of the terms -/

theorem pushAll_usage_length (ps : List Pushed) (st : CompileState) :
    (pushAll st ps).usage.length = st.usage.length := by
  induction ps generalizing st with
  | nil => rfl
  | cons p ps ih =>
    rw [pushAll, foldl_cons, ← pushAll, ih]
    simp [CompileState.push]

theorem push_usage (st : CompileState) (p : Pushed) : (st.push p).usage =
    st.usage.set p.index ⟨((if p.op.isNullTest then (-1 : Int) else st.nargs) + 1).toNat, true⟩ := rfl

/-- Constraints that are not pushed keep their usage. -/
theorem pushAll_usage_other {st : CompileState} (hi : i ∉ ps.map Pushed.index) :
    (pushAll st ps).usage[i]? = st.usage[i]? := by
  induction ps generalizing st with
  | nil => rfl
  | cons p ps ih =>
    rw [map_cons, mem_cons, not_or] at hi
    rw [pushAll, foldl_cons, ← pushAll, ih hi.2, push_usage, getElem?_set_ne (Ne.symm hi.1)]

/-- **The usage of a constraint pushed names the argument of its term**, and omits it. -/
theorem pushAll_usage {st : CompileState} (hnodup : (ps.map Pushed.index).Nodup)
    (hrange : ∀ p ∈ ps, p.index < st.usage.length) (hp : ps[k]? = some p)
    (ht : (pushTerms st.nargs ps)[k]? = some t) :
    (pushAll st ps).usage[p.index]? = some ⟨(t.argIndex + 1).toNat, true⟩ := by
  induction ps generalizing st k with
  | nil => cases hp
  | cons q ps ih =>
    rw [map_cons, nodup_cons] at hnodup
    rw [pushAll, foldl_cons, ← pushAll]
    cases k with
    | zero =>
      obtain rfl : q = p := by simpa using hp
      rw [pushAll_usage_other hnodup.1, push_usage, getElem?_set_self (hrange q mem_cons_self)]
      rw [pushTerms] at ht
      split_ifs at ht ⊢ <;> rw [← some.inj ht]
    | succ k =>
      refine ih hnodup.2 (fun r hr => ?_) (by simpa using hp) ?_
      · rw [push_usage, length_set]
        exact hrange r (mem_cons_of_mem _ hr)
      · rw [pushTerms] at ht
        cases hq : q.op.isNullTest <;> simpa [hq, CompileState.push] using ht

theorem pushed_index_lt (hp : p ∈ pushed cols info) : p.index < info.aConstraint.length := by
  obtain ⟨c, hc, _⟩ := mem_pushed cols info hp
  exact (List.getElem?_eq_some_iff.mp hc).1

/-- The usage after the first two loops: of a constraint pushed, and of any other. -/
theorem compileTerms_usage (hp : (pushed cols info)[k]? = some p)
    (ht : (vmsPlanCompile cols info).plan.terms[k]? = some t) :
    (compileTerms cols info).usage[p.index]? = some ⟨(t.argIndex + 1).toNat, true⟩ := by
  rw [compiled_terms] at ht
  rw [compileTerms_eq]
  refine pushAll_usage (pushed_index_nodup cols info) (fun q hq => ?_) hp ht
  rw [length_map]
  exact pushed_index_lt cols info hq

theorem compileTerms_usage_other (hi : i ∉ (pushed cols info).map Pushed.index)
    (hlt : i < info.aConstraint.length) : (compileTerms cols info).usage[i]? = some {} := by
  rw [compileTerms_eq, pushAll_usage_other hi]
  simp [hlt]

theorem compileTerms_usage_length : (compileTerms cols info).usage.length = info.aConstraint.length := by
  rw [compileTerms_eq, pushAll_usage_length, length_map]

/-! ## LIMIT and OFFSET -/

/-- The state after a LIMIT or an OFFSET at index `i` was consumed. -/
def TailState.consume (st : TailState) (i : Nat) : TailState :=
  { st with nargs := st.nargs + 1, usage := st.usage.set i ⟨st.nargs + 1, true⟩ }

/-- **What a round of the third loop can do.** -/
theorem tailStep_cases (st : TailState) (c : IndexConstraint) (i : Nat) : tailStep st (c, i) = st ∨
      (c.op = .limit ∧ st.limitArg = none ∧ tailStep st (c, i) = { st.consume i with limitArg := some st.nargs }) ∨
      (c.op = .offset ∧ st.limitArg ≠ none ∧
        tailStep st (c, i) = { st.consume i with offsetArg := some st.nargs }) := by
  simp only [tailStep]
  split_ifs with hu hcol hlimit hoffset
  · exact .inl rfl
  · exact .inl rfl
  · exact .inr (.inl ⟨hlimit.1, hlimit.2, rfl⟩)
  · exact .inr (.inr ⟨hoffset.1, hoffset.2, rfl⟩)
  · exact .inl rfl

/-- The argument is that of a constraint of this kind, and its usage names it. -/
def Named (cs : List IndexConstraint) (op : ConstraintOp) (usage : List ConstraintUsage) (arg : Option Nat) : Prop :=
  ∀ l, arg = some l → ∃ (i : Nat) (c : IndexConstraint), cs[i]? = some c ∧ c.op = op ∧ usage[i]? = some ⟨l + 1, true⟩

/-- **What the loop keeps**, behind these constraints: only a LIMIT or a consumed OFFSET has lost its usage, and the
    LIMIT and the OFFSET of the plan are the ones whose usage names their arguments. -/
structure TailInv (usage : List ConstraintUsage) (cs : List IndexConstraint) (st : TailState) : Prop where
  length : st.usage.length = usage.length
  kept : ∀ i : Nat, (∀ c : IndexConstraint, cs[i]? = some c → c.op ≠ .limit ∧ (c.op = .offset → st.offsetArg = none)) →
    st.usage[i]? = usage[i]?
  limit : Named cs .limit st.usage st.limitArg
  offset : Named cs .offset st.usage st.offsetArg
  needs : st.offsetArg ≠ none → st.limitArg ≠ none

section Tail
variable {cs : List IndexConstraint} {usage usage' : List ConstraintUsage} {st : TailState}

theorem getElem?_init {d : IndexConstraint} (h : cs[i]? = some d) (c : IndexConstraint) :
    (cs ++ [c])[i]? = some d := by
  rw [getElem?_append_left (List.getElem?_eq_some_iff.mp h).1, h]

theorem Named.append {op : ConstraintOp} {arg : Option Nat} (h : Named cs op usage arg)
    (hsame : ∀ i < cs.length, usage'[i]? = usage[i]?) (c : IndexConstraint) : Named (cs ++ [c]) op usage' arg := by
  intro l hl
  obtain ⟨i, d, hi, hop, hu⟩ := h l hl
  exact ⟨i, d, getElem?_init hi c, hop, (hsame i (List.getElem?_eq_some_iff.mp hi).1).trans hu⟩

/-- One more round. -/
theorem TailInv.step (h : TailInv usage cs st) (hlt : cs.length < usage.length) (c : IndexConstraint) :
    TailInv usage (cs ++ [c]) (tailStep st (c, cs.length)) := by
  have hlast : (cs ++ [c])[cs.length]? = some c := getElem?_concat_length
  have hset : ∀ u, ∀ i < cs.length, (st.usage.set cs.length u)[i]? = st.usage[i]? :=
    fun u i hi => getElem?_set_ne (by omega)
  -- the usage that is consumed names the argument
  have hself : ∀ l, some st.nargs = some l →
      (st.usage.set cs.length ⟨st.nargs + 1, true⟩)[cs.length]? = some ⟨l + 1, true⟩ := by
    intro l hl
    rw [getElem?_set_self (by rw [h.length]; exact hlt), some.inj hl]
  rcases tailStep_cases st c cs.length with hs | ⟨hop, _, hs⟩ | ⟨hop, hsome, hs⟩ <;> rw [hs]
  · exact ⟨h.length, fun i hi => h.kept i fun d hd => hi d (getElem?_init hd c), h.limit.append (fun _ _ => rfl) c,
      h.offset.append (fun _ _ => rfl) c, h.needs⟩
  · refine ⟨length_set.trans h.length, fun i hi => ?_, fun l hl => ⟨_, c, hlast, hop, hself l hl⟩,
      h.offset.append (hset _) c, fun _ => by simp⟩
    have hne : cs.length ≠ i := by
      rintro rfl
      exact (hi c hlast).1 hop
    exact (getElem?_set_ne hne).trans (h.kept i fun d hd => hi d (getElem?_init hd c))
  · refine ⟨length_set.trans h.length, fun i hi => ?_, h.limit.append (hset _) c,
      fun l hl => ⟨_, c, hlast, hop, hself l hl⟩, fun _ => hsome⟩
    have hno : ∀ d, (cs ++ [c])[i]? = some d → d.op ≠ .limit ∧ d.op ≠ .offset :=
      fun d hd => ⟨(hi d hd).1, fun ho => absurd ((hi d hd).2 ho) (by simp)⟩
    have hne : cs.length ≠ i := by
      rintro rfl
      exact (hno c hlast).2 hop
    refine (getElem?_set_ne hne).trans (h.kept i fun d hd => ?_)
    exact (hno d (getElem?_init hd c)).imp_right fun h ho => absurd ho h

/-- **The third loop**, one constraint after the other. -/
theorem foldl_tailStep_inv (n : Nat) : ∀ cs : List IndexConstraint, cs.length ≤ usage.length →
    TailInv usage cs (cs.zipIdx.foldl tailStep { nargs := n, usage }) := by
  intro cs
  induction cs using List.reverseRecOn with
  | nil => exact fun _ => ⟨rfl, fun _ _ => rfl, by simp [Named], by simp [Named], by simp⟩
  | append_singleton cs c ih =>
    intro hlen
    rw [length_append, length_singleton] at hlen
    rw [zipIdx_append, foldl_append]
    simpa using (ih (by omega)).step (by omega) c

end Tail

/-! ## The usage SQLite gets -/

theorem compileTail_inv : TailInv (compileTerms cols info).usage info.aConstraint (compileTail cols info) :=
  foldl_tailStep_inv _ _ (compileTerms_usage_length cols info).ge

theorem pushed_rowOp (hp : p ∈ pushed cols info) (hc : info.aConstraint[p.index]? = some c) :
    c.op ≠ .limit ∧ c.op ≠ .offset := by
  obtain ⟨d, hd, _, _, _, hop⟩ := mem_pushed cols info hp
  obtain rfl : c = d := some.inj (hc.symm.trans hd)
  rcases hop with ⟨hop, _⟩ | ⟨hop, _⟩
  · constructor <;> intro h <;> rw [h] at hop <;> simp [compareOp] at hop
  · constructor <;> intro h <;> rw [h] at hop <;> cases hop

/-- **A constraint pushed**: omitted, and its argument is its term's. -/
theorem usage_pushed (hp : (pushed cols info)[k]? = some p)
    (ht : (vmsPlanCompile cols info).plan.terms[k]? = some t) :
    (vmsPlanCompile cols info).usage[p.index]? = some ⟨(t.argIndex + 1).toNat, true⟩ := by
  have hrow := fun d hd => @pushed_rowOp cols info p d (mem_of_getElem? hp) hd
  refine ((compileTail_inv cols info).kept p.index fun d hd => ?_).trans (compileTerms_usage cols info hp ht)
  exact (hrow d hd).imp_right fun h ho => absurd ho h

/-- Any other constraint is left to SQLite, unless it is a LIMIT or an OFFSET that was consumed. -/
theorem usage_other (hc : info.aConstraint[i]? = some c) (hl : c.op ≠ .limit)
    (ho : c.op = .offset → (compileTail cols info).offsetArg = none) (hi : i ∉ (pushed cols info).map Pushed.index) :
    (vmsPlanCompile cols info).usage[i]? = some {} := by
  refine ((compileTail_inv cols info).kept i fun d hd => ?_).trans
    (compileTerms_usage_other cols info hi (List.getElem?_eq_some_iff.mp hc).1)
  obtain rfl : c = d := some.inj (hc.symm.trans hd)
  exact ⟨hl, ho⟩

/-- **The LIMIT of the plan** is a LIMIT of the query, and its argument is the one its usage names; so is the
    OFFSET. -/
theorem usage_named {op : ConstraintOp} {arg : Option Nat}
    (h : Named info.aConstraint op (compileTail cols info).usage arg) (hsome : arg.isSome = true) :
    ∃ (l : Nat) (i : Nat) (c : IndexConstraint), arg.elim (-1 : Int) (↑·) = l ∧ info.aConstraint[i]? = some c ∧
      c.op = op ∧ (vmsPlanCompile cols info).usage[i]? = some ⟨l + 1, true⟩ := by
  obtain ⟨l, hl⟩ := isSome_iff_exists.mp hsome
  obtain ⟨i, c, hc, hop, hu⟩ := h l hl
  exact ⟨l, i, c, by rw [hl]; rfl, hc, hop, hu⟩

theorem usage_limit (h : (vmsPlanCompile cols info).plan.hasLimit = true) :
    ∃ (l : Nat) (i : Nat) (c : IndexConstraint), (vmsPlanCompile cols info).plan.limitArg = l ∧
      info.aConstraint[i]? = some c ∧ c.op = .limit ∧ (vmsPlanCompile cols info).usage[i]? = some ⟨l + 1, true⟩ :=
  usage_named cols info (compileTail_inv cols info).limit h

theorem usage_offset (h : (vmsPlanCompile cols info).plan.hasOffset = true) :
    ∃ (o : Nat) (i : Nat) (c : IndexConstraint), (vmsPlanCompile cols info).plan.offsetArg = o ∧
      info.aConstraint[i]? = some c ∧ c.op = .offset ∧ (vmsPlanCompile cols info).usage[i]? = some ⟨o + 1, true⟩ :=
  usage_named cols info (compileTail_inv cols info).offset h

/-- An OFFSET is flagged only when the plan has one, and the plan has one only behind a LIMIT. -/
theorem usage_offset_none (h : (vmsPlanCompile cols info).plan.hasOffset = false)
    (hc : info.aConstraint[i]? = some c) (hop : c.op = .offset) : (vmsPlanCompile cols info).usage[i]? = some {} := by
  have hnone : (compileTail cols info).offsetArg = none := by
    simpa using (show (compileTail cols info).offsetArg.isSome = false from h)
  refine usage_other cols info hc (by simp [hop]) (fun _ => hnone) fun hmem => ?_
  obtain ⟨p, hp, rfl⟩ := mem_map.mp hmem
  exact (pushed_rowOp cols info hp hc).2 hop

theorem hasLimit_of_hasOffset (h : (vmsPlanCompile cols info).plan.hasOffset = true) :
    (vmsPlanCompile cols info).plan.hasLimit = true := by
  have hsome : (compileTail cols info).offsetArg ≠ none := by
    intro hnone
    have : (compileTail cols info).offsetArg.isSome = true := h
    rw [hnone] at this
    cases this
  exact isSome_iff_ne_none.mpr ((compileTail_inv cols info).needs hsome)

/-! ## ORDER BY -/

theorem orderLoop_all : ∀ (os : List IndexOrderBy) (acc : List (Int × Bool)), (orderLoop cols os acc).1 = true →
      (orderLoop cols os acc).2 = acc ++ os.map (fun o => (o.iColumn, o.desc)) ∧
      ∀ o ∈ os, 0 ≤ o.iColumn ∧ o.iColumn < cols.length ∧ colIsInt cols o.iColumn = true
  | [], acc, _ => by simp [orderLoop]
  | o :: os, acc, h => by
    rw [orderLoop] at h ⊢
    split_ifs at h ⊢ with hcol hfull
    obtain ⟨hacc, hall⟩ := orderLoop_all os _ h
    refine ⟨by rw [hacc]; simp, fun q hq => ?_⟩
    rcases mem_cons.mp hq with rfl | hq
    · simp only [not_or, Bool.not_eq_true, Bool.not_eq_false'] at hcol
      exact ⟨by omega, by omega, hcol.2.2⟩
    · exact hall q hq

/-- **ORDER BY is all or nothing**: consumed when every item is an integer column, and then it is the
    ORDER BY of the plan. -/
theorem compileOrder_cases : compileOrder cols info = [] ∨
      (compileOrder cols info = info.aOrderBy.map (fun o => (o.iColumn, o.desc)) ∧
        ∀ o ∈ info.aOrderBy, 0 ≤ o.iColumn ∧ o.iColumn < cols.length ∧ colIsInt cols o.iColumn = true) := by
  simp only [compileOrder]
  split_ifs with h
  · obtain ⟨hacc, hall⟩ := orderLoop_all cols info.aOrderBy [] h.1
    exact .inr ⟨by rw [hacc]; rfl, hall⟩
  · exact .inl rfl

/-! ## When LIMIT, OFFSET and ORDER BY are consumed -/

/-- A LIMIT the third loop takes, if it has none yet. -/
def takesLimit (c : IndexConstraint) : Bool := c.usable && c.iColumn == -1 && c.op == .limit

def takesOffset (c : IndexConstraint) : Bool := c.usable && c.iColumn == -1 && c.op == .offset

/-- Some LIMIT is usable and has no column. -/
def consumesLimit (cs : List IndexConstraint) : Bool := cs.any takesLimit

/-- Behind the first such LIMIT there is such an OFFSET. -/
def consumesOffset (cs : List IndexConstraint) : Bool :=
  (cs.dropWhile fun c => !takesLimit c).any takesOffset

/-- There is an ORDER BY, of 32 items at most, all of them integer columns. -/
def consumesOrder (cols : List VmsMetaColumn) (os : List IndexOrderBy) : Bool :=
  !os.isEmpty && decide (os.length ≤ vmsPlanMaxArgs) &&
    os.all fun o => decide (0 ≤ o.iColumn) && decide (o.iColumn < cols.length) && colIsInt cols o.iColumn

/-- One round, by what its constraint is. -/
theorem tailStep_flags (st : TailState) (c : IndexConstraint) (i : Nat) :
    (tailStep st (c, i)).limitArg.isSome = (st.limitArg.isSome || takesLimit c) ∧
      (tailStep st (c, i)).offsetArg.isSome = (st.offsetArg.isSome || (st.limitArg.isSome && takesOffset c)) := by
  rw [takesLimit, takesOffset]
  fun_cases tailStep st (c, i) <;> cases hlimit : st.limitArg <;> simp_all

theorem foldl_tailStep_flags (cs : List IndexConstraint) (k : Nat) (st : TailState) :
    ((cs.zipIdx k).foldl tailStep st).limitArg.isSome = (st.limitArg.isSome || consumesLimit cs) ∧
      ((cs.zipIdx k).foldl tailStep st).offsetArg.isSome = (st.offsetArg.isSome ||
        if st.limitArg.isSome then cs.any takesOffset else consumesOffset cs) := by
  induction cs generalizing k st with
  | nil => simp [consumesLimit, consumesOffset]
  | cons c cs ih =>
    obtain ⟨hl, ho⟩ := tailStep_flags st c k
    rw [zipIdx_cons, foldl_cons, (ih _ _).1, (ih _ _).2, hl, ho]
    constructor
    · simp [consumesLimit, Bool.or_assoc]
    · have hboth : takesLimit c = true → takesOffset c = false := by
        simp only [takesLimit, takesOffset, Bool.and_eq_true, beq_iff_eq]
        rintro ⟨_, hop⟩
        simp [hop]
      cases hs : st.limitArg.isSome with
      | true => simp [Bool.or_assoc]
      | false =>
        cases ht : takesLimit c with
        | true => simp [consumesOffset, ht, hboth ht]
        | false => simp [consumesOffset, ht]

theorem hasLimit_eq : (vmsPlanCompile cols info).plan.hasLimit = consumesLimit info.aConstraint := by
  exact (foldl_tailStep_flags info.aConstraint 0
    { nargs := (compileTerms cols info).nargs, usage := (compileTerms cols info).usage }).1

theorem hasOffset_eq : (vmsPlanCompile cols info).plan.hasOffset = consumesOffset info.aConstraint := by
  exact (foldl_tailStep_flags info.aConstraint 0
    { nargs := (compileTerms cols info).nargs, usage := (compileTerms cols info).usage }).2

/-- No OFFSET is consumed without a LIMIT. -/
theorem consumesOffset_false (cols : List VmsMetaColumn) {info : IndexInfo}
    (h : consumesLimit info.aConstraint = false) :
    consumesOffset info.aConstraint = false := by
  rw [← hasOffset_eq cols info, Bool.eq_false_iff]
  intro hoffset
  have hlimit := hasLimit_of_hasOffset cols info hoffset
  rw [hasLimit_eq, h] at hlimit
  cases hlimit

theorem orderLoop_fst : ∀ (os : List IndexOrderBy) (acc : List (Int × Bool)), acc.length ≤ vmsPlanMaxArgs →
      (orderLoop cols os acc).1 = (decide (acc.length + os.length ≤ vmsPlanMaxArgs) &&
        os.all fun o => decide (0 ≤ o.iColumn) && decide (o.iColumn < cols.length) && colIsInt cols o.iColumn)
  | [], acc, h => by simp [orderLoop, h]
  | o :: os, acc, h => by
    have hgood : (decide (0 ≤ o.iColumn) && decide (o.iColumn < cols.length) && colIsInt cols o.iColumn) = true ↔
        ¬ (o.iColumn < 0 ∨ cols.length ≤ o.iColumn ∨ !colIsInt cols o.iColumn) := by
      simp [and_assoc]
    rw [orderLoop]
    split_ifs with hcol hfull
    · rw [all_cons, Bool.eq_false_iff.mpr fun hok => hgood.mp hok hcol]
      simp
    · have hno : ¬ acc.length + (o :: os).length ≤ vmsPlanMaxArgs := by
        rw [length_cons]; omega
      rw [decide_eq_false hno, Bool.false_and]
    · rw [orderLoop_fst os _ (by rw [length_append, length_singleton]; omega),
        all_cons, hgood.mpr hcol, Bool.true_and, length_append, length_singleton,
        length_cons, Nat.add_assoc, Nat.add_comm 1]

/-- **When an ORDER BY is consumed.** -/
theorem compileOrder_isEmpty : (compileOrder cols info).isEmpty = !consumesOrder cols info.aOrderBy := by
  have hfst := orderLoop_fst cols info.aOrderBy [] (by simp)
  simp only [length_nil, Nat.zero_add] at hfst
  simp only [compileOrder, consumesOrder]
  cases hok : (orderLoop cols info.aOrderBy []).1 with
  | true =>
    obtain ⟨hacc, _⟩ := orderLoop_all cols info.aOrderBy [] hok
    rw [hok] at hfst
    rw [Bool.and_assoc, ← hfst, hacc]
    cases info.aOrderBy with
    | nil | cons o os => simp
  | false =>
    rw [hok] at hfst
    rw [Bool.and_assoc, ← hfst]
    simp

end VirtualMssql.Plan
