/-
  PROJECTION — the columns SQLite may read, and the columns of the result.

  xBestIndex squeezes what SQLite says it uses, what the constraints and the ORDER BY name and, in rw mode,
  the key into a mask of 32 bits; xFilter derives `col_map` from the mask, and a column without an entry
  reads as NULL.  A bit stands for all columns with the same number modulo 32 below 62, the masks 0 and
  0xFFFFFFFF for all columns, and a column from 62 on has no bit at all.

  `mapped_iff`: a column is mapped, to its own place in the result, exactly when it passes the test of the
  loop.  `testBit_bestIndex`: which columns set a bit.  Together they say when every column that will be
  read is there (`reads_covered_iff`); column 62 alone, or a key column behind it, is lost.

  The columns that are there are not shifted: the select list is built from the same mask in the same order
  (`projection_aligned`).
-/
import VirtualMssql.Pushdown

namespace VirtualMssql.Projection

open TSql Plan VirtualMssql.Filter List

/-! ## `col_map` -/

/-- The test of the loop: is the column in the result? -/
def projects (mask vcol : Nat) : Bool :=
  if mask ≠ 0 ∧ mask ≠ 0xFFFFFFFF then vcol < 62 && (mask &&& bit32 vcol) != 0 else true

/-- The loop, `proj` columns of the result being assigned. -/
def colMapFrom (mask : Nat) : List Nat → Nat → List (Option Nat)
  | [], _ => []
  | vcol :: vcols, proj =>
    if projects mask vcol then some proj :: colMapFrom mask vcols (proj + 1)
    else none :: colMapFrom mask vcols proj

def maxColMap : Nat := 512

/-- `col_map`, as xFilter fills it; -1 is none. -/
def colMap (mask ncols : Nat) : List (Option Nat) := colMapFrom mask (range (min ncols maxColMap)) 0

/-- The columns of the result, by their number in the table. -/
def selectList (mask ncols : Nat) : List Nat := (range ncols).filter (projects mask)

/-- **They are the select list of the statement.** -/
theorem planProjection_selectList (cols : List VmsMetaColumn) (wkt : Bool) (mask : Nat)
    (h : selectList mask cols.length ≠ []) : (planProjection cols wkt mask).map some =
      (selectList mask cols.length).map fun j => (cols[j]?).map (projOf wkt) := by
  have hzip : ∀ p : Nat → Bool, ((cols.zipIdx.filter fun c => p c.2).map fun c => some (projOf wkt c.1)) =
      ((range cols.length).filter p).map fun j => (cols[j]?).map (projOf wkt) := by
    intro p
    have hidx : (cols.zipIdx.filter fun c => p c.2).map Prod.snd = (range cols.length).filter p := by
      rw [range_eq_range', ← zipIdx_map_snd 0 cols, filter_map]
      rfl
    rw [← hidx, map_map]
    apply map_congr_left
    intro c hc
    have hget := mem_zipIdx_iff_getElem?.mp (mem_filter.mp hc).1
    simp [hget]
  by_cases hall : mask = 0 ∨ mask = 0xFFFFFFFF
  · have htrue : projects mask = fun _ => true := by
      funext j
      rw [projects, if_neg (by tauto)]
    have hcols := hzip fun _ => true
    rw [selectList, htrue, ← hcols, planProjection, if_pos hall, map_map, filter_eq_self.mpr (by simp)]
    conv_lhs => rw [← zipIdx_map_fst 0 cols, map_map]
    rfl
  · have hbit : projects mask = fun j => j < 62 && (mask &&& bit32 j) != 0 := by
      funext j
      rw [projects, if_pos (by tauto)]
    have hcols := hzip fun j => j < 62 && (mask &&& bit32 j) != 0
    rw [selectList, hbit] at h ⊢
    have hne : projected cols mask ≠ [] := fun hnil => by
      have hempty := map_eq_nil_iff.mp hnil
      rw [hempty, map_nil] at hcols
      exact h (map_eq_nil_iff.mp hcols.symm)
    rw [← hcols, planProjection, if_neg hall, if_neg hne, projected, map_map, map_map]
    rfl

/-- **The loop**: a column of the result is mapped to its place there, another one is not mapped. -/
theorem colMapFrom_get (mask : Nat) : ∀ (l : List Nat) (proj i v : Nat), l[i]? = some v →
    (projects mask v = true → ∃ pos, (colMapFrom mask l proj)[i]? = some (some (proj + pos)) ∧
      (l.filter (projects mask))[pos]? = some v) ∧
    (projects mask v = false → (colMapFrom mask l proj)[i]? = some none)
  | [], _, _, _, h => by simp at h
  | x :: l, proj, 0, v, h => by
    obtain rfl : x = v := by simpa using h
    refine ⟨fun hv => ⟨0, ?_, ?_⟩, fun hv => ?_⟩
    · rw [colMapFrom, if_pos hv]
      rfl
    · rw [filter_cons, if_pos hv]
      rfl
    · rw [colMapFrom, if_neg (by rw [hv]; simp)]
      rfl
  | x :: l, proj, i + 1, v, h => by
    have hl : l[i]? = some v := by simpa using h
    by_cases hx : projects mask x = true
    · obtain ⟨hin, hout⟩ := colMapFrom_get mask l (proj + 1) i v hl
      rw [colMapFrom, if_pos hx, filter_cons, if_pos hx, getElem?_cons_succ]
      refine ⟨fun hv => ?_, hout⟩
      obtain ⟨pos, hmap, hsel⟩ := hin hv
      exact ⟨pos + 1, by rw [hmap]; congr 2; omega, by rwa [getElem?_cons_succ]⟩
    · obtain ⟨hin, hout⟩ := colMapFrom_get mask l proj i v hl
      rw [colMapFrom, if_neg hx, filter_cons, if_neg hx, getElem?_cons_succ]
      exact ⟨hin, hout⟩

theorem length_colMapFrom (mask : Nat) : ∀ (l : List Nat) (proj : Nat), (colMapFrom mask l proj).length = l.length
  | [], _ => rfl
  | x :: l, proj => by
    rw [colMapFrom]
    split_ifs <;> rw [length_cons, length_cons, length_colMapFrom]

/-- The column is mapped, to its own place in the result. -/
def Mapped (mask ncols j : Nat) : Prop :=
  ∃ pos, (colMap mask ncols)[j]? = some (some pos) ∧ (selectList mask ncols)[pos]? = some j

variable {mask ncols : Nat}

theorem mapped_iff {j : Nat} (hn : ncols ≤ maxColMap) (hj : j < ncols) :
    Mapped mask ncols j ↔ projects mask j = true := by
  have hget := colMapFrom_get mask (range ncols) 0 j j (by simp [hj])
  have hmap : colMap mask ncols = colMapFrom mask (range ncols) 0 := by rw [colMap, Nat.min_eq_left hn]
  constructor
  · rintro ⟨pos, hpos, _⟩
    by_contra hnot
    rw [hmap, hget.2 (by simpa using hnot)] at hpos
    simp at hpos
  · intro hp
    obtain ⟨pos, hpos, hsel⟩ := hget.1 hp
    exact ⟨pos, by rw [hmap, hpos, Nat.zero_add], hsel⟩

/-! ## `vms_vtab_column` -/

section Column

variable {V : Type}

/-- What the server returns of a row; NULL is none. -/
def fetched (mask ncols : Nat) (row : Nat → Option V) : List (Option V) := (selectList mask ncols).map row

/-- `vms_vtab_column` of a table source, on a row. -/
def vmsVtabColumn (mask ncols : Nat) (values : List (Option V)) (col : Nat) : Option V :=
  match (colMap mask ncols)[col]? with
  | some (some pos) => (values[pos]?).join
  | _ => none

/-- **A mapped column reads as what is stored.** -/
theorem column_of_mapped {j : Nat} (h : Mapped mask ncols j) (row : Nat → Option V) :
    vmsVtabColumn mask ncols (fetched mask ncols row) j = row j := by
  obtain ⟨pos, hmap, hsel⟩ := h
  rw [vmsVtabColumn, hmap, fetched]
  simp [hsel]

end Column

/-! ## The mask -/

/-- A bit of a mask that a loop puts together. -/
theorem testBit_foldl {α : Type} {f : Nat → α → Nat} {b : Nat} {P : α → Prop}
    (hf : ∀ m x, (f m x).testBit b = true ↔ m.testBit b = true ∨ P x) : ∀ (l : List α) (m : Nat),
    (l.foldl f m).testBit b = true ↔ m.testBit b = true ∨ ∃ x ∈ l, P x
  | [], m => by simp
  | x :: l, m => by
    rw [foldl_cons, testBit_foldl hf l, hf]
    simp [or_assoc]

theorem testBit_foldl_or {α : Type} (f : α → Nat) (b : Nat) (l : List α) (m : Nat) :
    (l.foldl (fun m x => m ||| f x) m).testBit b = true ↔ m.testBit b = true ∨ ∃ x ∈ l, (f x).testBit b = true :=
  testBit_foldl (fun m x => by rw [Nat.testBit_or, Bool.or_eq_true]) l m

/-- The mask of all columns. -/
theorem eq_all_iff (hlow : ∀ b, mask.testBit b = true → b < 32) :
    mask = 0xFFFFFFFF ↔ ∀ b < 32, mask.testBit b = true := by
  have hall : ∀ b, (0xFFFFFFFF : Nat).testBit b = decide (b < 32) := Nat.testBit_two_pow_sub_one 32
  constructor
  · rintro rfl b hb
    rw [hall, decide_eq_true hb]
  · intro h
    apply Nat.eq_of_testBit_eq
    intro b
    rw [hall]
    by_cases hb : b < 32
    · rw [h b hb, decide_eq_true hb]
    · rw [decide_eq_false hb]
      exact Bool.eq_false_iff.mpr fun ht => hb (hlow b ht)

theorem testBit_bit32 (i b : Nat) : (bit32 i).testBit b = true ↔ i % 32 = b := by
  rw [bit32, Nat.testBit_two_pow, decide_eq_true_iff]

theorem and_bit32 (mask i : Nat) : (mask &&& bit32 i) != 0 ↔ mask.testBit (i % 32) = true := by
  rw [bit32, Nat.and_two_pow]
  cases mask.testBit (i % 32) <;> simp

theorem projects_iff (mask j : Nat) :
    projects mask j = true ↔ mask = 0 ∨ mask = 0xFFFFFFFF ∨ (j < 62 ∧ mask.testBit (j % 32) = true) := by
  rw [projects]
  split_ifs with h
  · rw [Bool.and_eq_true, decide_eq_true_iff, and_bit32]
    tauto
  · exact iff_of_true rfl (by tauto)

section BestIndex

variable (tab : VmsVtab) (key : Option VmsStableKey) (info : IndexInfo)

/-- The column is named like a part of the key. -/
def KeyColumn (cols : List VmsMetaColumn) (k : VmsStableKey) (j : Nat) : Prop :=
  ∃ c, cols[j]? = some c ∧ ∃ p ∈ k.parts, stricmp c.name p.name = true

/-- The key columns of a table in rw mode, once its key was found. -/
def Keyed (j : Nat) : Prop := tab.rwMode = true ∧ ∃ k, key = some k ∧ KeyColumn tab.cols k j

/-- The columns that SQLite names: as used, in a constraint or in the ORDER BY. -/
def Named (i : Nat) : Prop :=
  (i < tab.cols.length ∧ info.colUsed.testBit i = true) ∨
    (∃ c ∈ info.aConstraint, c.iColumn = i) ∨ ∃ o ∈ info.aOrderBy, o.iColumn = i

/-- **The columns that set a bit.** -/
def Marked (i : Nat) : Prop := i < 62 ∧ (Named tab info i ∨ Keyed tab key i)

theorem testBit_columnBit (col : Int) (b : Nat) :
    (columnBit col).testBit b = true ↔ ∃ i : Nat, i < 62 ∧ col = i ∧ i % 32 = b := by
  rw [columnBit]
  split_ifs with h
  · rw [testBit_bit32]
    constructor
    · intro hb
      exact ⟨col.toNat, by omega, by omega, hb⟩
    · rintro ⟨i, _, rfl, hb⟩
      exact hb
  · rw [Nat.zero_testBit]
    refine iff_of_false (by simp) ?_
    rintro ⟨i, hi, rfl, _⟩
    exact h ⟨by omega, by omega⟩

theorem testBit_keyMask (cols : List VmsMetaColumn) (k : VmsStableKey) (b : Nat) :
    (keyMask cols k).testBit b = true ↔ ∃ i, i < 62 ∧ KeyColumn cols k i ∧ i % 32 = b := by
  have hcol : ∀ (p : VmsKeyColumn) (m : Nat) (c : VmsMetaColumn × Nat),
      (if stricmp c.1.name p.name && c.2 < 62 then m ||| bit32 c.2 else m).testBit b = true ↔
        m.testBit b = true ∨ (stricmp c.1.name p.name = true ∧ c.2 < 62 ∧ c.2 % 32 = b) := by
    intro p m c
    split_ifs with h
    · rw [Bool.and_eq_true, decide_eq_true_iff] at h
      rw [Nat.testBit_or, Bool.or_eq_true, testBit_bit32]
      simp [h.1, h.2]
    · rw [Bool.and_eq_true, decide_eq_true_iff] at h
      exact ⟨.inl, fun hm => hm.resolve_right fun hc => h ⟨hc.1, hc.2.1⟩⟩
  rw [keyMask, testBit_foldl fun m p => testBit_foldl (hcol p) cols.zipIdx m]
  simp only [Nat.zero_testBit, Bool.false_eq_true, false_or]
  constructor
  · rintro ⟨p, hp, ⟨c, i⟩, hc, hname, hi, hb⟩
    exact ⟨i, hi, ⟨c, mem_zipIdx_iff_getElem?.mp hc, p, hp, hname⟩, hb⟩
  · rintro ⟨i, hi, ⟨c, hc, p, hp, hname⟩, hb⟩
    exact ⟨p, hp, (c, i), mem_zipIdx_iff_getElem?.mpr hc, hname, hi, hb⟩

theorem testBit_usedMask (h63 : info.colUsed.testBit 63 = false) (b : Nat) :
    (usedMask tab.cols info).testBit b = true ↔ ∃ i, i < 62 ∧ Named tab info i ∧ i % 32 = b := by
  rw [usedMask, if_neg (by rw [h63]; simp)]
  simp only [testBit_foldl_or, Nat.zero_testBit, Bool.false_eq_true, false_or, testBit_bit32, testBit_columnBit,
    mem_filter, mem_range, Nat.lt_min]
  constructor
  · rintro ((⟨i, ⟨⟨hn, hi⟩, hused⟩, hb⟩ | ⟨c, hc, i, hi, hcol, hb⟩) | ⟨o, ho, i, hi, hcol, hb⟩)
    · exact ⟨i, hi, .inl ⟨hn, hused⟩, hb⟩
    · exact ⟨i, hi, .inr (.inl ⟨c, hc, hcol⟩), hb⟩
    · exact ⟨i, hi, .inr (.inr ⟨o, ho, hcol⟩), hb⟩
  · rintro ⟨i, hi, ⟨hn, hused⟩ | ⟨c, hc, hcol⟩ | ⟨o, ho, hcol⟩, hb⟩
    · exact .inl (.inl ⟨i, ⟨⟨hn, hi⟩, hused⟩, hb⟩)
    · exact .inl (.inr ⟨c, hc, i, hi, hcol, hb⟩)
    · exact .inr ⟨o, ho, i, hi, hcol, hb⟩

theorem testBit_keyBits (b : Nat) : (if tab.rwMode then key.elim 0 (keyMask tab.cols) else 0).testBit b = true ↔
      ∃ i, i < 62 ∧ Keyed tab key i ∧ i % 32 = b := by
  cases hrw : tab.rwMode with
  | false => simp [Keyed, hrw]
  | true =>
    cases key with
    | none => simp [Keyed]
    | some k => simp [Keyed, hrw, testBit_keyMask]

theorem bestIndexPlan_usedMask : (bestIndexPlan tab key info).usedMask =
    usedMask tab.cols info ||| if tab.rwMode then key.elim 0 (keyMask tab.cols) else 0 := by
  unfold bestIndexPlan
  cases key with
  | none => simp [vmsPlanCompile]
  | some k =>
    simp only [Option.elim_some]
    split_ifs
    · rfl
    · rw [Nat.or_zero]
      rfl

/-- **The mask has a bit exactly for the columns that set it**, unless SQLite reads columns past 62. -/
theorem testBit_bestIndex (h63 : info.colUsed.testBit 63 = false) (b : Nat) :
    (bestIndexPlan tab key info).usedMask.testBit b = true ↔ ∃ i, Marked tab key info i ∧ i % 32 = b := by
  rw [bestIndexPlan_usedMask, Nat.testBit_or, Bool.or_eq_true, testBit_usedMask tab info h63, testBit_keyBits]
  constructor
  · rintro (⟨i, hi, hnamed, hb⟩ | ⟨i, hi, hkeyed, hb⟩)
    · exact ⟨i, ⟨hi, .inl hnamed⟩, hb⟩
    · exact ⟨i, ⟨hi, .inr hkeyed⟩, hb⟩
  · rintro ⟨i, ⟨hi, hnamed | hkeyed⟩, hb⟩
    · exact .inl ⟨i, hi, hnamed, hb⟩
    · exact .inr ⟨i, hi, hkeyed, hb⟩

theorem mask_zero_iff (h63 : info.colUsed.testBit 63 = false) :
    (bestIndexPlan tab key info).usedMask = 0 ↔ ∀ i, ¬ Marked tab key info i := by
  have hbit := testBit_bestIndex tab key info h63
  constructor
  · intro h0 i hi
    have hset := (hbit (i % 32)).mpr ⟨i, hi, rfl⟩
    rw [h0, Nat.zero_testBit] at hset
    cases hset
  · intro hnone
    refine Nat.zero_of_testBit_eq_false fun b => Bool.eq_false_iff.mpr fun hb => ?_
    obtain ⟨i, hi, _⟩ := (hbit b).mp hb
    exact hnone i hi

theorem mask_all_iff (h63 : info.colUsed.testBit 63 = false) :
    (bestIndexPlan tab key info).usedMask = 0xFFFFFFFF ↔ ∀ b < 32, ∃ i, Marked tab key info i ∧ i % 32 = b := by
  have hbit := testBit_bestIndex tab key info h63
  rw [eq_all_iff fun b hb => ?_]
  · exact forall_congr' fun b => forall_congr' fun _ => hbit b
  · obtain ⟨i, _, rfl⟩ := (hbit b).mp hb
    exact Nat.mod_lt i (by decide)

/-- When SQLite does, the mask is that of all columns. -/
theorem bestIndex_all (h63 : info.colUsed.testBit 63 = true) :
    (bestIndexPlan tab key info).usedMask = 0xFFFFFFFF := by
  have hall : ∀ b, (0xFFFFFFFF : Nat).testBit b = decide (b < 32) := Nat.testBit_two_pow_sub_one 32
  rw [bestIndexPlan_usedMask, usedMask, if_pos h63]
  refine (eq_all_iff fun b hb => ?_).mpr fun b hb => ?_
  · rw [Nat.testBit_or, Bool.or_eq_true, testBit_keyBits, hall, decide_eq_true_iff] at hb
    rcases hb with hb | ⟨i, _, _, rfl⟩
    · exact hb
    · exact Nat.mod_lt i (by decide)
  · rw [Nat.testBit_or, hall, decide_eq_true hb, Bool.true_or]

/-! ## Every column that is read -/

/-- SQLite's contract: bit `j` for column `j` up to 62, bit 63 for all others. -/
def Reads (j : Nat) : Prop := info.colUsed.testBit (min j 63) = true

/-- The columns that will be read: by SQLite, or as the key of the row. -/
def Required (j : Nat) : Prop := j < tab.cols.length ∧ (Reads info j ∨ Keyed tab key j)

/-- The mask of the plan that xFilter works with. -/
def scanMask : Nat := (received (bestIndexPlan tab key info)).usedMask

theorem scanMask_eq : scanMask tab key info =
    if valueArgs tab.cols info + tailArgs false info.aConstraint ≤ vmsPlanMaxArgs then
      (bestIndexPlan tab key info).usedMask else 0xFFFFFFFF := by
  rw [scanMask, received, Pushdown.bestIndexPlan_nargs]
  split_ifs with h₁ h₂ h₂
  · rfl
  · exact absurd (by exact_mod_cast h₁) h₂
  · exact absurd (by exact_mod_cast h₂) h₁
  · rfl

/-- **The columns of the result**: all of them when xFilter works without the plan, when SQLite reads a
    column past 62, and when the columns that set a bit are none or have every remainder modulo 32; else
    those below 62 that share a remainder with one that set a bit. -/
def InResult (j : Nat) : Prop :=
  vmsPlanMaxArgs < valueArgs tab.cols info + tailArgs false info.aConstraint ∨
    info.colUsed.testBit 63 = true ∨
    (∀ i, ¬ Marked tab key info i) ∨
    (∀ b < 32, ∃ i, Marked tab key info i ∧ i % 32 = b) ∨
    (j < 62 ∧ ∃ i, Marked tab key info i ∧ i % 32 = j % 32)

theorem projects_scanMask (j : Nat) : projects (scanMask tab key info) j = true ↔ InResult tab key info j := by
  rw [projects_iff, scanMask_eq]
  by_cases hargs : valueArgs tab.cols info + tailArgs false info.aConstraint ≤ vmsPlanMaxArgs
  swap
  · rw [if_neg hargs]
    exact iff_of_true (.inr (.inl rfl)) (.inl (by omega))
  rw [if_pos hargs]
  by_cases h63 : info.colUsed.testBit 63 = true
  · exact iff_of_true (.inr (.inl (bestIndex_all tab key info h63))) (.inr (.inl h63))
  rw [mask_zero_iff tab key info (by simpa using h63), mask_all_iff tab key info (by simpa using h63),
    testBit_bestIndex tab key info (by simpa using h63), InResult]
  simp only [h63, Bool.false_eq_true, false_or]
  constructor
  · exact .inr
  · exact fun h => h.resolve_left (by omega)

/-- **When every column that will be read is in the result**: xFilter works without the plan, SQLite reads
    a column past 62, all the columns that will be read are below 62, or the columns below 62 that set a
    bit are none at all or have every remainder modulo 32. -/
theorem reads_covered_iff (hn : tab.cols.length ≤ maxColMap) :
    (∀ j, Required tab key info j → Mapped (scanMask tab key info) tab.cols.length j) ↔
      vmsPlanMaxArgs < valueArgs tab.cols info + tailArgs false info.aConstraint ∨
      info.colUsed.testBit 63 = true ∨
      (∀ j, Required tab key info j → j < 62) ∨
      (∀ i, ¬ Marked tab key info i) ∨
      (∀ b < 32, ∃ i, Marked tab key info i ∧ i % 32 = b) := by
  have hmapped : (∀ j, Required tab key info j → Mapped (scanMask tab key info) tab.cols.length j) ↔
      ∀ j, Required tab key info j → InResult tab key info j :=
    forall_congr' fun j => forall_congr' fun hj => (mapped_iff hn hj.1).trans (projects_scanMask tab key info j)
  rw [hmapped]
  constructor
  · intro h
    by_cases hfew : ∀ j, Required tab key info j → j < 62
    · exact .inr (.inr (.inl hfew))
    · push Not at hfew
      obtain ⟨j, hj, h62⟩ := hfew
      rcases h j hj with h | h | h | h | ⟨hlt, _⟩
      · exact .inl h
      · exact .inr (.inl h)
      · exact .inr (.inr (.inr (.inl h)))
      · exact .inr (.inr (.inr (.inr h)))
      · omega
  · rintro (h | h | h | h | h) j hj
    · exact .inl h
    · exact .inr (.inl h)
    · -- below 62 a column that will be read has set its own bit
      have hmarked : Marked tab key info j := by
        refine ⟨h j hj, ?_⟩
        rcases hj with ⟨hlt, hreads | hkeyed⟩
        · rw [Reads, Nat.min_eq_left (by have := h j ⟨hlt, .inl hreads⟩; omega)] at hreads
          exact .inl (.inl ⟨hlt, hreads⟩)
        · exact .inr hkeyed
      exact .inr (.inr (.inr (.inr ⟨h j hj, j, hmarked, rfl⟩)))
    · exact .inr (.inr (.inl h))
    · exact .inr (.inr (.inr (.inl h)))

end BestIndex

/-- A table with the integer columns `c0`, `c1`, and so on. -/
def wideTab (n : Nat) : VmsVtab where
  schema := [115]
  table := [116]
  cols := (range n).map fun i => { name := 99 :: decimal i, typeName := wide "int", vtype := .int64 }

/-- A query that reads the first and the last of 62 columns. -/
theorem reads_covered_62 : (wideTab 62).cols.length ≤ maxColMap ∧
    ∀ j, Required (wideTab 62) none { aConstraint := [], colUsed := 1 ||| 2 ^ 61 } j →
      Mapped (scanMask (wideTab 62) none { aConstraint := [], colUsed := 1 ||| 2 ^ 61 }) 62 j := by
  have hlen : (wideTab 62).cols.length = 62 := by simp [wideTab]
  have hn : (wideTab 62).cols.length ≤ maxColMap := by rw [hlen]; decide
  have hcovered := (reads_covered_iff (wideTab 62) none { aConstraint := [], colUsed := 1 ||| 2 ^ 61 } hn).mpr
    (.inr (.inr (.inl fun j hj => hlen ▸ hj.1)))
  rw [hlen] at hcovered
  exact ⟨hn, hcovered⟩

/-- **Column 62 is lost**: SQLite reads the first and the last of 63 columns, and the last has no entry. -/
theorem column62_unmapped :
    Required (wideTab 63) none { aConstraint := [], colUsed := 1 ||| 2 ^ 62 } 62 ∧
      (colMap (scanMask (wideTab 63) none { aConstraint := [], colUsed := 1 ||| 2 ^ 62 }) 63)[62]? = some none := by
  refine ⟨⟨by simp [wideTab], .inl ?_⟩, by decide +kernel⟩
  rw [Reads]
  decide

/-! ## The select list and `col_map` -/

/-- The columns with an entry in `col_map`, in order. -/
def mappedColumns (mask ncols : Nat) : List Nat :=
  (range ncols).filter fun j => ((colMap mask ncols)[j]?).join.isSome

/-- **The entry of a column is its place among the columns of the result.** -/
theorem colMap_eq_some_iff {j pos : Nat} (hn : ncols ≤ maxColMap) :
    (colMap mask ncols)[j]? = some (some pos) ↔ (selectList mask ncols)[pos]? = some j := by
  have hmap : colMap mask ncols = colMapFrom mask (range ncols) 0 := by rw [colMap, Nat.min_eq_left hn]
  have hget : ∀ j < ncols, projects mask j = true → Mapped mask ncols j := fun j hj => (mapped_iff hn hj).mpr
  constructor
  · intro h
    have hj : j < ncols := by
      by_contra hout
      have hlen : (colMap mask ncols).length ≤ j := by
        rw [hmap, length_colMapFrom, length_range]
        omega
      rw [getElem?_eq_none hlen] at h
      cases h
    have hp : projects mask j = true := by
      by_contra hnot
      rw [hmap, (colMapFrom_get mask (range ncols) 0 j j (by simp [hj])).2 (by simpa using hnot)] at h
      cases h
    obtain ⟨pos', hpos', hsel⟩ := hget j hj hp
    obtain rfl : pos = pos' := Option.some.inj (Option.some.inj (h.symm.trans hpos'))
    exact hsel
  · intro h
    have hmem := mem_filter.mp (mem_of_getElem? h)
    obtain ⟨pos', hpos', hsel⟩ := hget j (mem_range.mp hmem.1) hmem.2
    have hnodup : (selectList mask ncols).Nodup := nodup_range.filter _
    have hlt := (List.getElem?_eq_some_iff.mp h).1
    obtain rfl : pos = pos' := (getElem?_inj hlt hnodup).mp (h.trans hsel.symm)
    exact hpos'

theorem mappedColumns_eq (hn : ncols ≤ maxColMap) : mappedColumns mask ncols = selectList mask ncols := by
  refine filter_congr fun j hj => ?_
  rw [Bool.eq_iff_iff, ← mapped_iff hn (mem_range.mp hj), Option.isSome_iff_exists]
  refine exists_congr fun pos => ?_
  rw [Option.join_eq_some_iff, colMap_eq_some_iff hn, and_self]

/-- The select list by the numbers of its columns, when it is not `*`. -/
theorem planProjection_eq {cols : List VmsMetaColumn} (wkt : Bool) (h : mask ≠ 0 → selectList mask cols.length ≠ []) :
    planProjection cols wkt mask = (selectList mask cols.length).filterMap fun j => (cols[j]?).map (projOf wkt) := by
  by_cases hnil : selectList mask cols.length = []
  · -- without a bit all columns are selected, so there is none
    obtain rfl : mask = 0 := by
      by_contra hmask
      exact h hmask hnil
    have hrange : selectList 0 cols.length = range cols.length := filter_eq_self.mpr fun _ _ => rfl
    rw [hrange, range_eq_nil, length_eq_zero_iff] at hnil
    subst hnil
    rfl
  · have hsome := congrArg (filterMap id) (planProjection_selectList cols wkt mask hnil)
    rwa [filterMap_map, filterMap_map, Function.id_comp, Function.id_comp, filterMap_some] at hsome

/-- **Projection and `col_map` agree.**  The select list of a statement that is built is that of the columns with an
    entry in `col_map`, in their order; the entry is the place in it; and so xColumn reads of a mapped column what the
    server returns for it. -/
theorem projection_aligned {V : Type} {cap : Nat} {cols : List VmsMetaColumn} {wkt : Bool} {plan : VmsPlan}
    {schema table sql : List Nat} {nparams : Int} (hn : cols.length ≤ maxColMap)
    (hsel : plan.usedMask ≠ 0 → ∃ j < cols.length, projects plan.usedMask j = true)
    (h : vmsPlanBuildSql cap cols wkt plan schema table = some (sql, nparams)) :
    let mapped := mappedColumns plan.usedMask cols.length
    let emitted := mapped.filterMap fun j => (cols[j]?).map (projOf wkt)
    (∃ rest, sql = wide "SELECT " ++ renderSegs (joinSegs (wide ", ") (emitted.map Proj.segs)) ++
      wide " FROM " ++ rest) ∧
      (∀ j pos : Nat, (colMap plan.usedMask cols.length)[j]? = some (some pos) ↔ mapped[pos]? = some j) ∧
      ∀ (value : Proj → Option V) (j : Nat) (c : VmsMetaColumn), j ∈ mapped → cols[j]? = some c →
        vmsVtabColumn plan.usedMask cols.length (emitted.map value) j = value (projOf wkt c) := by
  have hne : plan.usedMask ≠ 0 → selectList plan.usedMask cols.length ≠ [] := by
    intro hmask
    obtain ⟨j, hj, hp⟩ := hsel hmask
    exact ne_nil_of_mem (mem_filter.mpr ⟨mem_range.mpr hj, hp⟩)
  simp only [mappedColumns_eq hn]
  refine ⟨?_, fun j pos => colMap_eq_some_iff hn, fun value j c hj hc => ?_⟩
  · rw [← planProjection_eq wkt hne]
    have htext := (build_text h).1
    simp only [Select.segs, renderSegs_cons, renderSegs_append, topSegs, planSelect, Bool.false_eq_true, if_false,
      Seg.render, append_assoc, nil_append] at htext
    exact ⟨_, by simpa only [append_assoc] using htext⟩
  · obtain ⟨pos, hpos⟩ := mem_iff_getElem?.mp hj
    have hplace : (planProjection cols wkt plan.usedMask)[pos]? = some (projOf wkt c) := by
      have hall := congrArg (·[pos]?) (planProjection_selectList cols wkt plan.usedMask (ne_nil_of_mem hj))
      simpa [hpos, hc] using hall
    rw [vmsVtabColumn, (colMap_eq_some_iff hn).mpr hpos, ← planProjection_eq wkt hne]
    simp [hplace]

/-- The second of three columns. -/
theorem projection_aligned_second :
    vmsPlanBuildSql 64 (wideTab 3).cols false { usedMask := 2 } [115] [116] =
        some (wide "SELECT [c1] FROM [s].[t]", 0) ∧
      vmsVtabColumn 2 3 [some 7] 1 = some 7 := by
  have hbuild : vmsPlanBuildSql 64 (wideTab 3).cols false { usedMask := 2 } [115] [116] =
      some (wide "SELECT [c1] FROM [s].[t]", 0) := by decide
  have haligned := projection_aligned (V := Nat) (by decide) (fun _ => ⟨1, by decide, by decide⟩) hbuild
  exact ⟨hbuild, haligned.2.2 (fun _ => some 7) 1 _ (by decide) rfl⟩

end VirtualMssql.Projection
