/-
  XROWID — the number a row gets, and the key values that xUpdate will need.

  The number is the value of the first INTEGER column of the result, or the position in the scan when
  there is none or it is NULL.  Which column comes first depends on the projection, and nothing ties it to
  the key: `rowids_identify_iff` says that the numbers tell rows apart and are the same in every scan
  exactly when that column is the whole key.

  On the side xRowid keeps the key values of the row as texts of at most 159 bytes (`stashKeys`).
-/
import VirtualMssql.Projection
import VirtualMssql.DmlSql
import Mathlib.Logic.Nontrivial.Defs

namespace VirtualMssql.Rowid

open TSql Plan VirtualMssql.Filter Projection List
open DmlSql (VmsValue VmsDmlContext)

/-! ## The row under the cursor -/

/-- A row of the table, as its values are decoded. -/
abbrev Row (F : Type) := Nat → VmsValue F

section Cursor

variable {F : Type} (cols : List VmsMetaColumn) (mask : Nat)

/-- `col_map[j] >= 0`. -/
def isMapped (j : Nat) : Bool := ((colMap mask cols.length)[j]?).join.isSome

/-- `vms_cursor_value(cur, col_map[j])`. -/
def cursorValue (row : Row F) (j : Nat) : Option (VmsValue F) :=
  vmsVtabColumn mask cols.length (fetched mask cols.length fun j => some (row j)) j

/-- The search of both loops: the first column of the result that passes the test. -/
def firstMapped (p : VmsMetaColumn → Bool) : Option Nat :=
  (List.range cols.length).find? fun j => isMapped cols mask j && (cols[j]?).any p

variable {cols mask} {j : Nat}

theorem isMapped_iff (hn : cols.length ≤ maxColMap) (hj : j < cols.length) :
    isMapped cols mask j = true ↔ projects mask j = true := by
  rw [← mapped_iff hn hj, isMapped]
  constructor
  · intro h
    by_contra hnot
    have hout := (colMapFrom_get mask (List.range cols.length) 0 j j (by simp [hj])).2
      (by simpa [mapped_iff hn hj] using hnot)
    rw [colMap, Nat.min_eq_left hn, hout] at h
    cases h
  · rintro ⟨pos, hpos, _⟩
    rw [hpos]
    rfl

/-- A mapped column shows the row's value. -/
theorem cursorValue_eq (hn : cols.length ≤ maxColMap) (hj : j < cols.length)
    (h : isMapped cols mask j = true) (row : Row F) : cursorValue cols mask row j = some (row j) :=
  column_of_mapped ((mapped_iff hn hj).mpr ((isMapped_iff hn hj).mp h)) _

variable (cols mask) in
/-- The first column of the result that passes the test. -/
def FirstOf (p : VmsMetaColumn → Bool) (j : Nat) : Prop :=
  (∃ c, cols[j]? = some c ∧ p c = true) ∧ projects mask j = true ∧
    ∀ i < j, (∃ c, cols[i]? = some c ∧ p c = true) → projects mask i = false

variable {p : VmsMetaColumn → Bool}

theorem firstMapped_iff (hn : cols.length ≤ maxColMap) :
    firstMapped cols mask p = some j ↔ FirstOf cols mask p j := by
  have htest : ∀ i, (isMapped cols mask i && (cols[i]?).any p) = true ↔
      (∃ c, cols[i]? = some c ∧ p c = true) ∧ projects mask i = true := by
    intro i
    rw [Bool.and_eq_true, Option.any_eq_true]
    constructor
    · rintro ⟨hmapped, c, hc, hp⟩
      exact ⟨⟨c, hc, hp⟩, (isMapped_iff hn (List.getElem?_eq_some_iff.mp hc).1).mp hmapped⟩
    · rintro ⟨⟨c, hc, hp⟩, hproj⟩
      exact ⟨(isMapped_iff hn (List.getElem?_eq_some_iff.mp hc).1).mpr hproj, c, hc, hp⟩
  rw [firstMapped, find?_range_eq_some, htest, FirstOf, mem_range]
  constructor
  · rintro ⟨⟨hcol, hproj⟩, _, hbefore⟩
    refine ⟨hcol, hproj, fun i hi hcol' => Bool.eq_false_iff.mpr fun hproj' => ?_⟩
    have hno := hbefore i hi
    rw [(htest i).mpr ⟨hcol', hproj'⟩] at hno
    cases hno
  · rintro ⟨hcol, hproj, hbefore⟩
    obtain ⟨c, hc, _⟩ := id hcol
    refine ⟨⟨hcol, hproj⟩, (List.getElem?_eq_some_iff.mp hc).1, fun i hi => ?_⟩
    have hno : ¬ _ = true := fun h =>
      Bool.eq_false_iff.mp (hbefore i hi ((htest i).mp h).1) ((htest i).mp h).2
    rw [Bool.eq_false_iff.mpr hno]
    rfl

theorem firstMapped_some (h : firstMapped cols mask p = some j) :
    ∃ c, cols[j]? = some c ∧ isMapped cols mask j = true ∧ p c = true := by
  have hfound := find?_some h
  rw [Bool.and_eq_true, Option.any_eq_true] at hfound
  obtain ⟨hmapped, c, hc, hp⟩ := hfound
  exact ⟨c, hc, hmapped, hp⟩

end Cursor

/-! ## The number -/

section Number

variable {F : Type} (cols : List VmsMetaColumn) (key : VmsStableKey)

/-- The column the number is taken from. -/
def firstInt (mask : Nat) : Option Nat := firstMapped cols mask fun c => c.vtype = .int64

/-- `vms_vtab_rowid`, the number; `counter` is `rowid_counter`. -/
def rowidValue (mask : Nat) (counter : Int) (row : Row F) : Int :=
  match firstInt cols mask with
  | none => counter
  | some j =>
    match cursorValue cols mask row j with
    | some (.int i) => i.val
    | _ => counter

/-- The kinds of values a column decodes to. -/
def decodes : VmsColType → VmsValue F → Bool
  | _, .null => true
  | .int64, .int _ => true
  | .float64, .float _ => true
  | .text, .text _ | .bigtext, .text _ | .decimal, .text _ | .datetime, .text _ | .guid, .text _ => true
  | .blob, .blob _ => true
  | .spatial, .text _ | .spatial, .blob _ => true
  | _, _ => false

/-- The column of a key part. -/
def keyCol (p : VmsKeyColumn) : Nat := cols.findIdx fun c => c.name = p.name

/-- The key of a row. -/
def keyOf (row : Row F) : List (VmsValue F) := key.parts.map fun p => row (keyCol cols p)

/-- A row the table can hold: values of their columns' types, no NULL in the key. -/
structure Legal (row : Row F) : Prop where
  typed : ∀ j c, cols[j]? = some c → decodes c.vtype (row j) = true
  keyed : ∀ p ∈ key.parts, row (keyCol cols p) ≠ .null

/-- A scan: its rows with their numbers, the position counting from 1. -/
def numbered (mask : Nat) (rows : List (Row F)) : List (Row F × Int) :=
  rows.zipIdx.map fun r => (r.1, rowidValue cols mask (r.2 + 1) r.1)

/-- Rows with different keys have different numbers. -/
def TellsApart (mask : Nat) (rows : List (Row F)) : Prop :=
  ∀ x ∈ numbered cols mask rows, ∀ y ∈ numbered cols mask rows, keyOf cols key x.1 ≠ keyOf cols key y.1 → x.2 ≠ y.2

/-- **Rowids identify rows**, in the scans with one projection and with another. -/
def Identifies (F : Type) (m₁ m₂ : Nat) : Prop :=
  ∀ rows₁ rows₂ : List (Row F), (∀ r ∈ rows₁, Legal cols key r) → (∀ r ∈ rows₂, Legal cols key r) →
    TellsApart cols key m₁ rows₁ ∧ TellsApart cols key m₂ rows₂ ∧
      ∀ x ∈ numbered cols m₁ rows₁, ∀ y ∈ numbered cols m₂ rows₂, x.1 = y.1 → x.2 = y.2

variable {cols key}

theorem Identifies.symm {m₁ m₂ : Nat} (h : Identifies cols key F m₁ m₂) : Identifies cols key F m₂ m₁ := by
  intro rows₁ rows₂ h₁ h₂
  obtain ⟨happart₂, happart₁, hsame⟩ := h rows₂ rows₁ h₂ h₁
  exact ⟨happart₁, happart₂, fun x hx y hy hxy => (hsame y hy x hx hxy.symm).symm⟩

variable {mask j : Nat} {f g : F}

theorem firstInt_some (h : firstInt cols mask = some j) :
    ∃ c, cols[j]? = some c ∧ isMapped cols mask j = true ∧ c.vtype = .int64 := by
  obtain ⟨c, hc, hmapped, htype⟩ := firstMapped_some h
  exact ⟨c, hc, hmapped, by simpa using htype⟩

theorem rowidValue_of_none (h : firstInt cols mask = none) (counter : Int) (row : Row F) :
    rowidValue cols mask counter row = counter := by
  simp [rowidValue, h]

/-- The number is the value of the column, unless that is NULL. -/
theorem rowidValue_of_some (hn : cols.length ≤ maxColMap) (h : firstInt cols mask = some j)
    (counter : Int) {row : Row F} {i : I64} (hrow : row j = .int i) : rowidValue cols mask counter row = i.val := by
  obtain ⟨c, hc, hmapped, _⟩ := firstInt_some h
  have hj : j < cols.length := (List.getElem?_eq_some_iff.mp hc).1
  simp [rowidValue, h, cursorValue_eq hn hj hmapped, hrow]

variable {p : VmsKeyColumn}

theorem keyCol_lt (h : ∃ c ∈ cols, c.name = p.name) : keyCol cols p < cols.length := by
  obtain ⟨c, hc, hname⟩ := h
  exact findIdx_lt_length_of_exists ⟨c, hc, by simpa using hname⟩

/-- A key column that gives the numbers holds an integer. -/
theorem Legal.int_of_key {row : Row F} (hrow : Legal cols key row) (hp : p ∈ key.parts)
    (h : firstInt cols mask = some (keyCol cols p)) : ∃ i, row (keyCol cols p) = .int i := by
  obtain ⟨c, hc, _, htype⟩ := firstInt_some h
  have htyped := hrow.typed _ c hc
  have hkeyed := hrow.keyed p hp
  rw [htype] at htyped
  revert htyped hkeyed
  cases row (keyCol cols p) <;> simp [decodes]

/-! ### Rows of any shape -/

/-- Two values of a type. -/
def pick (f g : F) : VmsColType → Bool → VmsValue F
  | .int64, b => .int (if b then ⟨1, by decide, by decide⟩ else ⟨0, by decide, by decide⟩)
  | .float64, b => .float (if b then f else g)
  | .blob, b => .blob (if b then [1] else [0])
  | _, b => .text (if b then [49] else [48])

theorem pick_injective (hfg : f ≠ g) (ty : VmsColType) : pick f g ty true ≠ pick f g ty false := by
  cases ty <;> simp [pick, hfg]

theorem pick_ne_null (f g : F) (ty : VmsColType) (b : Bool) : pick f g ty b ≠ .null := by
  cases ty <;> simp [pick]

/-- A row with one of two values in every column. -/
def rowOf (cols : List VmsMetaColumn) (f g : F) (bits : Nat → Bool) : Row F := fun j =>
  match cols[j]? with
  | some c => pick f g c.vtype (bits j)
  | none => .null

variable {bits : Nat → Bool}

theorem rowOf_eq {c : VmsMetaColumn} (hc : cols[j]? = some c) :
    rowOf cols f g bits j = pick f g c.vtype (bits j) := by
  simp [rowOf, hc]

theorem rowOf_int (h : firstInt cols mask = some j) :
    rowOf cols f g bits j = .int (if bits j then ⟨1, by decide, by decide⟩ else ⟨0, by decide, by decide⟩) := by
  obtain ⟨c, hc, _, htype⟩ := firstInt_some h
  rw [rowOf_eq hc, htype, pick]

theorem rowidValue_rowOf (hn : cols.length ≤ maxColMap) (h : firstInt cols mask = some j) (counter : Int) :
    rowidValue cols mask counter (rowOf cols f g bits) = if bits j then 1 else 0 := by
  rw [rowidValue_of_some hn h counter (rowOf_int h)]
  split_ifs <;> rfl

theorem legal_rowOf (hkey : ∀ p ∈ key.parts, ∃ c ∈ cols, c.name = p.name)
    (htypes : ∀ c ∈ cols, c.vtype ≠ .unsupported) (f g : F) (bits : Nat → Bool) :
    Legal cols key (rowOf cols f g bits) := by
  refine ⟨fun j c hc => ?_, fun p hp => ?_⟩
  · have htype := htypes c (mem_of_getElem? hc)
    rw [rowOf_eq hc]
    revert htype
    cases c.vtype <;> simp [pick, decodes]
  · have hc := getElem?_eq_getElem (keyCol_lt (hkey p hp))
    rw [rowOf_eq hc]
    exact pick_ne_null f g _ _

/-- Two rows that differ in one column only. -/
theorem keyOf_rowOf_ne (hfg : f ≠ g) (hp : p ∈ key.parts) (hcol : ∃ c ∈ cols, c.name = p.name) :
    keyOf cols key (rowOf cols f g fun _ => false) ≠ keyOf cols key (rowOf cols f g fun j => j = keyCol cols p) := by
  intro heq
  have hcell := map_inj_left.mp heq p hp
  have hc := getElem?_eq_getElem (keyCol_lt hcol)
  rw [rowOf_eq hc, rowOf_eq hc, decide_eq_true rfl] at hcell
  exact pick_injective hfg _ hcell.symm

section Iff

variable {m₁ m₂ : Nat} (hkey : ∀ p ∈ key.parts, ∃ c ∈ cols, c.name = p.name)
  (htypes : ∀ c ∈ cols, c.vtype ≠ .unsupported)
include hkey htypes

/-- Positions are no identity: the same row comes first in one scan and second in another. -/
theorem Identifies.firstInt [Nontrivial F] (hne : key.parts ≠ []) (h : Identifies cols key F m₁ m₂) :
    ∃ j, firstInt cols m₁ = some j := by
  by_contra hnone
  have hcounter : Rowid.firstInt cols m₁ = none := by
    cases hf : Rowid.firstInt cols m₁ with
    | none => rfl
    | some j => exact absurd ⟨j, hf⟩ hnone
  obtain ⟨f, g, hfg⟩ := exists_pair_ne F
  obtain ⟨p, hp⟩ := exists_mem_of_ne_nil _ hne
  let r := rowOf cols f g fun _ => false
  let r' := rowOf cols f g fun j => j = keyCol cols p
  have hr : Legal cols key r := legal_rowOf hkey htypes f g _
  have hr' : Legal cols key r' := legal_rowOf hkey htypes f g _
  have hone := (h [r, r'] [r] (by simp [hr, hr']) (by simp [hr])).2.2 (r, 1)
    (by simp [numbered, rowidValue_of_none hcounter]) (r, rowidValue cols m₂ 1 r) (by simp [numbered]) rfl
  have htwo := (h [r', r] [r] (by simp [hr, hr']) (by simp [hr])).2.2 (r, 2)
    (by simp [numbered, rowidValue_of_none hcounter]) (r, rowidValue cols m₂ 1 r) (by simp [numbered]) rfl
  have hcontra : (1 : Int) = 2 := hone.trans htwo.symm
  omega

/-- The number has to come from the same column in both scans. -/
theorem Identifies.sameColumn [Nontrivial F] (hn : cols.length ≤ maxColMap) {j₁ j₂ : Nat}
    (h : Identifies cols key F m₁ m₂) (h₁ : Rowid.firstInt cols m₁ = some j₁)
    (h₂ : Rowid.firstInt cols m₂ = some j₂) : j₁ = j₂ := by
  by_contra hne
  obtain ⟨f, g, _⟩ := exists_pair_ne F
  let r := rowOf cols f g fun j => j = j₁
  have hr : Legal cols key r := legal_rowOf hkey htypes f g _
  have hsame := (h [r] [r] (by simp [hr]) (by simp [hr])).2.2 (r, rowidValue cols m₁ 1 r) (by simp [numbered])
    (r, rowidValue cols m₂ 1 r) (by simp [numbered]) rfl
  have hone : rowidValue cols m₁ 1 r = 1 := (rowidValue_rowOf hn h₁ 1).trans (by simp)
  have hzero : rowidValue cols m₂ 1 r = 0 := (rowidValue_rowOf hn h₂ 1).trans (by simp [Ne.symm hne])
  have hcontra : (1 : Int) = 0 := hone.symm.trans (hsame.trans hzero)
  omega

/-- A key part in another column does not show in the number. -/
theorem Identifies.wholeKey [Nontrivial F] (hn : cols.length ≤ maxColMap)
    (h : Identifies cols key F m₁ m₂) (h₁ : Rowid.firstInt cols m₁ = some j) :
    ∀ p ∈ key.parts, keyCol cols p = j := by
  intro p hp
  by_contra hne
  obtain ⟨f, g, hfg⟩ := exists_pair_ne F
  let r := rowOf cols f g fun _ => false
  let r' := rowOf cols f g fun j => j = keyCol cols p
  have hr : Legal cols key r := legal_rowOf hkey htypes f g _
  have hr' : Legal cols key r' := legal_rowOf hkey htypes f g _
  have hapart := (h [r, r'] [] (by simp [hr, hr']) (by simp)).1 (r, rowidValue cols m₁ 1 r) (by simp [numbered])
    (r', rowidValue cols m₁ 2 r') (by simp [numbered]) (keyOf_rowOf_ne hfg hp (hkey p hp))
  have hzero : rowidValue cols m₁ 1 r = 0 := (rowidValue_rowOf hn h₁ 1).trans (by simp)
  have hzero' : rowidValue cols m₁ 2 r' = 0 := (rowidValue_rowOf hn h₁ 2).trans (by simp [Ne.symm hne])
  exact hapart (hzero.trans hzero'.symm)

end Iff

/-- When the number is the key, it identifies the row. -/
theorem identifies_of_wholeKey (hn : cols.length ≤ maxColMap) (hne : key.parts ≠ []) {m₁ m₂ : Nat}
    (h₁ : firstInt cols m₁ = some j) (h₂ : firstInt cols m₂ = some j)
    (hkeys : ∀ p ∈ key.parts, keyCol cols p = j) : Identifies cols key F m₁ m₂ := by
  obtain ⟨p, hp⟩ := exists_mem_of_ne_nil _ hne
  have hj := hkeys p hp
  -- a number is the integer in column `j`, in either scan
  have hvalue : ∀ {m : Nat} {rows : List (Row F)}, firstInt cols m = some j → (∀ r ∈ rows, Legal cols key r) →
      ∀ x ∈ numbered cols m rows, ∃ i, x.1 j = .int i ∧ x.2 = i.val := by
    intro m rows hm hrows x hx
    obtain ⟨⟨r, n⟩, hr, rfl⟩ := mem_map.mp hx
    have hlegal : Legal cols key r := hrows r (mem_of_getElem? (mem_zipIdx_iff_getElem?.mp hr))
    obtain ⟨i, hi⟩ := hlegal.int_of_key hp (hj ▸ hm)
    rw [hj] at hi
    exact ⟨i, hi, rowidValue_of_some hn hm _ hi⟩
  have hsame : ∀ {x y : Row F × Int}, (∃ i, x.1 j = .int i ∧ x.2 = i.val) → (∃ i, y.1 j = .int i ∧ y.2 = i.val) →
      x.2 = y.2 → x.1 j = y.1 j := by
    rintro x y ⟨i, hi, hx⟩ ⟨i', hi', hy⟩ heq
    obtain ⟨v, lo, hi₁⟩ := i
    obtain ⟨v', lo', hi₂⟩ := i'
    obtain rfl : v = v' := hx.symm.trans (heq.trans hy)
    rw [hi, hi']
  have hapart : ∀ {m : Nat} {rows : List (Row F)}, firstInt cols m = some j → (∀ r ∈ rows, Legal cols key r) →
      TellsApart cols key m rows := by
    intro m rows hm hrows x hx y hy hdiff heq
    refine hdiff (map_congr_left fun q hq => ?_)
    rw [hkeys q hq]
    exact hsame (hvalue hm hrows x hx) (hvalue hm hrows y hy) heq
  intro rows₁ rows₂ hl₁ hl₂
  refine ⟨hapart h₁ hl₁, hapart h₂ hl₂, fun x hx y hy hxy => ?_⟩
  obtain ⟨i, hi, hx'⟩ := hvalue h₁ hl₁ x hx
  obtain ⟨i', hi', hy'⟩ := hvalue h₂ hl₂ y hy
  rw [hxy, hi'] at hi
  rw [hx', hy', (VmsValue.int.inj hi)]

end Number

/-- An INTEGER column. -/
def IntColumn (cols : List VmsMetaColumn) (j : Nat) : Prop := ∃ c, cols[j]? = some c ∧ c.vtype = .int64

/-- The first INTEGER column of the result. -/
def FirstInResult (tab : VmsVtab) (key : Option VmsStableKey) (info : IndexInfo) (j : Nat) : Prop :=
  IntColumn tab.cols j ∧ InResult tab key info j ∧ ∀ i < j, IntColumn tab.cols i → ¬ InResult tab key info i

theorem firstInt_iff {tab : VmsVtab} (hn : tab.cols.length ≤ maxColMap) (key : Option VmsStableKey)
    (info : IndexInfo) (j : Nat) :
    firstInt tab.cols (scanMask tab key info) = some j ↔ FirstInResult tab key info j := by
  have hint : ∀ i, (∃ c, tab.cols[i]? = some c ∧ decide (c.vtype = .int64) = true) ↔ IntColumn tab.cols i := by
    intro i
    simp [IntColumn]
  rw [firstInt, firstMapped_iff hn, FirstOf, FirstInResult, hint, projects_scanMask]
  refine and_congr_right fun _ => and_congr_right fun _ => forall_congr' fun i => forall_congr' fun _ => ?_
  rw [hint, ← Bool.not_eq_true, projects_scanMask]

/-- **When rowids identify rows**: the first INTEGER column of the result is the same in both scans, and
    it is the whole key.  xBestIndex may have found the key or not. -/
theorem rowids_identify_iff {F : Type} [Nontrivial F] (tab : VmsVtab) (key : VmsStableKey)
    (hn : tab.cols.length ≤ maxColMap) (hkey : ∀ p ∈ key.parts, ∃ c ∈ tab.cols, c.name = p.name)
    (hne : key.parts ≠ []) (htypes : ∀ c ∈ tab.cols, c.vtype ≠ .unsupported) (k₁ k₂ : Option VmsStableKey)
    (info₁ info₂ : IndexInfo) :
    Identifies tab.cols key F (scanMask tab k₁ info₁) (scanMask tab k₂ info₂) ↔
      ∃ j, FirstInResult tab k₁ info₁ j ∧ FirstInResult tab k₂ info₂ j ∧ ∀ p ∈ key.parts, keyCol tab.cols p = j := by
  constructor
  · intro h
    obtain ⟨j₁, h₁⟩ := h.firstInt hkey htypes hne
    obtain ⟨j₂, h₂⟩ := h.symm.firstInt hkey htypes hne
    obtain rfl := h.sameColumn hkey htypes hn h₁ h₂
    exact ⟨j₁, (firstInt_iff hn _ _ _).mp h₁, (firstInt_iff hn _ _ _).mp h₂, h.wholeKey hkey htypes hn h₁⟩
  · rintro ⟨j, h₁, h₂, hkeys⟩
    exact identifies_of_wholeKey hn hne ((firstInt_iff hn _ _ _).mpr h₁) ((firstInt_iff hn _ _ _).mpr h₂) hkeys

/-- A table with two integer columns and the second of them for its key. -/
def pairTab : VmsVtab where
  schema := wide "dbo"
  table := wide "pairs"
  cols := [{ name := wide "n", typeName := wide "int", vtype := .int64 },
    { name := wide "id", typeName := wide "int", vtype := .int64 }]

def idKey : VmsStableKey := ⟨[⟨wide "id", .int64⟩]⟩

/-- Two scans that read the key only. -/
theorem rowids_identify_id :
    Identifies pairTab.cols idKey Bool (scanMask pairTab (some idKey) { aConstraint := [], colUsed := 2 })
      (scanMask pairTab (some idKey) { aConstraint := [⟨1, .eq, true⟩], colUsed := 2 }) := by
  refine (rowids_identify_iff pairTab idKey (by decide) (by decide) (by decide) (by decide) _ _ _ _).mpr
    ⟨1, (firstInt_iff (by decide) _ _ _).mp (by decide), (firstInt_iff (by decide) _ _ _).mp (by decide), by decide⟩

/-- **Two rows with one number**: the first column of the result is not the key. -/
theorem rowid_not_unique :
    Legal pairTab.cols idKey (rowOf pairTab.cols true false fun _ => false) ∧
      Legal pairTab.cols idKey (rowOf pairTab.cols true false fun j => j = 1) ∧
      keyOf pairTab.cols idKey (rowOf pairTab.cols true false fun _ => false) ≠
        keyOf pairTab.cols idKey (rowOf pairTab.cols true false fun j => j = 1) ∧
      (numbered pairTab.cols (scanMask pairTab (some idKey) { aConstraint := [], colUsed := 3 })
        [rowOf pairTab.cols true false fun _ => false, rowOf pairTab.cols true false fun j => j = 1]).map Prod.snd =
        [0, 0] :=
  ⟨legal_rowOf (by decide) (by decide) _ _ _, legal_rowOf (by decide) (by decide) _ _ _, by decide, by decide⟩

end VirtualMssql.Rowid
