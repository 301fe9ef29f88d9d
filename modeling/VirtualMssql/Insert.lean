/-
  INSERT — the two loops of `vms_dml_insert`, with the mask of the columns that are given.

  The first loop writes the names and counts them, the second converts and writes the values.  Each decides anew which
  columns take part: the writable ones, without the key columns whose text is NULL or empty, and without those that
  `col_present` leaves out.  Both ask the callback again.

  A callback that answers the same each time makes them agree: either loop is the loop over `participants`
  (`listColumns_eq`, `listValues_eq`), so the k-th value belongs to the k-th name (`insert_aligned`).
-/
import VirtualMssql.DmlSql

namespace VirtualMssql.Insert

open TSql Utf Outcome List
open DmlSql hiding vmsDmlInsert

section Loops

variable {F : Type} (dt : DoubleText F) (d : VmsDmlContext) (present : Option (Nat → Bool)) (get : ValueGet)

/-- `is_null || !text || !text[0]`. -/
def blank (i : Nat) : Bool := ((get i).getD []).isEmpty

/-- `col_present && !col_present[i]`. -/
def leftOut (i : Nat) : Bool := present.any fun p => !p i

/-- The first loop: the names, and their number `np`. -/
def listColumns : Bool → Nat → List At → List Nat → Except DmlFault (List Nat × Nat)
  | _, np, [], sql => .ok (sql, np)
  | first, np, c :: cs, sql =>
    if !colWritable c.1 then listColumns first np cs sql
    else if isKeyCol d c.2 && blank get c.2 then listColumns first np cs sql
    else if leftOut present c.2 then listColumns first np cs sql
    else do
      let sql ← fits (if first then some sql else sbAdd (wide ", ") sql)
      let sql ← fits (sbAddIdent c.1.name sql)
      listColumns false (np + 1) cs sql

/-- The second loop: the values. -/
def listValues : Bool → List At → List Nat → Except DmlFault (List Nat)
  | _, [], sql => .ok sql
  | first, c :: cs, sql =>
    if !colWritable c.1 then listValues first cs sql
    else if isKeyCol d c.2 && blank get c.2 then listValues first cs sql
    else if leftOut present c.2 then listValues first cs sql
    else
      match textToValue dt (get c.2) c.1.vtype with
      | none => .error (.message (quotedMessage (wide "insert: bad value for ") c.1.name))
      | some v => do
        let sql ← fits (if first then some sql else sbAdd (wide ", ") sql)
        let sql ← fits (sbAddValue dt v sql)
        listValues false cs sql

/-- `vms_dml_insert`, up to the call that sends the text. -/
def vmsDmlInsert : Except DmlFault (List Nat) := do
  let sql ← fits ((sbAdd (wide "INSERT INTO ") []).bind fun sql =>
    (sbAddTable d.schema d.table sql).bind (sbAdd (wide " (")))
  let (sql, np) ← listColumns d present get true 0 d.cols.zipIdx sql
  if np = 0 ∨ dmlMaxParams < np then .error (.message (wide "insert: no writable columns or too many"))
  else do
    let sql ← fits (sbAdd (wide ") VALUES (") sql)
    let sql ← listValues dt d present get true d.cols.zipIdx sql
    fits (sbAdd (wide ")") sql)

/-! ## The columns that take part -/

/-- What both loops let through. -/
def takesPart (c : At) : Bool :=
  colWritable c.1 && !(isKeyCol d c.2 && blank get c.2) && !leftOut present c.2

def participants : List At := d.cols.zipIdx.filter (takesPart d present get)

variable {dt d present get}

theorem takesPart_iff {c : At} : takesPart d present get c = true ↔
    colWritable c.1 = true ∧ (isKeyCol d c.2 && blank get c.2) = false ∧ leftOut present c.2 = false := by
  simp only [takesPart, Bool.and_eq_true, Bool.not_eq_true', and_assoc]

/-- **The first loop** goes over those columns only, and counts them. -/
theorem listColumns_eq (cs : List At) : ∀ (first : Bool) (np : Nat) (sql : List Nat),
    listColumns d present get first np cs sql =
      (sbEach (wide ", ") some (fun _ => .silent) (fun c : At => sbAddIdent c.1.name) first
        (cs.filter (takesPart d present get)) sql).map (·, np + (cs.filter (takesPart d present get)).length) := by
  induction cs with
  | nil => intro first np sql; rfl
  | cons c cs ih =>
    intro first np sql
    by_cases hc : takesPart d present get c = true
    · rw [filter_cons_of_pos hc, listColumns, sbEach, length_cons, ← Nat.add_assoc, Nat.add_right_comm]
      simp only [takesPart_iff.mp hc, Bool.not_true, Bool.false_eq_true, if_false, ih]
      cases fits (if first then some sql else sbAdd (wide ", ") sql) with
      | error e => rfl
      | ok sql₁ =>
        simp only [bind, Except.bind]
        cases fits (sbAddIdent c.1.name sql₁) <;> rfl
    · rw [filter_cons_of_neg hc, ← ih, listColumns]
      rw [takesPart_iff] at hc
      split_ifs <;> simp_all

/-- **The second loop** goes over the same. -/
theorem listValues_eq (cs : List At) : ∀ (first : Bool) (sql : List Nat), listValues dt d present get first cs sql =
      sbEach (wide ", ") (cellValue dt get) (fun c => .message (quotedMessage (wide "insert: bad value for ") c.1.name))
        (fun c => sbAddValue dt c.2) first (cs.filter (takesPart d present get)) sql := by
  induction cs with
  | nil => intro first sql; rfl
  | cons c cs ih =>
    intro first sql
    by_cases hc : takesPart d present get c = true
    · rw [filter_cons_of_pos hc, listValues, sbEach, cellValue]
      simp only [takesPart_iff.mp hc, Bool.not_true, Bool.false_eq_true, if_false, ih]
      cases textToValue dt (get c.2) c.1.vtype <;> rfl
    · rw [filter_cons_of_neg hc, ← ih, listValues]
      rw [takesPart_iff] at hc
      split_ifs <;> simp_all

/-! ## The statement -/

/-- The text of an INSERT of these values into these columns. -/
def insertText (dt : DoubleText F) (d : VmsDmlContext) (cols : List VmsMetaColumn) (values : List (VmsValue F)) :
    List Nat :=
  wide "INSERT INTO " ++ (renderSegs (Dml.tableSegs (utf8ToWide d.schema) (utf8ToWide d.table)) ++ (wide " (" ++
    (renderSegs (joinSegs (wide ", ") (cols.map fun c => [.name (utf8ToWide c.name)])) ++ (wide ") VALUES (" ++
      (renderSegs (joinSegs (wide ", ") (values.map fun v => [.text (valueText dt v)])) ++ wide ")")))))

/-- The text that is sent, with the values of the columns that take part. -/
theorem vmsDmlInsert_text {sql : List Nat} (h : vmsDmlInsert dt d present get = .ok sql) :
    ∃ row, (participants d present get).mapM (cellValue dt get) = some row ∧
      sql = insertText dt d ((participants d present get).map Prod.fst) (row.map Prod.snd) := by
  simp only [vmsDmlInsert, bind_ok, fits_ok, listColumns_eq, listValues_eq, map_ok] at h
  obtain ⟨s₁, h₁, _, ⟨s₂, h₂, rfl⟩, h⟩ := h
  split_ifs at h
  simp only [bind_ok, fits_ok] at h
  obtain ⟨s₃, h₃, s₄, h₄, h₅⟩ := h
  obtain ⟨rfl, -⟩ := head_text (by decide) (by decide) h₁
  obtain ⟨rfl, -⟩ := names_text h₂
  obtain ⟨rfl, -⟩ := sbAdd_adds (by decide) _ _ h₃
  obtain ⟨row, hrow, rfl, -⟩ := values_text h₄
  obtain ⟨rfl, -⟩ := sbAdd_adds (by decide) _ _ h₅
  refine ⟨row, hrow, ?_⟩
  simp only [insertText, map_map, Function.comp_def, append_assoc]
  rfl

/-- The k-th value is that of the k-th column. -/
theorem row_values {cs : List At} {row : List (List Nat × VmsValue F)} (hrow : cs.mapM (cellValue dt get) = some row) :
    cs.length = (row.map Prod.snd).length ∧
      ∀ (k : Nat) (c : At) (v : VmsValue F), cs[k]? = some c → (row.map Prod.snd)[k]? = some v →
        textToValue dt (get c.2) c.1.vtype = some v := by
  have hsome : row.map some = cs.map (cellValue dt get) := mapM_items hrow
  refine ⟨by simpa using (congrArg List.length hsome).symm, fun k c v hc hv => ?_⟩
  have hk := congrArg (·[k]?) hsome
  obtain ⟨x, hx, rfl⟩ : ∃ x, row[k]? = some x ∧ x.2 = v := by simpa using hv
  have hcell : cellValue dt get c = some x := by simpa [hc, hx] using hk.symm
  obtain ⟨w, hw, rfl⟩ := Option.map_eq_some_iff.mp hcell
  exact hw

theorem mem_participants {i : Nat} {c : VmsMetaColumn} (hc : d.cols[i]? = some c) :
    (c, i) ∈ participants d present get ↔ takesPart d present get (c, i) = true := by
  rw [participants, mem_filter]
  exact and_iff_right (mem_zipIdx_iff_getElem?.mpr hc)

/-- **Names and values are aligned.**  When a statement is sent there are as many values as columns, the k-th value is
    the literal of the k-th column; the columns stand once each in the order of the table; none of them is identity,
    computed, rowversion or timestamp; and a writable column that is present and not of the key is among them. -/
theorem insert_aligned {sql : List Nat} (h : vmsDmlInsert dt d present get = .ok sql) :
    ∃ (listed : List At) (values : List (VmsValue F)), sql = insertText dt d (listed.map Prod.fst) values ∧
      listed.length = values.length ∧
      (∀ (k : Nat) (c : At) (v : VmsValue F), listed[k]? = some c → values[k]? = some v →
        textToValue dt (get c.2) c.1.vtype = some v) ∧ (listed.map Prod.snd).Pairwise (· < ·) ∧
      (∀ c ∈ listed, d.cols[c.2]? = some c.1 ∧ c.1.isIdentity = false ∧ c.1.isComputed = false ∧
        stricmp c.1.typeName (wide "rowversion") = false ∧ stricmp c.1.typeName (wide "timestamp") = false) ∧
      ∀ (i : Nat) (c : VmsMetaColumn), d.cols[i]? = some c → colWritable c = true → leftOut present i = false →
        isKeyCol d i = false → (c, i) ∈ listed := by
  obtain ⟨row, hrow, htext⟩ := vmsDmlInsert_text h
  obtain ⟨hlength, hvalues⟩ := row_values hrow
  refine ⟨participants d present get, row.map Prod.snd, htext, hlength, hvalues, ?_, fun c hc => ?_,
    fun i c hc hwritable hpresent hkey => ?_⟩
  · have hsub : ((participants d present get).map Prod.snd).Sublist (List.range' 0 d.cols.length) := by
      rw [← zipIdx_map_snd 0 d.cols]
      exact filter_sublist.map _
    exact List.Pairwise.sublist hsub pairwise_lt_range'
  · obtain ⟨hmem, htakes⟩ := mem_filter.mp hc
    have hwritable := (takesPart_iff.mp htakes).1
    simp only [colWritable, Bool.and_eq_true, Bool.not_eq_true', and_assoc] at hwritable
    exact ⟨mem_zipIdx_iff_getElem?.mp hmem, hwritable⟩
  · refine (mem_participants hc).mpr (takesPart_iff.mpr ⟨hwritable, ?_, hpresent⟩)
    rw [hkey, Bool.false_and]

end Loops

/-- A note, with its number or without. -/
def newNote (id : Option (List Nat)) : ValueGet := fun i => if i = 0 then id else some (wide "it's")

theorem insert_aligned_note : vmsDmlInsert twoDoubles notes (some fun _ => true) (newNote (some (wide "7"))) =
        .ok (wide "INSERT INTO [dbo].[notes] ([id], [note]) VALUES (7, N'it''s')") ∧
      ∃ (listed : List At) (values : List (VmsValue Bool)), listed.length = values.length ∧
        wide "INSERT INTO [dbo].[notes] ([id], [note]) VALUES (7, N'it''s')" =
          insertText twoDoubles notes (listed.map Prod.fst) values := by
  have hsent : vmsDmlInsert twoDoubles notes (some fun _ => true) (newNote (some (wide "7"))) =
      .ok (wide "INSERT INTO [dbo].[notes] ([id], [note]) VALUES (7, N'it''s')") := by decide
  obtain ⟨listed, values, htext, hlength, -⟩ := insert_aligned hsent
  exact ⟨hsent, listed, values, hlength, htext⟩

/-- Without a number both loops leave the key to the server. -/
example : vmsDmlInsert twoDoubles notes none (newNote none) =
    .ok (wide "INSERT INTO [dbo].[notes] ([note]) VALUES (N'it''s')") := by decide

end VirtualMssql.Insert
