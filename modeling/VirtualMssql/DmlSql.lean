/-
  DML SQL — `vms_dml_insert`, `vms_dml_update`, `vms_dml_delete`: from values to the text of a statement.

  Values arrive as C strings, one for each column or none for NULL, and become literals by the type of
  their column: integers and doubles are parsed and printed again, everything else is an N'…' text with its
  quotes doubled.  The text grows in a buffer of 4096 wide characters; whatever does not fit ends the
  attempt, and nothing is sent.

  When a text is produced it is the printed form of `intended`, the statement the request stands for
  (`vmsDml_text`): for an INSERT the row, for an UPDATE the assignments and for UPDATE and DELETE one
  equality per key part.  Names are bracketed as they are, so reading the text back needs names without a
  closing bracket; the values need nothing but being values (`dml_lexes`).
-/
import VirtualMssql.PlanSql
import VirtualMssql.Numbers
import VirtualMssql.Lib.Outcome

namespace VirtualMssql.DmlSql

open TSql Utf Outcome Function
open Plan (appendW wideName appendBracketed Writes appendW_some wideName_some appendW_writes
  appendBracketed_writes)

/-! ## Contexts -/

/-- `VmsValue`. -/
inductive VmsValue (F : Type)
  | null
  | int (i : I64)
  | float (f : F)
  | text (t : List Nat)
  | blob (b : List Nat)
  deriving DecidableEq

/-- `VmsDmlContext`, as `vms_dml_init` leaves it: a table with valid names and a stable key. -/
structure VmsDmlContext where
  schema : List Nat
  table : List Nat
  cols : List VmsMetaColumn
  key : VmsStableKey
  schema_ident : ∀ c ∈ schema, identChar c = true
  table_ident : ∀ c ∈ table, identChar c = true
  key_ne : key.parts ≠ []

/-- `col_writable`. -/
def colWritable (c : VmsMetaColumn) : Bool :=
  !c.isIdentity && !c.isComputed && !stricmp c.typeName (wide "rowversion") &&
    !stricmp c.typeName (wide "timestamp")

/-- `key_part_col`: the first column of the name, in any case. -/
def keyPartCol (cols : List VmsMetaColumn) (part : VmsKeyColumn) : Option Nat :=
  cols.findIdx? fun c => stricmp c.name part.name

/-- `is_key_col`. -/
def isKeyCol (d : VmsDmlContext) (i : Nat) : Bool := d.key.parts.any fun p => keyPartCol d.cols p = some i

/-! ## The buffer -/

def dmlSqlCap : Nat := 4096
def dmlMaxParams : Nat := 64

/-- Why a statement is not sent: the buffer is full (or a key column is missing from a DELETE), without a
    message; or with one. -/
inductive DmlFault
  | silent
  | message (text : List Nat)
  deriving DecidableEq, Repr

def fits {α : Type} (o : Option α) : Except DmlFault α := o.elim (.error .silent) .ok

section Build

variable {F : Type} (dt : DoubleText F)

/-- `sb_add`. -/
def sbAdd (s sql : List Nat) : Option (List Nat) := appendW dmlSqlCap (cstr s) sql

/-- `sb_add_ident`. -/
def sbAddIdent (name sql : List Nat) : Option (List Nat) := appendBracketed dmlSqlCap 276 name sql

/-- `sb_add_table`. -/
def sbAddTable (schema table sql : List Nat) : Option (List Nat) :=
  (sbAdd (wide "[") sql).bind fun sql =>
  (wideName 300 schema).bind fun s =>
  (sbAdd s sql).bind fun sql =>
  (sbAdd (wide "].[") sql).bind fun sql =>
  (wideName 300 table).bind fun t =>
  (sbAdd t sql).bind (sbAdd (wide "]"))

/-- The loop over the units of a text. -/
def sbAddUnits : List Nat → List Nat → Option (List Nat)
  | [], sql => some sql
  | u :: us, sql => (sbAdd (if u = 39 then [39, 39] else [u]) sql).bind (sbAddUnits us)

/-- `sb_add_value`. -/
def sbAddValue : VmsValue F → List Nat → Option (List Nat)
  | .int i, sql => sbAdd ((lldText i.val).take 23) sql
  | .float f, sql => sbAdd ((dt.print f).take 39) sql
  | .text t, sql =>
    (sbAdd (wide "N'") sql).bind fun sql => (sbAddUnits (utf8ToWide t) sql).bind (sbAdd (wide "'"))
  | .null, sql => sbAdd (wide "NULL") sql
  | .blob _, sql => sbAdd (wide "NULL") sql

/-- `text_to_value`. -/
def textToValue (text : Option (List Nat)) (vtype : VmsColType) : Option (VmsValue F) :=
  match text with
  | none => some .null
  | some t =>
    match vtype with
    | .int64 => (strtoi64 t).map .int
    | .float64 => (dt.strtod t).map .float
    | _ => some (.text (cstr t))

/-- The loops of the generators: a value is prepared, and written with the separator in front of every one
    but the first. -/
def sbEach {α β : Type} (sep : List Nat) (value : α → Option β) (fault : α → DmlFault)
    (write : β → List Nat → Option (List Nat)) : Bool → List α → List Nat → Except DmlFault (List Nat)
  | _, [], sql => .ok sql
  | first, a :: l, sql =>
    match value a with
    | none => .error (fault a)
    | some b => do
      let sql ← fits (if first then some sql else sbAdd sep sql)
      let sql ← fits (write b sql)
      sbEach sep value fault write false l sql

/-! ## The generators -/

/-- A column, and its position in the table. -/
abbrev At := VmsMetaColumn × Nat

/-- `VmsDmlValueGet`: the C string for a column, none for NULL. -/
abbrev ValueGet := Nat → Option (List Nat)

variable (d : VmsDmlContext)

/-- The columns an INSERT writes: key columns that are NULL or empty are left to their defaults. -/
def insertCols (get : ValueGet) : List At :=
  d.cols.zipIdx.filter fun c =>
    colWritable c.1 && !(isKeyCol d c.2 && ((get c.2).getD []).isEmpty)

/-- The columns an UPDATE assigns: all but the key. -/
def updateCols : List At :=
  d.cols.zipIdx.filter fun c => colWritable c.1 && !isKeyCol d c.2

/-- A column with its value. -/
def cellValue (get : ValueGet) (c : At) : Option (List Nat × VmsValue F) :=
  (textToValue dt (get c.2) c.1.vtype).map (c.1.name, ·)

/-- A key part: its column, with the key's value of that column. -/
def keyValue (get : ValueGet) (p : VmsKeyColumn) : Option (List Nat × VmsValue F) :=
  (keyPartCol d.cols p).bind fun j => (d.cols[j]?).bind fun c => cellValue dt get (c, j)

/-- `[column] = value`. -/
def sbAddCell (c : List Nat × VmsValue F) (sql : List Nat) : Option (List Nat) :=
  (sbAddIdent c.1 sql).bind fun sql => (sbAdd (wide " = ") sql).bind (sbAddValue dt c.2)

def quotedMessage (before name : List Nat) : List Nat := before ++ 39 :: (name ++ [39])

/-- `vms_dml_insert`, up to the call that sends the text. -/
def vmsDmlInsert (get : ValueGet) : Except DmlFault (List Nat) := do
  let sql ← fits ((sbAdd (wide "INSERT INTO ") []).bind fun sql =>
    (sbAddTable d.schema d.table sql).bind (sbAdd (wide " (")))
  let sql ← sbEach (wide ", ") some (fun _ => .silent) (fun c : At => sbAddIdent c.1.name) true
    (insertCols d get) sql
  if insertCols d get = [] ∨ dmlMaxParams < (insertCols d get).length then
    .error (.message (wide "insert: no writable columns or too many"))
  else do
    let sql ← fits (sbAdd (wide ") VALUES (") sql)
    let sql ← sbEach (wide ", ") (cellValue dt get)
      (fun c => .message (quotedMessage (wide "insert: bad value for ") c.1.name))
      (fun c => sbAddValue dt c.2) true (insertCols d get) sql
    fits (sbAdd (wide ")") sql)

/-- `vms_dml_update`. -/
def vmsDmlUpdate (keyGet get : ValueGet) : Except DmlFault (List Nat) := do
  let sql ← fits ((sbAdd (wide "UPDATE ") []).bind fun sql =>
    (sbAddTable d.schema d.table sql).bind (sbAdd (wide " SET ")))
  let sql ← sbEach (wide ", ") (cellValue dt get)
    (fun c => .message (quotedMessage (wide "update: bad value for ") c.1.name)) (sbAddCell dt) true
    (updateCols d) sql
  if updateCols d = [] then .error (.message (wide "update: nothing to set"))
  else do
    let sql ← fits (sbAdd (wide " WHERE ") sql)
    sbEach (wide " AND ") (keyValue dt d keyGet) (fun _ => .message (wide "update: bad key value"))
      (sbAddCell dt) true d.key.parts sql

/-- `vms_dml_delete`; a key column that is missing is no message. -/
def vmsDmlDelete (keyGet : ValueGet) : Except DmlFault (List Nat) := do
  let sql ← fits ((sbAdd (wide "DELETE FROM ") []).bind fun sql =>
    (sbAddTable d.schema d.table sql).bind (sbAdd (wide " WHERE ")))
  sbEach (wide " AND ") (keyValue dt d keyGet)
    (fun p => if keyPartCol d.cols p = none then .silent else .message (wide "delete: bad key value"))
    (sbAddCell dt) true d.key.parts sql

/-- What SQLite asks for. -/
inductive Request
  | insert (get : ValueGet)
  | update (keyGet get : ValueGet)
  | delete (keyGet : ValueGet)

/-- The statement that is sent, if one is. -/
def vmsDml : Request → Except DmlFault (List Nat)
  | .insert get => vmsDmlInsert dt d get
  | .update keyGet get => vmsDmlUpdate dt d keyGet get
  | .delete keyGet => vmsDmlDelete dt d keyGet

end Build

/-! ## The statement a request stands for -/

section Meaning

variable {F : Type} (dt : DoubleText F)

/-- The literal of a value. -/
def valueText : VmsValue F → List Nat
  | .int i => lldText i.val
  | .float f => dt.print f
  | .text t => strText (utf8ToWide t)
  | .null => wide "NULL"
  | .blob _ => wide "NULL"

/-- Its tokens: a text is the one token that decodes to it. -/
def valueToks : VmsValue F → List Tok
  | .int i => numToks (lldText i.val)
  | .float f => numToks (dt.print f)
  | .text t => [.str ((utf8Strict t).getD [])]
  | .null => [kw "NULL"]
  | .blob _ => [kw "NULL"]

/-- A value as the server has it. -/
def serverValue : VmsValue F → VmsValue F
  | .text t => .text (utf8ToWide t)
  | v => v

/-- What its literal stands for: in a text a backslash joins two lines. -/
def denoted : VmsValue F → VmsValue F
  | .text t => .text (joined (utf8ToWide t))
  | v => v

/-- **What the columns of the server make of a value**: it is converted to the SQL type of the column, so that a `bit`
    holds 1 for a 5.  NULL stays NULL, and there are no doubles that are not finite. -/
structure Storing (dt : DoubleText F) where
  store : List Nat → VmsValue F → VmsValue F
  null : ∀ name, store name .null = .null
  finite : ∀ name f g, store name (.float f) = .float g → dt.finite g = true → dt.finite f = true

/-- Columns that take every value as it is. -/
def Storing.plain : Storing dt := ⟨fun _ v => v, fun _ => rfl, fun _ f g h => by cases h; exact id⟩

/-- The name as the server sees it. -/
def serverCell (c : List Nat × VmsValue F) : List Nat × VmsValue F := (utf8ToWide c.1, c.2)

/-- **The statement a request stands for**; there is none when a value is not of its column's type or a key
    column is missing. -/
def intended (d : VmsDmlContext) : Request → Option (Dml (VmsValue F))
  | .insert get =>
    ((insertCols d get).mapM (cellValue dt get)).map fun row =>
      .insert (utf8ToWide d.schema) (utf8ToWide d.table) (row.map serverCell)
  | .update keyGet get =>
    ((updateCols d).mapM (cellValue dt get)).bind fun sets =>
    (d.key.parts.mapM (keyValue dt d keyGet)).map fun keys =>
      .update (utf8ToWide d.schema) (utf8ToWide d.table) (sets.map serverCell) (keys.map serverCell)
  | .delete keyGet =>
    (d.key.parts.mapM (keyValue dt d keyGet)).map fun keys =>
      .delete (utf8ToWide d.schema) (utf8ToWide d.table) (keys.map serverCell)

end Meaning

open List Option

/-! ## The text is the printed statement -/

/-- When it succeeds, the step appends this text, and the buffer does not overflow. -/
def Adds (f : List Nat → Option (List Nat)) (t : List Nat) : Prop :=
  ∀ sql out, f sql = some out → out = sql ++ t ∧ (sql.length < dmlSqlCap → out.length < dmlSqlCap)

theorem Adds.bind {f g : List Nat → Option (List Nat)} {a b : List Nat} (hf : Adds f a) (hg : Adds g b) :
    Adds (fun sql => (f sql).bind g) (a ++ b) := by
  intro sql out h
  obtain ⟨mid, hmid, hout⟩ := bind_eq_some_iff.mp h
  obtain ⟨rfl, hshort⟩ := hf sql mid hmid
  obtain ⟨rfl, hshort'⟩ := hg _ out hout
  exact ⟨append_assoc .., fun h => hshort' (hshort h)⟩

theorem appendW_adds (t : List Nat) : Adds (appendW dmlSqlCap t) t := by
  intro sql out h
  rw [appendW] at h
  split_ifs at h with hfull
  cases h
  refine ⟨rfl, fun _ => ?_⟩
  rw [length_append]
  omega

theorem sbAdd_adds {t : List Nat} (h : 0 ∉ t) : Adds (sbAdd t) t := by
  intro sql out hout
  rw [sbAdd, cstr_eq_self_iff.mpr h] at hout
  exact appendW_adds t sql out hout

theorem Adds.wide {cap : Nat} {name t : List Nat} {g : List Nat → List Nat → Option (List Nat)}
    (h : Adds (g (utf8ToWide name)) t) : Adds (fun sql => (wideName cap name).bind fun w => g w sql) t := by
  intro sql out hout
  obtain ⟨w, hw, hout⟩ := bind_eq_some_iff.mp hout
  rw [wideName_some hw] at hout
  exact h sql out hout

theorem sbAddIdent_adds (name : List Nat) : Adds (sbAddIdent name) (91 :: (utf8ToWide name ++ [93])) :=
  .wide (appendW_adds _)

/-- The C string converted has no NUL. -/
theorem zero_notMem_wide {t : List Nat} (h : 0 ∉ t) : 0 ∉ utf8ToWide t :=
  fun hw => h (mem_of_utf8ToWide (by decide) hw)

theorem zero_notMem_cstr (t : List Nat) : 0 ∉ cstr t := fun h => by
  simpa using mem_takeWhile_imp h

theorem zero_notMem_ident {n : List Nat} (h : ∀ c ∈ n, identChar c = true) : 0 ∉ n :=
  fun h0 => absurd (h 0 h0) (by decide)

theorem sbAddTable_adds {schema table : List Nat} (hs : ∀ c ∈ schema, identChar c = true)
    (ht : ∀ c ∈ table, identChar c = true) : Adds (sbAddTable schema table)
      (renderSegs (Dml.tableSegs (utf8ToWide schema) (utf8ToWide table))) := by
  have hname : ∀ {n : List Nat}, (∀ c ∈ n, identChar c = true) → Adds (sbAdd (utf8ToWide n)) (utf8ToWide n) :=
    fun h => sbAdd_adds (zero_notMem_wide (zero_notMem_ident h))
  have htext : renderSegs (Dml.tableSegs (utf8ToWide schema) (utf8ToWide table)) =
      wide "[" ++ (utf8ToWide schema ++ (wide "].[" ++ (utf8ToWide table ++ wide "]"))) := by
    have hdot : wide "].[" = 93 :: (wide "." ++ [91]) := by decide
    rw [hdot]
    simp [Dml.tableSegs, renderSegs, Seg.render, wide]
  rw [htext]
  exact (sbAdd_adds (by decide)).bind (.wide ((hname hs).bind ((sbAdd_adds (by decide)).bind
    (.wide ((hname ht).bind (sbAdd_adds (by decide)))))))

theorem sbAddUnits_adds : ∀ {us : List Nat}, 0 ∉ us → Adds (sbAddUnits us) (Delimited.double 39 us)
  | [], _ => fun sql out h => by
    cases h
    exact ⟨(append_nil _).symm, id⟩
  | u :: us, h => by
    rw [mem_cons, not_or] at h
    have ih := sbAddUnits_adds h.2
    by_cases hu : u = 39
    · subst hu
      rw [Delimited.double_cons_self]
      exact (sbAdd_adds (t := [39, 39]) (by decide)).bind ih
    · rw [Delimited.double_cons_ne hu]
      have hadds := (sbAdd_adds (t := [u]) (by simpa using h.1)).bind ih
      intro sql out hout
      rw [sbAddUnits, if_neg hu] at hout
      exact hadds sql out hout

section Text

variable {F : Type} {dt : DoubleText F}

/-- A value whose text, if it is one, has no NUL. -/
def CText : VmsValue F → Prop
  | .text t => 0 ∉ t
  | _ => True

theorem zero_notMem_lldText (i : Int) : 0 ∉ lldText i := fun h => by
  rcases mem_lldText h with h | h
  · cases h
  · cases h

theorem sbAddValue_adds {v : VmsValue F} (hv : CText v) : Adds (sbAddValue dt v) (valueText dt v) := by
  cases v with
  | null | blob b => exact sbAdd_adds (by decide)
  | int i =>
    have htake : (lldText i.val).take 23 = lldText i.val :=
      take_of_length_le (le_trans (lldText_length i) (by decide))
    intro sql out h
    rw [sbAddValue, htake] at h
    exact sbAdd_adds (zero_notMem_lldText i.val) sql out h
  | float f =>
    have htake : (dt.print f).take 39 = dt.print f := take_of_length_le (Nat.le_of_lt_succ (dt.print_length f))
    intro sql out h
    rw [sbAddValue, htake] at h
    exact sbAdd_adds (fun h0 => absurd (dt.print_ascii f 0 h0).1 (by decide)) sql out h
  | text t =>
    have hunits := sbAddUnits_adds (zero_notMem_wide hv)
    exact (sbAdd_adds (t := wide "N'") (by decide)).bind (hunits.bind (sbAdd_adds (by decide)))

variable {get : ValueGet} {x : List Nat × VmsValue F} {d : VmsDmlContext}

theorem cellValue_cText {c : At} (h : cellValue dt get c = some x) : x.1 = c.1.name ∧ CText x.2 := by
  obtain ⟨v, hv, rfl⟩ := map_eq_some_iff.mp h
  refine ⟨rfl, ?_⟩
  unfold textToValue at hv
  split at hv
  · cases hv
    trivial
  · split at hv
    · obtain ⟨i, _, rfl⟩ := map_eq_some_iff.mp hv
      trivial
    · obtain ⟨f, _, rfl⟩ := map_eq_some_iff.mp hv
      trivial
    · cases hv
      exact zero_notMem_cstr _

theorem keyValue_cText {p : VmsKeyColumn} (h : keyValue dt d get p = some x) : CText x.2 := by
  obtain ⟨j, _, h⟩ := bind_eq_some_iff.mp h
  obtain ⟨c, _, h⟩ := bind_eq_some_iff.mp h
  exact (cellValue_cText h).2

theorem sbAddCell_adds {c : List Nat × VmsValue F} (hc : CText c.2) :
    Adds (sbAddCell dt c) (renderSegs (Dml.eqSegs (valueText dt) (serverCell c))) := by
  have hadds := (sbAddIdent_adds c.1).bind ((sbAdd_adds (t := wide " = ") (by decide)).bind
    (show Adds (sbAddValue dt c.2) _ from sbAddValue_adds hc))
  have htext : renderSegs (Dml.eqSegs (valueText dt) (serverCell c)) =
      91 :: (utf8ToWide c.1 ++ [93]) ++ (wide " = " ++ valueText dt c.2) := by
    simp [Dml.eqSegs, serverCell, renderSegs, Seg.render]
  rw [htext]
  exact hadds

theorem fits_ok {α : Type} {o : Option α} {a : α} : fits o = .ok a ↔ o = some a := by
  cases o <;> simp [fits]

/-- The text of a list behind other items. -/
def later (sep : List Nat) (segs : List (List Seg)) : List Seg :=
  if segs = [] then [] else .text sep :: joinSegs sep segs

theorem joinSegs_cons (sep : List Nat) (a : List Seg) (l : List (List Seg)) :
    joinSegs sep (a :: l) = a ++ later sep l := by
  cases l with
  | nil | cons b l => simp [joinSegs, later]

/-- **The loops** prepare every value and write them with the separator between them. -/
theorem sbEach_ok {α β : Type} {sep : List Nat} {value : α → Option β} {fault : α → DmlFault}
    {write : β → List Nat → Option (List Nat)} {g : β → List Seg} (hsep : 0 ∉ sep) :
    ∀ {l : List α} {first : Bool} {sql out : List Nat},
      (∀ a ∈ l, ∀ b, value a = some b → Adds (write b) (renderSegs (g b))) →
      sbEach sep value fault write first l sql = .ok out → ∃ bs, l.mapM value = some bs ∧
        out = sql ++ renderSegs (if first then joinSegs sep (bs.map g) else later sep (bs.map g)) ∧
        (sql.length < dmlSqlCap → out.length < dmlSqlCap)
  | [], first, sql, out, _, h => by
    cases h
    exact ⟨[], rfl, by cases first <;> simp [joinSegs, later, renderSegs], id⟩
  | a :: l, first, sql, out, hwrite, h => by
    rw [sbEach] at h
    cases hb : value a with
    | none => simp [hb] at h
    | some b =>
      simp only [hb, bind_ok, fits_ok] at h
      obtain ⟨s₁, h₁, s₂, h₂, h⟩ := h
      obtain ⟨bs, hbs, rfl, hshort⟩ := sbEach_ok hsep ((forall_mem_cons.mp hwrite).2) h
      obtain ⟨rfl, hshort₂⟩ := hwrite a mem_cons_self b hb s₁ s₂ h₂
      have hfirst : s₁ = sql ++ (if first then [] else sep) ∧ (sql.length < dmlSqlCap → s₁.length < dmlSqlCap) := by
        cases first with
        | true =>
          cases h₁
          simp
        | false => exact sbAdd_adds hsep sql s₁ h₁
      obtain ⟨rfl, hshort₁⟩ := hfirst
      refine ⟨b :: bs, by simp [hb, hbs], ?_, fun h => hshort (hshort₂ (hshort₁ h))⟩
      cases first with
      | true => simp [joinSegs_cons, renderSegs_append]
      | false =>
        have hlater : later sep ((b :: bs).map g) = .text sep :: (g b ++ later sep (bs.map g)) := by
          rw [later, if_neg (by simp), map_cons, joinSegs_cons]
        rw [hlater]
        simp [renderSegs_append, renderSegs_cons, Seg.render]

/-- The beginning of a statement. -/
theorem head_text {a b : String} {s : List Nat} (ha : 0 ∉ wide a) (hb : 0 ∉ wide b)
    (hs : ((sbAdd (wide a) []).bind fun sql => (sbAddTable d.schema d.table sql).bind (sbAdd (wide b))) = some s) :
    s = wide a ++ (renderSegs (Dml.tableSegs (utf8ToWide d.schema) (utf8ToWide d.table)) ++ wide b) ∧
      s.length < dmlSqlCap := by
  obtain ⟨rfl, hshort⟩ := ((sbAdd_adds ha).bind ((sbAddTable_adds d.schema_ident d.table_ident).bind
    (sbAdd_adds hb))) [] s hs
  exact ⟨by simp, hshort (by decide)⟩

variable {fault : At → DmlFault}

/-- The names of an INSERT. -/
theorem names_text {cs : List At} {sql out : List Nat}
    (h : sbEach (wide ", ") some fault (fun c : At => sbAddIdent c.1.name) true cs sql = .ok out) :
    out = sql ++ renderSegs (joinSegs (wide ", ") (cs.map fun c => [.name (utf8ToWide c.1.name)])) ∧
      (sql.length < dmlSqlCap → out.length < dmlSqlCap) := by
  obtain ⟨cs', hcs, rfl, hshort⟩ := sbEach_ok (g := fun c : At => [.name (utf8ToWide c.1.name)]) (by decide)
    (fun a _ b hb => by
      cases hb
      simpa [renderSegs, Seg.render] using sbAddIdent_adds a.1.name) h
  obtain rfl : cs' = cs := by
    simpa using (mapM_map_iff (u := id) (k := id) hcs).mpr fun a _ b hb => (some.inj hb).symm
  exact ⟨rfl, hshort⟩

/-- Its values. -/
theorem values_text {cs : List At} {sql out : List Nat}
    (h : sbEach (wide ", ") (cellValue dt get) fault (fun c => sbAddValue dt c.2) true cs sql = .ok out) :
    ∃ row, cs.mapM (cellValue dt get) = some row ∧
      out = sql ++ renderSegs (joinSegs (wide ", ") (row.map fun c => [.text (valueText dt c.2)])) ∧
      (sql.length < dmlSqlCap → out.length < dmlSqlCap) := by
  refine sbEach_ok (g := fun c : List Nat × VmsValue F => [.text (valueText dt c.2)]) (by decide) (fun a _ b hb => ?_) h
  have hadds : Adds (sbAddValue dt b.2) _ := sbAddValue_adds (cellValue_cText hb).2
  simpa [renderSegs, Seg.render] using hadds

/-- **The text that is sent is the printed statement**, and it is shorter than the buffer. -/
theorem vmsDml_text {req : Request} {sql : List Nat} (h : vmsDml dt d req = .ok sql) :
    ∃ stmt, intended dt d req = some stmt ∧ sql = stmt.render (valueText dt) ∧ sql.length < dmlSqlCap := by
  cases req with
  | insert get =>
    simp only [vmsDml, vmsDmlInsert, bind_ok, fits_ok] at h
    obtain ⟨s₁, h₁, s₂, h₂, h⟩ := h
    split_ifs at h
    simp only [bind_ok, fits_ok] at h
    obtain ⟨s₃, h₃, s₄, h₄, h₅⟩ := h
    obtain ⟨rfl, b₁⟩ := head_text (by decide) (by decide) h₁
    obtain ⟨rfl, b₂⟩ := names_text h₂
    obtain ⟨rfl, b₃⟩ := sbAdd_adds (by decide) _ _ h₃
    obtain ⟨row, hrow, rfl, b₄⟩ := values_text h₄
    obtain ⟨rfl, b₅⟩ := sbAdd_adds (by decide) _ _ h₅
    have hnames : (row.map serverCell).map (fun c => [Seg.name c.1]) =
        (insertCols d get).map fun c => [Seg.name (utf8ToWide c.1.name)] := by
      rw [List.map_map]
      exact (mapM_map_iff hrow).mpr fun a _ b hb => by simp [serverCell, (cellValue_cText hb).1]
    have hvalues : (row.map serverCell).map (fun c => [Seg.text (valueText dt c.2)]) =
        row.map fun c => [Seg.text (valueText dt c.2)] := by
      rw [List.map_map]
      rfl
    refine ⟨.insert (utf8ToWide d.schema) (utf8ToWide d.table) (row.map serverCell), by simp [intended, hrow], ?_,
      b₅ (b₄ (b₃ (b₂ b₁)))⟩
    simp [Dml.render, Dml.segs, hnames, hvalues, renderSegs_cons, renderSegs_append, Seg.render, renderSegs_nil]
  | update keyGet get =>
    simp only [vmsDml, vmsDmlUpdate, bind_ok, fits_ok] at h
    obtain ⟨s₁, h₁, s₂, h₂, h⟩ := h
    split_ifs at h
    simp only [bind_ok, fits_ok] at h
    obtain ⟨s₃, h₃, h₄⟩ := h
    obtain ⟨rfl, b₁⟩ := head_text (by decide) (by decide) h₁
    obtain ⟨sets, hsets, rfl, b₂⟩ := sbEach_ok (g := fun c => Dml.eqSegs (valueText dt) (serverCell c))
      (by decide) (fun a _ b hb => sbAddCell_adds (cellValue_cText hb).2) h₂
    obtain ⟨rfl, b₃⟩ := sbAdd_adds (by decide) _ _ h₃
    obtain ⟨keys, hkeys, rfl, b₄⟩ := sbEach_ok (g := fun c => Dml.eqSegs (valueText dt) (serverCell c))
      (by decide) (fun a _ b hb => sbAddCell_adds (keyValue_cText hb)) h₄
    refine ⟨.update (utf8ToWide d.schema) (utf8ToWide d.table) (sets.map serverCell) (keys.map serverCell),
      by simp [intended, hsets, hkeys], ?_, b₄ (b₃ (b₂ b₁))⟩
    simp [Dml.render, Dml.segs, comp_def, renderSegs_cons, renderSegs_append, Seg.render]
  | delete keyGet =>
    simp only [vmsDml, vmsDmlDelete, bind_ok, fits_ok] at h
    obtain ⟨s₁, h₁, h₂⟩ := h
    obtain ⟨rfl, b₁⟩ := head_text (by decide) (by decide) h₁
    obtain ⟨keys, hkeys, rfl, b₂⟩ := sbEach_ok (g := fun c => Dml.eqSegs (valueText dt) (serverCell c))
      (by decide) (fun a _ b hb => sbAddCell_adds (keyValue_cText hb)) h₂
    refine ⟨.delete (utf8ToWide d.schema) (utf8ToWide d.table) (keys.map serverCell),
      by simp [intended, hkeys], ?_, b₂ b₁⟩
    simp [Dml.render, Dml.segs, comp_def, renderSegs_cons, renderSegs_append, Seg.render]

/-! ## The text is read as the statement -/

/-- A value the server can be given: a finite double, a valid text. -/
def Proper (dt : DoubleText F) : VmsValue F → Prop
  | .float f => dt.finite f = true
  | .text t => (utf8Strict t).isSome = true
  | _ => True

theorem numeral_decimal (n : Nat) : Numeral (decimal n) :=
  ⟨decimal n, [], [], (append_nil _).symm, decimal_ne_nil n, fun _ h => asciiDigit_of_mem_decimal h, .inl rfl,
    .inl rfl⟩

theorem literal_lld (i : Int) : Literal (lldText i) (numToks (lldText i)) := by
  unfold lldText
  split_ifs with h
  · exact literal_neg (numeral_decimal i.natAbs)
  · exact literal_num (numeral_decimal i.natAbs)

/-- **Every value is printed as a literal**; a text as the one token that decodes to it. -/
theorem literal_value {v : VmsValue F} (hv : Proper dt v) : Literal (valueText dt v) (valueToks dt v) := by
  cases v with
  | null | blob b => exact literal_null
  | int i => exact literal_lld i.val
  | float f =>
    obtain ⟨t, ht, hprint⟩ := dt.numeral f hv
    show Literal (dt.print f) (numToks (dt.print f))
    rcases hprint with h | h <;> rw [h]
    · exact literal_num ht
    · exact literal_neg ht
  | text t =>
    obtain ⟨w, hw⟩ := isSome_iff_exists.mp hv
    have hwide : utf8ToWide t = w := by
      unfold utf8Strict at hw
      split_ifs at hw
      exact some.inj hw
    show Literal (strText (utf8ToWide t)) [.str ((utf8Strict t).getD [])]
    rw [hw, hwide]
    exact literal_str w

/-- The values of a request: texts are valid UTF-8 without NUL, and doubles finite. -/
def ValidGet (dt : DoubleText F) (cols : List VmsMetaColumn) (get : ValueGet) : Prop :=
  ∀ i c t, cols[i]? = some c → get i = some t →
    match c.vtype with
    | .int64 => True
    | .float64 => ∀ f, dt.strtod t = some f → dt.finite f = true
    | _ => 0 ∉ t ∧ (utf8Strict t).isSome = true

def Request.Valid (dt : DoubleText F) (cols : List VmsMetaColumn) : Request → Prop
  | .insert get => ValidGet dt cols get
  | .update keyGet get => ValidGet dt cols keyGet ∧ ValidGet dt cols get
  | .delete keyGet => ValidGet dt cols keyGet

/-- A cell the server can read: its name closes no bracket and its value is proper. -/
def ProperCell (dt : DoubleText F) (c : List Nat × VmsValue F) : Prop := 93 ∉ c.1 ∧ Proper dt c.2

variable {cols : List VmsMetaColumn}

theorem cellValue_proper (hcols : ∀ c ∈ cols, 93 ∉ c.name)
    (hget : ValidGet dt cols get) {c : At} (hc : cols[c.2]? = some c.1)
    (h : cellValue dt get c = some x) : ProperCell dt (serverCell x) := by
  obtain ⟨v, hv, rfl⟩ := map_eq_some_iff.mp h
  refine ⟨fun h93 => hcols c.1 (mem_of_getElem? hc) (mem_of_utf8ToWide (by decide) h93), ?_⟩
  have hvalid := hget c.2 c.1
  unfold textToValue at hv
  split at hv
  · cases hv
    trivial
  · rename_i t ht
    replace hvalid := hvalid t hc ht
    split at hv
    · obtain ⟨i, _, rfl⟩ := map_eq_some_iff.mp hv
      trivial
    · rename_i hty
      rw [hty] at hvalid
      obtain ⟨f, hf, rfl⟩ := map_eq_some_iff.mp hv
      exact hvalid f hf
    · rename_i hint hfloat
      cases hv
      have htext : 0 ∉ t ∧ (utf8Strict t).isSome = true := by
        revert hvalid
        cases hty : c.1.vtype <;> simp_all
      show (utf8Strict (cstr t)).isSome = true
      rw [cstr_eq_self_iff.mpr htext.1]
      exact htext.2

theorem keyValue_proper (hcols : ∀ c ∈ d.cols, 93 ∉ c.name) (hget : ValidGet dt d.cols get)
    {p : VmsKeyColumn} (h : keyValue dt d get p = some x) : ProperCell dt (serverCell x) := by
  obtain ⟨j, _, h⟩ := bind_eq_some_iff.mp h
  obtain ⟨c, hc, h⟩ := bind_eq_some_iff.mp h
  exact cellValue_proper hcols hget (c := (c, j)) hc h

theorem getElem?_of_mem_zipIdx {p : At → Bool} {c : At} (h : c ∈ cols.zipIdx.filter p) : cols[c.2]? = some c.1 :=
  mem_zipIdx_iff_getElem?.mp (mem_filter.mp h).1

theorem intended_proper (hcols : ∀ c ∈ d.cols, 93 ∉ c.name) {req : Request}
    (hreq : req.Valid dt d.cols) {stmt : Dml (VmsValue F)} (h : intended dt d req = some stmt) :
    (∀ c ∈ stmt.cells, ProperCell dt c) ∧
      stmt.names = [utf8ToWide d.schema, utf8ToWide d.table] ++ stmt.cells.map Prod.fst := by
  have hcells : ∀ {get : ValueGet} {p : At → Bool} {row : List (List Nat × VmsValue F)}, ValidGet dt d.cols get →
      (d.cols.zipIdx.filter p).mapM (cellValue dt get) = some row → ∀ c ∈ row.map serverCell, ProperCell dt c := by
    intro get p row hget hrow c hc
    obtain ⟨x, hx, rfl⟩ := mem_map.mp hc
    obtain ⟨a, ha, hax⟩ := mapM_mem hrow x hx
    exact cellValue_proper hcols hget (getElem?_of_mem_zipIdx ha) hax
  have hkeys : ∀ {get : ValueGet} {keys : List (List Nat × VmsValue F)}, ValidGet dt d.cols get →
      d.key.parts.mapM (keyValue dt d get) = some keys → ∀ c ∈ keys.map serverCell, ProperCell dt c := by
    intro get keys hget hrow c hc
    obtain ⟨x, hx, rfl⟩ := mem_map.mp hc
    obtain ⟨p, -, hpx⟩ := mapM_mem hrow x hx
    exact keyValue_proper hcols hget hpx
  cases req with
  | insert get =>
    obtain ⟨row, hrow, rfl⟩ := map_eq_some_iff.mp h
    exact ⟨hcells hreq hrow, rfl⟩
  | update keyGet get =>
    obtain ⟨sets, hsets, h⟩ := bind_eq_some_iff.mp h
    obtain ⟨keys, hkeys', rfl⟩ := map_eq_some_iff.mp h
    refine ⟨fun c hc => ?_, rfl⟩
    rcases mem_append.mp hc with hc | hc
    · exact hcells hreq.2 hsets c hc
    · exact hkeys hreq.1 hkeys' c hc
  | delete keyGet =>
    obtain ⟨keys, hkeys', rfl⟩ := map_eq_some_iff.mp h
    exact ⟨hkeys hreq hkeys', rfl⟩

theorem bracket_notMem_ident {n : List Nat} (h : ∀ c ∈ n, identChar c = true) : 93 ∉ utf8ToWide n :=
  fun h93 => absurd (h 93 (mem_of_utf8ToWide (by decide) h93)) (by decide)

/-- **Values cannot escape their literals**: a statement that is sent is read as the one the request stands
    for, with one equality for each part of the key, and a statement that does not fit the buffer is not
    sent. -/
theorem dml_lexes (hcols : ∀ c ∈ d.cols, 93 ∉ c.name) {req : Request} (hreq : req.Valid dt d.cols) :
    (∀ sql, vmsDml dt d req = .ok sql →
      ∃ stmt, intended dt d req = some stmt ∧ lex .ascii sql = stmt.tokens (valueToks dt)) ∧
    (∀ stmt, intended dt d req = some stmt → dmlSqlCap ≤ (stmt.render (valueText dt)).length →
      ∀ sql, vmsDml dt d req ≠ .ok sql) := by
  refine ⟨fun sql h => ?_, fun stmt hstmt hlong sql h => ?_⟩
  · obtain ⟨stmt, hstmt, rfl, _⟩ := vmsDml_text h
    obtain ⟨hcells, hnames⟩ := intended_proper hcols hreq hstmt
    refine ⟨stmt, hstmt, Dml.lex_dml stmt (fun c hc => literal_value (hcells c hc).2) fun n hn => ?_⟩
    rw [hnames] at hn
    simp only [mem_append, mem_cons, not_mem_nil, or_false, List.mem_map] at hn
    rcases hn with (rfl | rfl) | ⟨c, hc, rfl⟩
    · exact bracket_notMem_ident d.schema_ident
    · exact bracket_notMem_ident d.table_ident
    · exact (hcells c hc).1
  · obtain ⟨stmt', hstmt', rfl, hshort⟩ := vmsDml_text h
    obtain rfl : stmt = stmt' := some.inj (hstmt.symm.trans hstmt')
    omega

/-- A table of notes by number. -/
def notes : VmsDmlContext where
  schema := wide "dbo"
  table := wide "notes"
  cols := [{ name := wide "id", typeName := wide "int", vtype := .int64 },
    { name := wide "note", typeName := wide "nvarchar", vtype := .text }]
  key := ⟨[⟨wide "id", .int64⟩]⟩
  schema_ident := by decide
  table_ident := by decide
  key_ne := by decide

/-- Note 7 gets a text with a quote. -/
def quotedNote : Request :=
  .update (fun i => if i = 0 then some (wide "7") else none) (fun i => if i = 1 then some (wide "it's") else none)

theorem dml_lexes_quotedNote : (∀ c ∈ notes.cols, 93 ∉ c.name) ∧ quotedNote.Valid twoDoubles notes.cols ∧
      ∃ stmt, intended twoDoubles notes quotedNote = some stmt ∧
        lex .ascii (wide "UPDATE [dbo].[notes] SET [note] = N'it''s' WHERE [id] = 7") =
          stmt.tokens (valueToks twoDoubles) := by
  have hcols : ∀ c ∈ notes.cols, 93 ∉ c.name := by decide
  have hvalid : quotedNote.Valid twoDoubles notes.cols := by
    refine ⟨fun i c t hc ht => ?_, fun i c t hc ht => ?_⟩
    · obtain ⟨rfl, -⟩ : i = 0 ∧ wide "7" = t := by simpa using ht
      cases hc
      trivial
    · obtain ⟨rfl, rfl⟩ : i = 1 ∧ wide "it's" = t := by simpa using ht
      cases hc
      exact ⟨by decide, by decide⟩
  exact ⟨hcols, hvalid, (dml_lexes hcols hvalid).1 _ (by decide)⟩

end Text

end VirtualMssql.DmlSql
