/-
  TABLE INFO — what `virtualmssql_table_info` returns, against its declaration.

  The function is declared with fourteen columns behind the hidden ones, and its rows come from one SELECT over
  the catalog with fourteen expressions.  Nothing but the POSITION links the two: `si_column` hands out the
  remote value of the same number.

  `Catalog` is a state of the catalog views with the keys SQL Server maintains.  The SELECT is modelled clause
  by clause (`fromClause`, `whereClause`, `selectItems`), each expression beside its text, and `selectText` says
  that these texts are the statement `si_build_sql` sends.  Then, for every catalog:

  * a column has a row for EVERY index it is part of, and one if it is part of none (`rows_of_column`): the join
    with `sys.index_columns` is not restricted to the primary key, the condition on `pi` drops nothing;
  * `notnull` holds `is_nullable`, and from `ordinal` on the values are one place off.

  So the rows are what the declaration says exactly when there are none (`table_info_iff`).
-/
import VirtualMssql.Schema
import VirtualMssql.Lib.Join
import VirtualMssql.Lib.Query
import Mathlib.Data.List.Nodup

namespace VirtualMssql.TableInfo

open TSql Schema Join Query List

/-! ## The catalog -/

/-- `sys.columns`. -/
structure SysColumn where
  objectId : Int
  columnId : Int
  name : List Nat
  userTypeId : Int
  isNullable : Bool
  defaultObjectId : Int
  maxLength : Int
  precision : Int
  scale : Int
  isIdentity : Bool
  isComputed : Bool
  deriving DecidableEq

/-- `sys.types`. -/
structure SysType where
  userTypeId : Int
  name : List Nat
  deriving DecidableEq

/-- `sys.objects`. -/
structure SysObject where
  objectId : Int
  schemaId : Int
  name : List Nat
  deriving DecidableEq

/-- `sys.schemas`. -/
structure SysSchema where
  schemaId : Int
  name : List Nat
  deriving DecidableEq

/-- `sys.indexes`. -/
structure SysIndex where
  objectId : Int
  indexId : Int
  isPrimaryKey : Bool
  deriving DecidableEq

/-- `sys.index_columns`. -/
structure SysIndexColumn where
  objectId : Int
  indexId : Int
  columnId : Int
  keyOrdinal : Int
  deriving DecidableEq

/-- **A state of the catalog.**  `same` is equality of names under the catalog's collation, and
    `objectDefinition` the function OBJECT_DEFINITION.  A column has one type and one object, an object one
    schema; a name means at most one schema, and at most one object in a schema. -/
structure Catalog where
  columns : List SysColumn
  types : List SysType
  objects : List SysObject
  schemas : List SysSchema
  indexes : List SysIndex
  indexColumns : List SysIndexColumn
  objectDefinition : Int → Option (List Nat)
  same : List Nat → List Nat → Bool
  columns_nodup : columns.Nodup
  columns_key : ∀ c ∈ columns, ∀ c' ∈ columns, c.objectId = c'.objectId → c.columnId = c'.columnId → c = c'
  types_one : ∀ c ∈ columns, ∃ t, types.filter (fun t => t.userTypeId == c.userTypeId) = [t]
  objects_one : ∀ c ∈ columns, ∃ o, objects.filter (fun o => o.objectId == c.objectId) = [o]
  schemas_one : ∀ o ∈ objects, ∃ s, schemas.filter (fun s => s.schemaId == o.schemaId) = [s]
  indexes_key : ∀ x ∈ indexColumns,
    (indexes.filter fun i => i.objectId == x.objectId && i.indexId == x.indexId).length ≤ 1
  schema_named : ∀ q, ∀ s ∈ schemas, ∀ s' ∈ schemas, same s.name q = true → same s'.name q = true → s = s'
  object_named : ∀ q, ∀ o ∈ objects, ∀ o' ∈ objects, o.schemaId = o'.schemaId →
    same o.name q = true → same o'.name q = true → o = o'

variable (db : Catalog) (schema table : List Nat)

/-! ## What the declaration says -/

/-- The declared columns behind the hidden ones. -/
inductive InfoColumn
  | cid | name | type | notnull | dfltValue | pk | ordinal | maxLength | precision | scale | isNullable | isIdentity
  | isComputed | hiddenFlags
  deriving DecidableEq

/-- `k_si_decl[SI_TABLE_INFO]`, without `connection`, `schema_name` and `table_name`. -/
def siDecl : List InfoColumn :=
  [.cid, .name, .type, .notnull, .dfltValue, .pk, .ordinal, .maxLength, .precision, .scale, .isNullable, .isIdentity,
    .isComputed, .hiddenFlags]

/-- `k_si_hidden[SI_TABLE_INFO]`. -/
def siHidden : Nat := 3

def bit (b : Bool) : SqliteValue := .integer (if b then 1 else 0)

def textOrNull : Option (List Nat) → SqliteValue
  | none => .null
  | some t => .text t

/-- A column of an index of its table. -/
def covers (c : SysColumn) (x : SysIndexColumn) : Bool := x.objectId == c.objectId && x.columnId == c.columnId

/-- The row of `sys.indexes` an index column belongs to. -/
def ofIndex (x : SysIndexColumn) (i : SysIndex) : Bool := i.objectId == x.objectId && i.indexId == x.indexId

/-- The position in the primary key, or 0. -/
def Catalog.pkPosition (c : SysColumn) : Int :=
  match db.indexColumns.find? fun x => covers c x && db.indexes.any fun i => ofIndex x i && i.isPrimaryKey with
  | none => 0
  | some x => x.keyOrdinal

/-- **What each declared column is to hold** for a column of the table. -/
def Catalog.means (c : SysColumn) : InfoColumn → SqliteValue
  | .cid => .integer (c.columnId - 1)
  | .name => .text c.name
  | .type => textOrNull ((db.types.find? fun t => t.userTypeId == c.userTypeId).map SysType.name)
  | .notnull => bit (!c.isNullable)
  | .dfltValue => textOrNull (db.objectDefinition c.defaultObjectId)
  | .pk => .integer (db.pkPosition c)
  | .ordinal => .integer c.columnId
  | .maxLength => .integer c.maxLength
  | .precision => .integer c.precision
  | .scale => .integer c.scale
  | .isNullable => bit c.isNullable
  | .isIdentity => bit c.isIdentity
  | .isComputed => bit c.isComputed
  | .hiddenFlags => .integer (if c.isComputed then 2 else 0)

/-- The column is one of the named table. -/
def Catalog.inTable (c : SysColumn) : Bool :=
  db.objects.any fun o => o.objectId == c.objectId && db.same o.name table &&
    db.schemas.any fun s => s.schemaId == o.schemaId && db.same s.name schema

/-- The columns of the named table. -/
def Catalog.columnsOf : List SysColumn := db.columns.filter (db.inTable schema table)

/-! ## The SELECT -/

/-- A row of the FROM clause: c, t, o, s, pkic, pi. -/
abbrev Joined := ((((SysColumn × SysType) × SysObject) × SysSchema) × Option SysIndexColumn) × Option SysIndex

variable (j : Joined)

def colOf : SysColumn := j.1.1.1.1.1
def typeOf : SysType := j.1.1.1.1.2
def objectOf : SysObject := j.1.1.1.2
def schemaOf : SysSchema := j.1.1.2
def pkicOf : Option SysIndexColumn := j.1.2

/-- `ON pi.object_id = pkic.object_id AND pi.index_id = pkic.index_id AND pi.is_primary_key = 1`; no index equals
    NULL. -/
def onPi (x : Option SysIndexColumn) (i : SysIndex) : Bool := x.any fun x => ofIndex x i && i.isPrimaryKey

/-- `sys.columns c JOIN sys.types t`. -/
def Catalog.typed : List (SysColumn × SysType) := join (fun c t => t.userTypeId == c.userTypeId) db.columns db.types

/-- `JOIN sys.objects o`. -/
def Catalog.owned : List ((SysColumn × SysType) × SysObject) :=
  join (fun p o => o.objectId == p.1.objectId) db.typed db.objects

/-- `JOIN sys.schemas s`. -/
def Catalog.inner : List (((SysColumn × SysType) × SysObject) × SysSchema) :=
  join (fun p s => s.schemaId == p.2.schemaId) db.owned db.schemas

/-- `LEFT JOIN sys.index_columns pkic`. -/
def Catalog.indexed : List ((((SysColumn × SysType) × SysObject) × SysSchema) × Option SysIndexColumn) :=
  leftJoin (fun p x => covers p.1.1.1 x) db.inner db.indexColumns

/-- `LEFT JOIN sys.indexes pi`: the FROM clause. -/
def Catalog.fromClause : List Joined := leftJoin (fun p i => onPi p.2 i) db.indexed db.indexes

/-- `WHERE s.name = N'%s' AND o.name = N'%s'`. -/
def Catalog.whereClause : Bool := db.same (schemaOf j).name schema && db.same (objectOf j).name table

/-- `ORDER BY c.column_id`. -/
def orderBy (a b : Joined) : Bool := (colOf a).columnId ≤ (colOf b).columnId

/-- The select list: the text of each expression and its value. -/
def Catalog.selectItems : List (String × (Joined → SqliteValue)) :=
  [("c.column_id - 1", fun j => .integer ((colOf j).columnId - 1)),
    ("c.name", fun j => .text (colOf j).name),
    ("t.name", fun j => .text (typeOf j).name),
    ("c.is_nullable", fun j => bit (colOf j).isNullable),
    ("OBJECT_DEFINITION(c.default_object_id)", fun j => textOrNull (db.objectDefinition (colOf j).defaultObjectId)),
    ("COALESCE(pkic.key_ordinal, 0)", fun j => .integer (((pkicOf j).map SysIndexColumn.keyOrdinal).getD 0)),
    ("CASE WHEN c.is_computed = 1 THEN 2 ELSE 0 END", fun j => .integer (if (colOf j).isComputed then 2 else 0)),
    ("c.column_id", fun j => .integer (colOf j).columnId),
    ("c.max_length", fun j => .integer (colOf j).maxLength),
    ("c.precision", fun j => .integer (colOf j).precision),
    ("c.scale", fun j => .integer (colOf j).scale),
    ("c.is_nullable", fun j => bit (colOf j).isNullable),
    ("c.is_identity", fun j => bit (colOf j).isIdentity),
    ("c.is_computed", fun j => bit (colOf j).isComputed)]

/-- **The statement sent** is this SELECT: its list in this order, and these joins. -/
theorem selectText : (siParts .tableInfo).1 =
    wide "SELECT " ++ (wide ", ").intercalate (db.selectItems.map fun i => wide i.1) ++ wide (" FROM sys.columns c" ++
      " JOIN sys.types t ON t.user_type_id = c.user_type_id JOIN sys.objects o ON o.object_id = c.object_id" ++
      " JOIN sys.schemas s ON s.schema_id = o.schema_id" ++
      " LEFT JOIN sys.index_columns pkic   ON pkic.object_id = c.object_id AND pkic.column_id = c.column_id" ++
      " LEFT JOIN sys.indexes pi   ON pi.object_id = pkic.object_id AND pi.index_id = pkic.index_id" ++
      "  AND pi.is_primary_key = 1 WHERE s.name = N'") := by
  simp only [siParts, Catalog.selectItems, wide, map_cons, map_nil, String.toList_append]
  repeat rw [String.toList_ofList]
  decide +kernel

/-- **An answer of the server**: the rows of the statement, in an order by column. -/
def Selected (out : List Joined) : Prop := Answer db.fromClause (db.whereClause schema table) orderBy 0 none out

/-- `si_column`. -/
def siColumn (row : List SqliteValue) (col : Nat) : SqliteValue :=
  if col < siHidden then .null else row.getD (col - siHidden) .null

/-- The values SQLite gets for the declared columns of a row. -/
def Catalog.shown : List SqliteValue :=
  (List.range siDecl.length).map fun k => siColumn (db.selectItems.map fun i => i.2 j) (siHidden + k)

/-- **The rows are what the declaration says**: one for each column of the table, every declared column holding
    what it means. -/
def Matches (out : List Joined) : Prop :=
  (out.map db.shown).Perm ((db.columnsOf schema table).map fun c => siDecl.map (db.means c))

/-! ## The rows of the statement -/

variable {db} {schema table}

/-- What a row of the inward joins is made of. -/
theorem mem_inner {p : ((SysColumn × SysType) × SysObject) × SysSchema} (h : p ∈ db.inner) :
    p.1.1.1 ∈ db.columns ∧ (p.1.1.2 ∈ db.types ∧ p.1.1.2.userTypeId = p.1.1.1.userTypeId) ∧
      (p.1.2 ∈ db.objects ∧ p.1.2.objectId = p.1.1.1.objectId) ∧ p.2 ∈ db.schemas ∧ p.2.schemaId = p.1.2.schemaId := by
  obtain ⟨h, hs, hson⟩ := mem_join.mp h
  obtain ⟨h, ho, hoon⟩ := mem_join.mp h
  obtain ⟨hc, ht, hton⟩ := mem_join.mp h
  exact ⟨hc, ⟨ht, beq_iff_eq.mp hton⟩, ⟨ho, beq_iff_eq.mp hoon⟩, hs, beq_iff_eq.mp hson⟩

variable {j} {c : SysColumn} {out : List Joined}

theorem inner_of_mem (h : j ∈ db.fromClause) : j.1.1 ∈ db.inner := fst_mem_of_mem_leftJoin (fst_mem_of_mem_leftJoin h)

theorem eq_of_filter_eq {α : Type} {l : List α} {p : α → Bool} {x a : α} (h : l.filter p = [x]) (ha : a ∈ l)
    (hp : p a = true) : a = x :=
  mem_singleton.mp (h ▸ mem_filter.mpr ⟨ha, hp⟩)

theorem inTable_iff : db.inTable schema table c = true ↔
    ∃ o ∈ db.objects, o.objectId = c.objectId ∧ db.same o.name table = true ∧
      ∃ s ∈ db.schemas, s.schemaId = o.schemaId ∧ db.same s.name schema = true := by
  simp [Catalog.inTable, and_assoc]

/-- **The WHERE clause keeps the columns of the named table**: a column has one object, and that one schema. -/
theorem whereClause_eq (h : j ∈ db.fromClause) :
    db.whereClause schema table j = db.inTable schema table (colOf j) := by
  obtain ⟨hc, -, ⟨ho, hoid⟩, hs, hsid⟩ := mem_inner (inner_of_mem h)
  rw [Bool.eq_iff_iff, inTable_iff, Catalog.whereClause, Bool.and_eq_true]
  constructor
  · rintro ⟨hsname, honame⟩
    exact ⟨objectOf j, ho, hoid, honame, schemaOf j, hs, hsid, hsname⟩
  · rintro ⟨o, ho', hoid', honame, s, hs', hsid', hsname⟩
    obtain ⟨x, hx⟩ := db.objects_one _ hc
    have hobj : o = objectOf j :=
      (eq_of_filter_eq hx ho' (beq_iff_eq.mpr hoid')).trans (eq_of_filter_eq hx ho (beq_iff_eq.mpr hoid)).symm
    subst hobj
    obtain ⟨y, hy⟩ := db.schemas_one _ ho
    have hsch : s = schemaOf j :=
      (eq_of_filter_eq hy hs' (beq_iff_eq.mpr hsid')).trans (eq_of_filter_eq hy hs (beq_iff_eq.mpr hsid)).symm
    exact ⟨hsch ▸ hsname, honame⟩

/-- The named table is one object. -/
theorem objectId_eq {c' : SysColumn} (h : db.inTable schema table c = true) (h' : db.inTable schema table c' = true) :
    c.objectId = c'.objectId := by
  obtain ⟨o, ho, hoid, honame, s, hs, hsid, hsname⟩ := inTable_iff.mp h
  obtain ⟨o', ho', hoid', honame', s', hs', hsid', hsname'⟩ := inTable_iff.mp h'
  have hsch : s = s' := db.schema_named schema s hs s' hs' hsname hsname'
  have hobj : o = o' := db.object_named table o ho o' ho' (by rw [← hsid, ← hsid', hsch]) honame honame'
  rw [← hoid, ← hoid', hobj]

theorem mem_out (h : Selected db schema table out) (hj : j ∈ out) :
    j ∈ db.fromClause ∧ colOf j ∈ db.columnsOf schema table := by
  obtain ⟨sorted, hperm, -, rfl⟩ := h
  obtain ⟨hfrom, hwhere⟩ := mem_filter.mp (hperm.mem_iff.mp hj)
  refine ⟨hfrom, mem_filter.mpr ⟨(mem_inner (inner_of_mem hfrom)).1, ?_⟩⟩
  rw [← whereClause_eq hfrom]
  exact hwhere

/-! ## How many rows a column has -/

/-- In the inward joins, one. -/
theorem countP_inner (hc : c ∈ db.columns) : db.inner.countP (fun p => p.1.1.1 == c) = 1 := by
  have hone {α : Type} {l : List α} {x : α} (h : l = [x]) : l.length = 1 := h ▸ rfl
  have htyped : db.typed.countP (fun p => p.1 == c) = db.columns.countP (· == c) * 1 :=
    countP_join (P := (· == c)) fun a ha _ => hone (db.types_one a ha).choose_spec
  have howned : db.owned.countP (fun p => p.1.1 == c) = db.typed.countP (fun p => p.1 == c) * 1 :=
    countP_join (P := fun p => p.1 == c) fun p hp _ => hone (db.objects_one p.1 (mem_join.mp hp).1).choose_spec
  have hinner : db.inner.countP (fun p => p.1.1.1 == c) = db.owned.countP (fun p => p.1.1 == c) * 1 :=
    countP_join (P := fun p : (SysColumn × SysType) × SysObject => p.1.1 == c)
      fun p hp _ => hone (db.schemas_one p.2 (mem_join.mp hp).2.1).choose_spec
  rw [hinner, howned, htyped, Nat.mul_one, Nat.mul_one, Nat.mul_one]
  exact count_eq_one_of_mem db.columns_nodup hc

/-- The join with the primary key neither drops nor doubles a row. -/
theorem onPi_one {p : (((SysColumn × SysType) × SysObject) × SysSchema) × Option SysIndexColumn}
    (hp : p ∈ db.indexed) : max 1 (db.indexes.filter (onPi p.2)).length = 1 := by
  cases hx : p.2 with
  | none =>
    have hnil : db.indexes.filter (onPi none) = [] := filter_eq_nil_iff.mpr fun _ _ => by simp [onPi]
    rw [hnil]
    rfl
  | some x =>
    have hkey := db.indexes_key x (snd_mem_of_mem_leftJoin hp hx)
    have hle : (db.indexes.filter (onPi (some x))).length ≤ (db.indexes.filter (ofIndex x)).length := by
      rw [← countP_eq_length_filter, ← countP_eq_length_filter]
      exact countP_mono_left fun i _ hi => (Bool.and_eq_true_iff.mp hi).1
    have hle' : (db.indexes.filter (ofIndex x)).length ≤ 1 := hkey
    omega

/-- **A column has a row for every index it is part of**, and one if there is none. -/
theorem rows_of_column (h : Selected db schema table out) (hc : c ∈ db.columnsOf schema table) :
    out.countP (fun j => colOf j == c) = max 1 (db.indexColumns.filter (covers c)).length := by
  obtain ⟨hcol, hin⟩ := mem_filter.mp hc
  obtain ⟨sorted, hperm, -, rfl⟩ := h
  have hwhere : (db.fromClause.filter (db.whereClause schema table)).countP (fun j => colOf j == c) =
      db.fromClause.countP (fun j => colOf j == c) := by
    rw [countP_filter]
    refine countP_congr fun j hj => ?_
    rw [Bool.and_eq_true, whereClause_eq hj, beq_iff_eq]
    exact ⟨fun h => h.1, fun h => ⟨h, h ▸ hin⟩⟩
  have hpi : db.fromClause.countP (fun j => colOf j == c) = db.indexed.countP (fun p => p.1.1.1.1 == c) * 1 :=
    countP_leftJoin (P := fun p => p.1.1.1.1 == c) fun p hp _ => onPi_one hp
  have hpkic : db.indexed.countP (fun p => p.1.1.1.1 == c) =
      db.inner.countP (fun p => p.1.1.1 == c) * max 1 (db.indexColumns.filter (covers c)).length := by
    refine countP_leftJoin (P := fun p : ((SysColumn × SysType) × SysObject) × SysSchema => p.1.1.1 == c) ?_
    intro p _ hp
    rw [beq_iff_eq.mp hp]
  rw [hperm.countP_eq, hwhere, hpi, hpkic, countP_inner hcol, Nat.mul_one, Nat.one_mul]

/-! ## What a row shows -/

/-- Four of the declared columns hold what they mean. -/
theorem shown_right (hj : j ∈ db.fromClause) :
    ∀ d ∈ [InfoColumn.cid, .name, .type, .dfltValue], (db.shown j)[siDecl.idxOf d]? = some (db.means (colOf j) d) := by
  obtain ⟨hc, ⟨ht, htid⟩, -⟩ := mem_inner (inner_of_mem hj)
  have htype : db.types.find? (fun t => t.userTypeId == (colOf j).userTypeId) = some (typeOf j) := by
    obtain ⟨t, htypes⟩ := db.types_one _ hc
    rw [← head?_filter]
    show (db.types.filter fun t => t.userTypeId == j.1.1.1.1.1.userTypeId).head? = _
    rw [htypes, head?_cons]
    exact congrArg some (eq_of_filter_eq htypes ht (beq_iff_eq.mpr htid)).symm
  intro d hd
  simp only [mem_cons, not_mem_nil, or_false] at hd
  rcases hd with rfl | rfl | rfl | rfl
  · rfl
  · rfl
  · rw [Catalog.means, htype]
    rfl
  · rfl

/-- A row that shows what it should is impossible: `notnull` would be its own opposite. -/
theorem not_matches_of_mem (h : Selected db schema table out) (hc : c ∈ db.columnsOf schema table) :
    ¬Matches db schema table out := by
  intro hm
  obtain ⟨hcol, hin⟩ := mem_filter.mp hc
  have hrow : siDecl.map (db.means c) ∈ out.map db.shown := hm.mem_iff.mpr (mem_map.mpr ⟨c, hc, rfl⟩)
  obtain ⟨j, hj, heq⟩ := mem_map.mp hrow
  obtain ⟨hfrom, hof⟩ := mem_out h hj
  obtain ⟨hjcol, hjin⟩ := mem_filter.mp hof
  injection heq with hcid htail
  injection htail with _ htail
  injection htail with _ htail
  injection htail with hnotnull _
  have hid : (colOf j).columnId = c.columnId := by
    have := SqliteValue.integer.inj hcid
    omega
  obtain rfl : colOf j = c := db.columns_key _ hjcol _ hcol (objectId_eq hjin hin) hid
  have hbit : bit (colOf j).isNullable = bit (!(colOf j).isNullable) := hnotnull
  revert hbit
  cases (colOf j).isNullable <;> decide

/-- **Table info, exactly.**  For every catalog: the rows are what the declaration says exactly when the named
    table has no columns.  A column has as many rows as it is part of indexes, at least one; `cid`, `name`, `type`
    and `dflt_value` hold what they mean. -/
theorem table_info_iff (h : Selected db schema table out) :
    (Matches db schema table out ↔ db.columnsOf schema table = []) ∧
      (∀ c ∈ db.columnsOf schema table,
        out.countP (fun j => colOf j == c) = max 1 (db.indexColumns.filter (covers c)).length) ∧
      ∀ j ∈ out, ∀ d ∈ [InfoColumn.cid, .name, .type, .dfltValue],
        (db.shown j)[siDecl.idxOf d]? = some (db.means (colOf j) d) := by
  refine ⟨⟨fun hm => ?_, fun hnil => ?_⟩, fun c hc => rows_of_column h hc, fun j hj => shown_right (mem_out h hj).1⟩
  · exact eq_nil_iff_forall_not_mem.mpr fun c hc => not_matches_of_mem h hc hm
  · have hout : out = [] := eq_nil_iff_forall_not_mem.mpr fun j hj => by
      have hmem := (mem_out h hj).2
      rw [hnil] at hmem
      cases hmem
    rw [Matches, hout, hnil]
    exact List.Perm.nil

/-- The column `id int not null` of a table `users`. -/
def usersId : SysColumn := ⟨10, 1, [105, 100], 56, false, 0, 4, 10, 0, true, false⟩

/-- A catalog with the table `dbo.users`, its column in the primary key and in one more index. -/
def usersDb : Catalog where
  columns := [usersId]
  types := [⟨56, [105, 110, 116]⟩]
  objects := [⟨10, 1, [117, 115, 101, 114, 115]⟩]
  schemas := [⟨1, [100, 98, 111]⟩]
  indexes := [⟨10, 1, true⟩, ⟨10, 2, false⟩]
  indexColumns := [⟨10, 1, 1, 1⟩, ⟨10, 2, 1, 1⟩]
  objectDefinition := fun _ => none
  same := fun a b => a == b
  columns_nodup := by decide
  columns_key := by decide
  types_one := by simp [usersId]
  objects_one := by simp [usersId]
  schemas_one := by simp
  indexes_key := by decide
  schema_named := by simp
  object_named := by simp

def usersRows : List Joined :=
  usersDb.fromClause.filter (usersDb.whereClause [100, 98, 111] [117, 115, 101, 114, 115])

theorem selected_users : Selected usersDb [100, 98, 111] [117, 115, 101, 114, 115] usersRows :=
  ⟨usersRows, List.Perm.refl _, by decide, rfl⟩

/-- One column, two rows. -/
theorem table_info_users : usersRows.countP (fun j => colOf j == usersId) = 2 :=
  (table_info_iff selected_users).2.1 usersId (by decide)

/-- **A row that is not what was declared.**  The column is not nullable and has the ordinal 1; of the two rows
    each says `notnull` 0, `ordinal` 0, `max_length` 1 and `hidden_flags` 0. -/
theorem table_info_wrong :
    Selected usersDb [100, 98, 111] [117, 115, 101, 114, 115] usersRows ∧
      usersDb.columnsOf [100, 98, 111] [117, 115, 101, 114, 115] = [usersId] ∧
      siDecl.map (usersDb.means usersId) =
        [.integer 0, .text [105, 100], .text [105, 110, 116], .integer 1, .null, .integer 1, .integer 1, .integer 4,
          .integer 10, .integer 0, .integer 0, .integer 1, .integer 0, .integer 0] ∧
      usersRows.map usersDb.shown = List.replicate 2
        [.integer 0, .text [105, 100], .text [105, 110, 116], .integer 0, .null, .integer 1, .integer 0, .integer 1,
          .integer 4, .integer 10, .integer 0, .integer 0, .integer 1, .integer 0] :=
  ⟨selected_users, by decide, by decide, by decide⟩

end VirtualMssql.TableInfo
