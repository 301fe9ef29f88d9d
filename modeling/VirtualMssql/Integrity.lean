/-
  xINTEGRITY — `vms_vtab_integrity` on the tables that `vms_vtab_connect` makes.

  The whole of xConnect is put together here: the arguments (Arguments), the columns of a table, read live or with the
  cache (Connect), or those of a query, which `desc_row` takes from its description; and what the new table keeps
  of them.

  xIntegrity asks for four things.  The number of columns and their types have been looked at by xConnect already.  Two
  things have not: a column of a query may have no name, and a table in cached mode has a fingerprint only when its
  columns could be read just now.  `integrity_iff` says so for every successful call.
-/
import VirtualMssql.Arguments
import VirtualMssql.Registry

namespace VirtualMssql.Integrity

open Arguments Connect MetaCache Outcome List
open Registry (ulong oneOf copyText)
open Mat (VmsMatMode)
open TSql (wide)

/-! ## `vms_query_source_prepare` -/

/-- A row of the description; a value that is not a text, or not an integer, is none. -/
structure DescRow where
  name : Option (List Nat)
  systemTypeName : Option (List Nat)
  maxLength : Option Int := none
  precision : Option Int := none
  scale : Option Int := none
  isNullable : Option Int := none

/-- The types of `desc_row`. -/
def descVtype (t : List Nat) (maxLength : Nat) : VmsColType :=
  if oneOf t ["bigint", "int", "smallint", "tinyint", "bit"] then .int64
  else if oneOf t ["float", "real"] then .float64
  else if oneOf t ["decimal", "numeric", "money", "smallmoney"] then .decimal
  else if oneOf t ["date", "time", "datetime", "datetime2", "smalldatetime", "datetimeoffset"] then .datetime
  else if oneOf t ["uniqueidentifier"] then .guid
  else if oneOf t ["geometry", "geography"] then .spatial
  else if oneOf t ["binary", "varbinary", "image", "rowversion"] then .blob
  else if oneOf t ["xml"] then .bigtext
  else if oneOf t ["nvarchar", "nchar", "varchar", "char", "text", "ntext"] then
    if maxLength = ulong (-1) ∨ maxLength = 0 then .bigtext else .text
  else .unsupported

/-- The column of a row; without a name it keeps the empty one of `memset`. -/
def DescRow.column (r : DescRow) : VmsMetaColumn where
  name := (r.name.map (copyText 128)).getD []
  typeName := []
  vtype := descVtype ((r.systemTypeName.map (copyText 64)).getD []) ((r.maxLength.map ulong).getD 0)
  isNullable := r.isNullable.all (· ≠ 0)
  maxLength := (r.maxLength.map ulong).getD 0
  precision := (r.precision.map fun v => (v % 256).toNat).getD 0
  scale := (r.scale.map fun v => (v % 256).toNat).getD 0

/-- `desc_row`: there is room, and no column has the name. -/
def descRow (cols : List VmsMetaColumn) (r : DescRow) : Option (List VmsMetaColumn) :=
  if 512 ≤ cols.length then none
  else if cols.any fun c => stricmp c.name r.column.name then none
  else some (cols ++ [r.column])

def descRows : List VmsMetaColumn → List DescRow → Option (List VmsMetaColumn)
  | cols, [] => some cols
  | cols, r :: rs => (descRow cols r).bind (descRows · rs)

/-- What the server has to say about a query: no connection could be leased, the query was rejected or could not be
    described, or its columns. -/
inductive QueryRead
  | noLease (msg : List Nat)
  | rejected (msg : List Nat)
  | rows (rows : List DescRow)

/-- `vms_query_source_prepare`, with a lease for it.  `copy`: there is memory for the query. -/
def describeQuery (copy : Bool) : QueryRead → Except ConnectError (List VmsMetaColumn)
  | .noLease msg => .error (.text (wide "virtualmssql: probe lease failed: " ++ msg))
  | .rejected msg => .error (.text (wide "virtualmssql: query rejected: " ++ msg))
  | .rows rows =>
    match descRows [] rows with
    | none =>
      .error (.text (wide
        "virtualmssql: query rejected: query result contract violated (duplicate or too many columns)"))
    | some cols =>
      if cols = [] then .error (.text (wide "virtualmssql: query rejected: query produces no result set"))
      else if !copy then .error (.text (wide "virtualmssql: query rejected: OOM query source"))
      else .ok cols

/-! ## `vms_vtab_connect` -/

/-- `struct VmsVtab`. -/
structure VmsVtab where
  cols : List VmsMetaColumn
  schemaFp : Nat
  capturedUtc : Int
  metadataCached : Bool
  isQuerySource : Bool
  rwMode : Bool
  spatialWkt : Bool
  matMode : VmsMatMode
  deriving DecidableEq

/-- What a call meets: the columns of a table or a query, the time, memory and SQLite, and the cache. -/
structure Outside where
  live : LiveRead
  query : QueryRead
  now : Int := 0
  reply : ConnectReply := {}
  queryCopy : Bool := true
  cache : VmsMetaCache := fun _ => none

/-- The arguments, without quotes, and what they name. -/
def arguments (env : Option Env) (argv : List (List Nat)) : Except (List Nat) (Args × Source) :=
  match env with
  | none => .error (wide "virtualmssql: module environment not initialized")
  | some env =>
    match (parseArgs argv {}).2 with
    | .error e => .error e
    | .ok a =>
      match a.complete with
      | .error e => .error e
      | .ok () => (a.unquoted.check env).map (a.unquoted, ·)

/-- The shape of a query.  In cached mode the cache is asked all the same, if there is a schema and a table. -/
def discoverQuery (a : Args) (o : Outside) : Except ConnectError (List VmsMetaColumn) :=
  match a.schema, a.table with
  | some schema, some table =>
    if a.metadataCached && (vmsMetaCacheGet o.cache schema table 0 o.reply.lookup).1 = .corrupt then
      .error (corruptText { schema, table })
    else describeQuery o.queryCopy o.query
  | _, _ => describeQuery o.queryCopy o.query

/-- The rest of the call for a query: it cannot be written to, and has no fingerprint. -/
def connectQuery (a : Args) (o : Outside) : Except ConnectError VmsVtab := do
  let cols ← discoverQuery a o
  if a.rw then .error (.text (wide "virtualmssql: mode=rw is only valid for source=table"))
  else do
    let d ← declare { schema := [], table := [], spatialWkt := a.spatialWkt } o.reply (cols, 0, 0)
    .ok
      { cols := d.cols, schemaFp := d.schemaFp, capturedUtc := d.capturedUtc, metadataCached := a.metadataCached
        isQuerySource := true, rwMode := false, spatialWkt := d.spatialWkt, matMode := a.matMode }

/-- The rest of the call for a table. -/
def connectTable (c : ConnectArgs) (o : Outside) : Except ConnectError VmsVtab := do
  let d ← (vmsVtabConnect c o.live o.now o.reply o.cache).res
  .ok
    { cols := d.cols, schemaFp := d.schemaFp, capturedUtc := d.capturedUtc, metadataCached := c.metadataCached
      isQuerySource := false, rwMode := d.rwMode, spatialWkt := d.spatialWkt, matMode := .off }

/-- `vms_vtab_connect`.  The memory for the table is asked for between two of the checks, so that it may be short where
    an argument is wrong as well; the message of the argument stands here. -/
def vtabConnect (env : Option Env) (argv : List (List Nat)) (o : Outside) : Except ConnectError VmsVtab :=
  match arguments env argv with
  | .error e => .error (.text e)
  | .ok (a, src) =>
    if !o.reply.tab then .error .nomem
    else
      match src with
      | .query _ => connectQuery a o
      | .table c => connectTable c o

/-! ## `vms_vtab_integrity` -/

/-- The loop over the columns, from the `i`-th on. -/
def checkColumns : Nat → List VmsMetaColumn → Except (List Nat) Unit
  | _, [] => .ok ()
  | i, c :: cs =>
    if cstr c.name = [] then
      .error (wide "virtualmssql: integrity: column " ++ decimal i ++ wide " has an empty name")
    else if colTypeCode .spatial < colTypeCode c.vtype then
      .error (wide "virtualmssql: integrity: column '" ++ cstr c.name ++ wide "' has an invalid type code " ++
        decimal (colTypeCode c.vtype))
    else if c.vtype = .unsupported then
      .error (wide "virtualmssql: integrity: column '" ++ cstr c.name ++ wide "' is UNSUPPORTED_TYPE")
    else checkColumns (i + 1) cs

/-- `vms_vtab_integrity`: SQLITE_OK, or SQLITE_ERROR with a text. -/
def vmsVtabIntegrity (tab : VmsVtab) : Except (List Nat) Unit :=
  if tab.cols.length < 1 ∨ 512 < tab.cols.length then
    .error (wide "virtualmssql: integrity: ncols=" ++ decimal tab.cols.length ++ wide " out of range")
  else
    match checkColumns 0 tab.cols with
    | .error e => .error e
    | .ok () =>
      if tab.metadataCached && !tab.isQuerySource && tab.schemaFp = 0 then
        .error (wide "virtualmssql: integrity: cached-mode vtab carries no schema fingerprint")
      else .ok ()

/-! ## What xConnect has looked at -/

variable {cols : List VmsMetaColumn}

theorem checkColumns_ok (htypes : ∀ c ∈ cols, c.vtype ≠ .unsupported) : ∀ i,
    checkColumns i cols = .ok () ↔ ∀ c ∈ cols, cstr c.name ≠ [] := by
  have hcode : ∀ v : VmsColType, v ≠ .unsupported → ¬ colTypeCode .spatial < colTypeCode v := by
    intro v hv
    cases v <;> first | decide | exact absurd rfl hv
  induction cols with
  | nil => intro i; simp [checkColumns]
  | cons c cs ih =>
    intro i
    have hc := htypes c mem_cons_self
    rw [checkColumns, if_neg (hcode c.vtype hc), if_neg hc, forall_mem_cons]
    split_ifs with hname
    · simp [hname]
    · rw [ih (fun d hd => htypes d (mem_cons_of_mem c hd)) (i + 1)]
      exact (and_iff_right hname).symm

/-- The table keeps what xIntegrity asks for, names and fingerprint apart. -/
structure Checked (tab : VmsVtab) : Prop where
  count : ¬ (tab.cols.length < 1 ∨ 512 < tab.cols.length)
  types : ∀ c ∈ tab.cols, c.vtype ≠ .unsupported

variable {tab : VmsVtab}

theorem integrity_checked (h : Checked tab) : vmsVtabIntegrity tab = .ok () ↔ (∀ c ∈ tab.cols, cstr c.name ≠ []) ∧
        (tab.metadataCached = true → tab.isQuerySource = false → tab.schemaFp ≠ 0) := by
  rw [vmsVtabIntegrity, if_neg h.count, ← checkColumns_ok h.types 0]
  cases hcols : checkColumns 0 tab.cols with
  | error e => simp
  | ok u => cases tab.metadataCached <;> cases tab.isQuerySource <;> simp

/-- The fingerprint of a table in cached mode is that of the columns just read, and zero without them. -/
theorem cached_fp {c : ConnectArgs} {live : LiveRead} {now : Int} {r : ConnectReply} {cache : VmsMetaCache}
    {shape : List VmsMetaColumn × Nat × Int} (h : (discoverCached c live now r cache).res = .ok shape) :
    shape.2.1 ≠ 0 ↔ ∃ cols, live = .cols cols ∧ vmsMetaFingerprint r.fingerprint cols ≠ 0 := by
  unfold discoverCached at h
  rcases hget : vmsMetaCacheGet cache c.schema c.table 0 r.lookup with ⟨cres, cached⟩
  rw [hget] at h
  dsimp only at h
  cases live with
  | cols cols =>
    have hfp : shape.2.1 = vmsMetaFingerprint r.fingerprint cols := by
      dsimp only at h
      split_ifs at h with hcorrupt hmiss hzero
      · rw [← Except.ok.inj h]
      · split at h
        · cases h
        · cases h
        · rw [← Except.ok.inj h]
      · rw [← Except.ok.inj h]
    rw [hfp]
    constructor
    · exact fun hne => ⟨cols, rfl, hne⟩
    · rintro ⟨_, hcols, hne⟩
      cases hcols
      exact hne
  | noLease msg | failed msg =>
    -- the columns are those of the cache, and the fingerprint is left at zero
    dsimp only at h
    split_ifs at h
    rw [← Except.ok.inj h]
    simp

theorem connectTable_ok {c : ConnectArgs} {o : Outside} (h : connectTable c o = .ok tab) :
    Checked tab ∧ tab.isQuerySource = false ∧ (tab.metadataCached = true →
        (tab.schemaFp ≠ 0 ↔ ∃ cols, o.live = .cols cols ∧ vmsMetaFingerprint o.reply.fingerprint cols ≠ 0)) := by
  obtain ⟨d, hd, hout⟩ := bind_ok.mp h
  cases hout
  unfold vmsVtabConnect at hd
  split_ifs at hd with hident hshadow htab hmode
  · obtain ⟨shape, hshape, hdecl⟩ := bind_ok.mp hd
    obtain ⟨hcols, hfp, hcount, htypes⟩ := declare_ok hdecl
    refine ⟨⟨hcols ▸ hcount, hcols ▸ htypes⟩, rfl, fun _ => ?_⟩
    show d.schemaFp ≠ 0 ↔ _
    rw [hfp]
    exact cached_fp hshape
  · obtain ⟨shape, -, hdecl⟩ := bind_ok.mp hd
    obtain ⟨hcols, -, hcount, htypes⟩ := declare_ok hdecl
    -- not in cached mode, where nothing is asked of the fingerprint
    exact ⟨⟨hcols ▸ hcount, hcols ▸ htypes⟩, rfl, fun hcached => absurd hcached hmode⟩

theorem describeQuery_ok {copy : Bool} {q : QueryRead} (h : describeQuery copy q = .ok cols) :
    ∃ rows, q = .rows rows ∧ descRows [] rows = some cols := by
  cases q with
  | noLease msg | rejected msg => cases h
  | rows rows =>
    unfold describeQuery at h
    dsimp only at h
    cases hrows : descRows [] rows with
    | none => rw [hrows] at h; cases h
    | some out =>
      rw [hrows] at h
      dsimp only at h
      split_ifs at h
      exact ⟨rows, rfl, by rw [hrows, Except.ok.inj h]⟩

theorem connectQuery_ok {a : Args} {o : Outside} (h : connectQuery a o = .ok tab) :
    Checked tab ∧ tab.isQuerySource = true ∧ ∃ rows, o.query = .rows rows ∧ descRows [] rows = some tab.cols := by
  obtain ⟨cols, hdiscover, h⟩ := bind_ok.mp h
  split_ifs at h
  obtain ⟨d, hdecl, hout⟩ := bind_ok.mp h
  cases hout
  obtain ⟨hcols, hfp, hcount, htypes⟩ := declare_ok hdecl
  have hread : describeQuery o.queryCopy o.query = .ok cols := by
    unfold discoverQuery at hdiscover
    split at hdiscover
    · split_ifs at hdiscover
      exact hdiscover
    · exact hdiscover
  obtain ⟨rows, hrows, hdesc⟩ := describeQuery_ok hread
  exact ⟨⟨hcols ▸ hcount, hcols ▸ htypes⟩, rfl, rows, hrows, by rw [hdesc]; exact congrArg some hcols.symm⟩

/-- A row with a name. -/
def DescRow.Named (r : DescRow) : Prop := ∃ n, r.name = some n ∧ cstr n ≠ []

theorem named_column (r : DescRow) : cstr r.column.name ≠ [] ↔ r.Named := by
  cases hname : r.name with
  | none => simp [DescRow.column, DescRow.Named, hname, cstr]
  | some n =>
    have hcopy : r.column.name = copyText 128 n := by simp [DescRow.column, hname]
    have hnamed : r.Named ↔ cstr n ≠ [] := by simp [DescRow.Named, hname]
    rw [hcopy, hnamed, copyText]
    cases htext : cstr n with
    | nil => rfl
    | cons c t =>
      have hmem : c ∈ cstr n := by rw [htext]; exact mem_cons_self
      have hc : (c != 0) = true := mem_takeWhile_imp (p := fun b => b != 0) hmem
      simp only [ne_eq, reduceCtorEq, not_false_eq_true, iff_true]
      rw [show 128 - 1 = 126 + 1 from rfl, take_succ_cons, cstr, takeWhile_cons, if_pos hc]
      exact cons_ne_nil _ _

theorem descRows_named : ∀ {rows : List DescRow} {cols out : List VmsMetaColumn}, descRows cols rows = some out →
    ((∀ c ∈ out, cstr c.name ≠ []) ↔ (∀ c ∈ cols, cstr c.name ≠ []) ∧ ∀ r ∈ rows, r.Named)
  | [], cols, out, h => by
    cases h
    simp
  | r :: rs, cols, out, h => by
    obtain ⟨mid, hrow, hrest⟩ := Option.bind_eq_some_iff.mp h
    have hmid : mid = cols ++ [r.column] := by
      unfold descRow at hrow
      split_ifs at hrow
      exact (Option.some.inj hrow).symm
    rw [descRows_named hrest, hmid]
    rw [forall_mem_append, forall_mem_singleton, forall_mem_cons, named_column, and_assoc]

/-- **When xIntegrity accepts the table of a successful xConnect**: every column has a name, for a query when the
    description gives it one; and for a table in cached mode its columns could be read, with a fingerprint. -/
theorem integrity_iff {env : Option Env} {argv : List (List Nat)} {o : Outside} {tab : VmsVtab}
    (h : vtabConnect env argv o = .ok tab) : (vmsVtabIntegrity tab = .ok () ↔ (∀ c ∈ tab.cols, cstr c.name ≠ []) ∧
        (tab.metadataCached = true → tab.isQuerySource = false →
          ∃ cols, o.live = .cols cols ∧ vmsMetaFingerprint o.reply.fingerprint cols ≠ 0)) ∧
      (tab.isQuerySource = true →
        ∃ rows, o.query = .rows rows ∧ ((∀ c ∈ tab.cols, cstr c.name ≠ []) ↔ ∀ r ∈ rows, r.Named)) := by
  unfold vtabConnect at h
  split at h
  · cases h
  · split_ifs at h
    split at h
    · obtain ⟨hchecked, hquery, rows, hrows, hdesc⟩ := connectQuery_ok h
      rw [integrity_checked hchecked, hquery]
      exact ⟨by simp, fun _ => ⟨rows, hrows, by simpa using descRows_named hdesc⟩⟩
    · obtain ⟨hchecked, htable, hfp⟩ := connectTable_ok h
      rw [integrity_checked hchecked, htable]
      refine ⟨and_congr_right fun _ => ?_, by simp⟩
      exact forall_congr' fun hcached => by rw [hfp hcached]

/-- A table with one column. -/
def idColumns : List VmsMetaColumn := [{ name := wide "id", typeName := wide "int", vtype := .int64, maxLength := 4 }]

def cachedArgs : List (List Nat) := [wide "schema=dbo", wide "table=t", wide "metadata_mode=cached"]

/-- The table has been read and stored before; now the server does not answer. -/
def outage : Outside where
  live := .noLease (wide "server down")
  query := .noLease (wide "server down")
  cache := (vmsMetaCachePut (fun _ => none) (wide "dbo") (wide "t") idColumns
    (vmsMetaFingerprint true idColumns) 0 {}).2

def staleTable : VmsVtab where
  cols := idColumns
  schemaFp := 0
  capturedUtc := -1
  metadataCached := true
  isQuerySource := false
  rwMode := false
  spatialWkt := false
  matMode := .off

/-- The query SELECT 1: its column has no name. -/
def unnamedQuery : Outside where
  live := .failed []
  query := .rows [{ name := none, systemTypeName := some (wide "int"), maxLength := some 4, isNullable := some 0 }]

def unnamedTable : VmsVtab where
  cols := [{ name := [], typeName := [], vtype := .int64, maxLength := 4 }]
  schemaFp := 0
  capturedUtc := 0
  metadataCached := false
  isQuerySource := true
  rwMode := false
  spatialWkt := false
  matMode := .off

theorem integrity_outage : vmsVtabIntegrity staleTable = .ok () ↔ (∀ c ∈ staleTable.cols, cstr c.name ≠ []) ∧
        (staleTable.metadataCached = true → staleTable.isQuerySource = false →
          ∃ cols, outage.live = .cols cols ∧ vmsMetaFingerprint outage.reply.fingerprint cols ≠ 0) :=
  (@integrity_iff (some plainEnv) cachedArgs outage staleTable (by decide +kernel)).1

/-- Two tables that xConnect makes and xIntegrity rejects. -/
theorem integrity_rejects : (vtabConnect (some plainEnv) cachedArgs outage = .ok staleTable ∧
        vmsVtabIntegrity staleTable =
          .error (wide "virtualmssql: integrity: cached-mode vtab carries no schema fingerprint")) ∧
    (vtabConnect (some plainEnv) [wide "source=query", wide "query='SELECT 1'"] unnamedQuery = .ok unnamedTable ∧
      vmsVtabIntegrity unnamedTable = .error (wide "virtualmssql: integrity: column 0 has an empty name")) := by
  decide +kernel

end VirtualMssql.Integrity
