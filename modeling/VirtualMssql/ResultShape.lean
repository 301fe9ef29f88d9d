/-
  THE SHAPE OF THE RESULT SETS — what a statement knows of the result set it stands on.

  `job_meta` asks the driver for the columns ONCE, after execution, and the row buffer is allocated once, for
  that many values.  `vms_stmt_more_results` moves the driver to the next result set and clears the row; the
  column count, the metadata and the buffer stay those of the FIRST result set.

  So the shape follows the driver exactly as far as the result sets look alike (`shape_follows_iff`): behind a
  set with more columns the last ones are never read, and behind one with fewer every fetch of a row fails, the
  driver having no such column.
-/
import VirtualMssql.Rows

namespace VirtualMssql.ResultShape

open LongValues Rows Run List

variable {F : Type}

/-! ## `job_meta` -/

/-- The SQL types that `map_col_type` tells apart. -/
inductive SqlTypeCode
  | integer | smallint | tinyint | bigint | bit
  | real | float | double
  | decimal | numeric
  | typeDate | typeTime | ssTime2 | typeTimestamp | ssTimestampOffset
  | guid
  | binary | varbinary | longVarbinary
  | wlongVarchar | ssXml
  | char | varchar | wchar | wvarchar
  | other
  deriving DecidableEq

/-- `map_col_type`; a size of 0 is SQL_SS_LENGTH_UNLIMITED. -/
def mapColType (t : SqlTypeCode) (colSize : Nat) : VmsColType :=
  match t with
  | .integer | .smallint | .tinyint | .bigint | .bit => .int64
  | .real | .float | .double => .float64
  | .decimal | .numeric => .decimal
  | .typeDate | .typeTime | .ssTime2 | .typeTimestamp | .ssTimestampOffset => .datetime
  | .guid => .guid
  | .binary | .varbinary | .longVarbinary => .blob
  | .wlongVarchar | .ssXml => .bigtext
  | .char | .varchar | .wchar | .wvarchar => if colSize = 0 then .bigtext else .text
  | .other => .text

/-- What `SQLDescribeColW` says of a column; the name is wide. -/
structure ColumnDesc where
  name : List Nat
  sqlType : SqlTypeCode
  colSize : Nat
  digits : Int
  nullable : Int
  deriving DecidableEq

variable (narrow : List Nat → List Nat)

/-- An entry of `meta`.  The name passes through a buffer of 256 wide characters; `narrow` is what
    `WideCharToMultiByte` leaves of it, of which 127 bytes are kept. -/
def columnMeta (d : ColumnDesc) : VmsColumnMeta where
  name := (narrow (cstr (d.name.take 255))).take 127
  vtype := mapColType d.sqlType d.colSize
  nullable := d.nullable ≠ 0
  colSize := d.colSize % 4294967296
  decimalDigits := (d.digits % 65536).toNat

/-- `job_meta`: it fails when the columns cannot be counted, when there is no memory for them, and when one of
    them cannot be described. -/
def jobMeta (counted alloc : Bool) (described : Nat → Bool) (set : List ColumnDesc) :
    Option (List VmsColumnMeta) :=
  if !counted then none
  else if set ≠ [] ∧ alloc = false then none
  else if (List.range set.length).all described then some (set.map (columnMeta narrow))
  else none

/-- `vms_stmt_col_count`. -/
def vmsStmtColCount (st : VmsStatement F) : Nat := st.rows.cols.length

/-- `vms_stmt_meta`. -/
def vmsStmtMeta (st : VmsStatement F) (col : Int) : Option VmsColumnMeta :=
  if col < 0 ∨ (st.rows.cols.length : Int) ≤ col then none else st.rows.cols[col.toNat]?

/-! ## A statement on its driver -/

/-- `SQLGetData` for a column that the result set does not have. -/
def noCell : Cell F := ⟨none, none, .error, [.error]⟩

/-- `SQLFetch` on a result set: without columns there is nothing to fetch, and a row has no more cells than the
    set has columns. -/
def sqlFetchOn (set : List ColumnDesc) : SqlFetch F → SqlFetch F
  | .row cells => if set = [] then .error false else .row fun i => if i < set.length then cells i else noCell
  | answer => answer

/-- A statement, the result set its driver stands on, and those still to come. -/
structure Position (F : Type) where
  st : VmsStatement F
  current : List ColumnDesc
  later : List (List ColumnDesc)

variable (s : Position F)

/-- `vms_stmt_fetch` on that driver. -/
def Position.fetch (c : FetchCall F) : Position F × Int :=
  let out := vmsStmtFetch s.st { c with answer := sqlFetchOn s.current c.answer }
  ({ s with st := out.1 }, out.2)

/-- A call for more results as the world decides it; `fails` is an error of the driver, which then stays where
    it is, and whether the error quarantines. -/
structure MoreInput where
  queued : Bool
  stack : Int
  fails : Option Bool

/-- `SQLMoreResults`. -/
def sqlMoreOn (later : List (List ColumnDesc)) : Option Bool → SqlMore
  | some q => .error q
  | none => if later = [] then .noData else .success

/-- `vms_stmt_more_results` on that driver. -/
def Position.more (c : MoreInput) : Position F × Int :=
  let out := vmsStmtMoreResults s.st ⟨c.queued, c.stack, sqlMoreOn s.later c.fails⟩
  if c.queued = true ∧ c.fails = none then
    ({ st := out.1, current := s.later.headD s.current, later := s.later.tail }, out.2)
  else ({ s with st := out.1 }, out.2)

inductive Call (F : Type)
  | fetch (c : FetchCall F)
  | more (c : MoreInput)
  | quarantine

def step : Call F → Position F
  | .fetch c => (s.fetch c).1
  | .more c => (s.more c).1
  | .quarantine => { s with st := { s.st with quarantined := true } }

/-- `vms_stmt_exec_direct`: the statement stands on its first result set. -/
def start (cols : List VmsColumnMeta) (first : List ColumnDesc) (later : List (List ColumnDesc)) : Position F :=
  ⟨⟨.fresh cols, false⟩, first, later⟩

/-- **The shape follows the result set**: the count, the metadata, the number of values a fetch decodes, and
    room for all of them. -/
def Follows : Prop :=
  vmsStmtColCount s.st = s.current.length ∧
    (∀ i : Nat, vmsStmtMeta s.st i = s.current[i]?.map (columnMeta narrow)) ∧
    (∀ c : FetchCall F, (StmtCall.fetch c).turnedAway s.st = false → (s.fetch c).2 = 1 →
      ((s.fetch c).1.st.rows.row.getD []).length = s.current.length) ∧
    ∀ r, s.st.rows.row = some r → s.current.length ≤ r.length

/-! ## What stays -/

theorem cols_vmsStmtFetch (st : VmsStatement F) (c : FetchCall F) : (vmsStmtFetch st c).1.rows.cols = st.rows.cols := by
  rw [vmsStmtFetch]
  split_ifs
  · rfl
  · rfl
  · exact (fetchRow_spec c.heap st.rows c.answer).1

theorem cols_vmsStmtMoreResults (st : VmsStatement F) (c : MoreCall) :
    (vmsStmtMoreResults st c).1.rows.cols = st.rows.cols := by
  rw [vmsStmtMoreResults]
  split_ifs
  · rfl
  · cases c.answer <;> rfl

/-- **No call changes the columns.** -/
theorem cols_step (s : Position F) (call : Call F) : (step s call).st.rows.cols = s.st.rows.cols := by
  cases call with
  | fetch c => exact cols_vmsStmtFetch ..
  | more c =>
    rw [step, Position.more]
    split_ifs
    all_goals exact cols_vmsStmtMoreResults ..
  | quarantine => rfl

/-- They are those of the first result set through the whole run. -/
theorem cols_run (cols : List VmsColumnMeta) (first : List ColumnDesc) (later : List (List ColumnDesc))
    (calls : List (Call F)) : (run step (start cols first later) calls).st.rows.cols = cols := by
  have hkeep : ∀ (s : Position F) call, s.st.rows.cols = cols → (step s call).st.rows.cols = cols :=
    fun s call hs => (cols_step s call).trans hs
  exact run_keeps hkeep calls (s := start cols first later) rfl

/-! ## What a fetch decodes -/

theorem fetchRow_ready {heap : Nat → Bool} {s : RowBuffer F} {answer : SqlFetch F}
    (h : (fetchRow heap s answer).2.1 = 1) : (fetchRow heap s answer).1.rowReady = true := by
  have hend : (0 : Int) ≠ 1 := by decide
  have hfail : (-1 : Int) ≠ 1 := by decide
  cases answer with
  | noData => exact absurd h hend
  | error q => exact absurd h hfail
  | row cells =>
    rw [fetchRow] at h ⊢
    split_ifs at h ⊢ with hcols halloc hok
    · rfl
    · exact absurd h hfail
    · exact hok
    · exact absurd h hfail

/-- A row has a value for every column the statement knows, no more and no fewer. -/
theorem length_row {s : RowBuffer F} (h : s.rowReady = true) : (s.row.getD []).length = s.cols.length := by
  cases hrow : s.row with
  | none => rw [s.ready h hrow]; rfl
  | some r => exact s.sized r hrow

theorem fetch_decodes {s : Position F} {c : FetchCall F} (haway : (StmtCall.fetch c).turnedAway s.st = false)
    (h : (s.fetch c).2 = 1) : ((s.fetch c).1.st.rows.row.getD []).length = vmsStmtColCount s.st := by
  obtain ⟨hrows, hresult⟩ := @vmsStmtFetch_run F s.st { c with answer := sqlFetchOn s.current c.answer } haway
  have hone : (fetchRow c.heap s.st.rows (sqlFetchOn s.current c.answer)).2.1 = 1 := hresult.symm.trans h
  show ((vmsStmtFetch s.st { c with answer := sqlFetchOn s.current c.answer }).1.rows.row.getD []).length = _
  rw [hrows, length_row (fetchRow_ready hone)]
  exact congrArg List.length (fetchRow_spec _ _ _).1

/-! ## The shape -/

theorem vmsStmtMeta_eq (st : VmsStatement F) (i : Nat) : vmsStmtMeta st i = st.rows.cols[i]? := by
  rw [vmsStmtMeta]
  split_ifs with h
  · exact (getElem?_eq_none (by omega)).symm
  · rfl

/-- In any state: the shape is that of the current result set exactly when the columns are. -/
theorem follows_iff (s : Position F) :
    Follows narrow s ↔ s.st.rows.cols = s.current.map (columnMeta narrow) := by
  constructor
  · rintro ⟨-, hmeta, -, -⟩
    refine ext_getElem? fun i => ?_
    rw [← vmsStmtMeta_eq, hmeta i, getElem?_map]
  · intro hcols
    have hcount : vmsStmtColCount s.st = s.current.length := by rw [vmsStmtColCount, hcols, length_map]
    refine ⟨hcount, fun i => ?_, fun c haway h => ?_, fun r hr => ?_⟩
    · rw [vmsStmtMeta_eq, hcols, getElem?_map]
    · rw [fetch_decodes haway h, hcount]
    · rw [s.st.rows.sized r hr]
      exact Nat.le_of_eq hcount.symm

/-- **The shape follows the result set, exactly.**  Whatever result sets there are and whatever is called, the
    shape is that of the current one exactly when that looks, column for column, like the first. -/
theorem shape_follows_iff {narrow : List Nat → List Nat} {counted alloc : Bool} {described : Nat → Bool}
    {first : List ColumnDesc} {cols : List VmsColumnMeta}
    (hmeta : jobMeta narrow counted alloc described first = some cols)
    (later : List (List ColumnDesc)) (calls : List (Call F)) :
    Follows narrow (run step (start cols first later) calls) ↔
      (run step (start cols first later : Position F) calls).current.map (columnMeta narrow) =
        first.map (columnMeta narrow) := by
  have hfirst : cols = first.map (columnMeta narrow) := by
    rw [jobMeta] at hmeta
    split_ifs at hmeta
    exact (Option.some.inj hmeta).symm
  rw [follows_iff, cols_run, hfirst]
  exact eq_comm

/-- A column of integers with a name of one letter. -/
def intColumn (letter : Nat) : ColumnDesc := ⟨[letter], .integer, 10, 0, 1⟩

/-- Two result sets, moved from the first to the second. -/
def moved (first second : List ColumnDesc) : Position Unit × Int :=
  (start (first.map (columnMeta id)) first [second]).more ⟨true, 0, none⟩

/-- Two sets with one column a each. -/
theorem shape_follows_two_sets : Follows id (moved [intColumn 97] [intColumn 97]).1 :=
  (@shape_follows_iff Unit id true true (fun _ => true) [intColumn 97] _ rfl [[intColumn 97]]
    [.more ⟨true, 0, none⟩]).mpr rfl

/-! ## Sets that differ -/

/-- **The shape of the first set stays.**  `SELECT 1 AS a; SELECT 2 AS b, 3 AS c` has one column after the
    move, named a; of `SELECT 1 AS a, 2 AS b; SELECT 3 AS c` the second row cannot be fetched. -/
theorem shape_stays :
    ((moved [intColumn 97] [intColumn 98, intColumn 99]).2 = 1 ∧
      (moved [intColumn 97] [intColumn 98, intColumn 99]).1.current = [intColumn 98, intColumn 99] ∧
      vmsStmtColCount (moved [intColumn 97] [intColumn 98, intColumn 99]).1.st = 1 ∧
      (vmsStmtMeta (moved [intColumn 97] [intColumn 98, intColumn 99]).1.st 0).map VmsColumnMeta.name = some [97]) ∧
    (moved [intColumn 97, intColumn 98] [intColumn 99]).2 = 1 ∧
      ((moved [intColumn 97, intColumn 98] [intColumn 99]).1.fetch (fetchInt 3)).2 = -1 :=
  ⟨⟨rfl, rfl, rfl, rfl⟩, rfl, rfl⟩

end VirtualMssql.ResultShape
