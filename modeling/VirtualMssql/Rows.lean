/-
  ROWS — the row a statement or a cursor shows, and when it is the current one.

  A fetch is a job on the worker: it clears the row buffer and the flag `row_ready`, fetches, decodes every
  column into the buffer, and raises the flag only when all of them decoded.  A failure on the way leaves the
  flag down (`fetchRow_spec`): the flag is up after a fetch exactly when it returned 1.

  But not every call gets as far as the job.  `vms_stmt_fetch` returns early on a quarantined connection, and
  `vms_worker_run` returns without a word when there is no memory for the job; such a call is TURNED AWAY, and
  what was shown before it is still shown after it.

  `rows_current_iff`: over every history of calls, in every state of it only the complete row of the most recent
  fetch is shown — exactly when no call was turned away while a row was shown.
-/
import VirtualMssql.LongValues
import VirtualMssql.Lib.Run

namespace VirtualMssql.Rows

open Utf LongValues Run List Option

variable {F : Type}

/-! ## Decoding a column -/

/-- The answer to `SQLGetData` with SQL_C_WCHAR: `memory` is what stands in `buf` and behind it. -/
inductive WideAnswer
  | noData
  | error
  | data (last : Bool) (memory : List Nat) (got : Int)

/-- What the driver answers for one column, for each C type it may be asked for: none is a failure of the
    call, and `some none` is SQL_NULL_DATA. -/
structure Cell (F : Type) where
  bigint : Option (Option Int)
  double : Option (Option F)
  wide : WideAnswer
  binary : List Answer

/-- `VmsValue`; `decoded` holds NULL, texts and blobs. -/
inductive Value (F : Type)
  | int64 (i : Int)
  | float64 (f : F)
  | decoded (d : Decoded)

/-- A value after `value_clear` or `calloc`. -/
def Value.null : Value F := .decoded .null

/-- `getdata_scalar_text`: 256 units of buffer, but a length in `got` is taken as it is. -/
def getdataScalarText (heap : Nat → Bool) : WideAnswer → Option Decoded
  | .noData => if heap 1 then some (.text []) else none
  | .error => none
  | .data last memory got =>
    if last ∧ got = 0 then (if heap 1 then some (.text []) else none)
    else if got = sqlNullData then some .null
    else
      let us := memory.take (if got < 0 then 255 else got.toNat / 2)
      -- the size is probed first, so the buffer is always large enough
      match vmsUtf16ToUtf8 us (((points us).flatMap utf8Of).length + 1) with
      | none => none
      | some t => if heap (t.length + 1) then some (.text t) else none

/-- A number, or NULL. -/
def orNull {α : Type} (f : α → Value F) : Option α → Value F
  | none => .null
  | some a => f a

/-- The switch on the column's type; none fails the row. -/
def decodeCol (heap : Nat → Bool) (t : VmsColType) (c : Cell F) : Option (Value F) :=
  match t with
  | .int64 => c.bigint.map (orNull .int64)
  | .float64 => c.double.map (orNull .float64)
  | .text | .bigtext => (getdataText heap c.binary).map .decoded
  | .decimal | .datetime | .guid => (getdataScalarText heap c.wide).map .decoded
  | .spatial | .blob => (getdataBlob heap c.binary).map .decoded
  | .unsupported => none

/-! ## The row buffer -/

/-- `VmsColumnMeta`. -/
structure VmsColumnMeta where
  name : List Nat
  vtype : VmsColType
  nullable : Bool
  colSize : Nat
  decimalDigits : Nat
  deriving DecidableEq

/-- `meta` (of `col_count` entries), `row` and `row_ready`, which statements and cursors have alike.  The
    buffer, once there, has a value for every column, and without one only a row of no columns is ready. -/
structure RowBuffer (F : Type) where
  cols : List VmsColumnMeta
  row : Option (List (Value F))
  rowReady : Bool
  sized : ∀ r, row = some r → r.length = cols.length
  ready : rowReady = true → row = none → cols = []

/-- After `job_meta`. -/
def RowBuffer.fresh (cols : List VmsColumnMeta) : RowBuffer F where
  cols := cols
  row := none
  rowReady := false
  sized := nofun
  ready := nofun

/-- `row_clear`, which leaves the flag alone when there is no buffer. -/
def RowBuffer.clear (s : RowBuffer F) : RowBuffer F where
  cols := s.cols
  row := s.row.map fun r => r.map fun _ => .null
  rowReady := s.rowReady && s.row.isNone
  sized := by
    intro r hr
    obtain ⟨r', hr', rfl⟩ := map_eq_some_iff.mp hr
    rw [length_map, s.sized r' hr']
  ready := by
    intro hready hrow
    exact s.ready (Bool.and_eq_true_iff.mp hready).1 (map_eq_none_iff.mp hrow)

/-- The buffer after decoding, the flag up if every column decoded. -/
def RowBuffer.put (s : RowBuffer F) (vs : List (Value F)) (hvs : vs.length = s.cols.length) (ok : Bool) :
    RowBuffer F where
  cols := s.cols
  row := some vs
  rowReady := ok
  sized := fun _ hr => some.inj hr ▸ hvs
  ready := nofun

/-- `vms_stmt_value` and `vms_cursor_value`. -/
def RowBuffer.value (s : RowBuffer F) (col : Int) : Option (Value F) :=
  if s.rowReady = false ∨ col < 0 ∨ (s.cols.length : Int) ≤ col then none else s.row.bind fun r => r[col.toNat]?

/-! ## `job_fetch` and `job_cursor_fetch` -/

/-- The loop over the columns from the `i`-th on: the values, and whether all decoded.  What follows a failure
    stays cleared. -/
def decodeFrom (heap : Nat → Bool) (cells : Nat → Cell F) : Nat → List VmsColumnMeta → List (Value F) × Bool
  | _, [] => ([], true)
  | i, m :: ms =>
    match decodeCol heap m.vtype (cells i) with
    | none => (.null :: ms.map fun _ => .null, false)
    | some v => (v :: (decodeFrom heap cells (i + 1) ms).1, (decodeFrom heap cells (i + 1) ms).2)

theorem length_decodeFrom (heap : Nat → Bool) (cells : Nat → Cell F) : ∀ (i : Nat) (ms : List VmsColumnMeta),
    (decodeFrom heap cells i ms).1.length = ms.length
  | _, [] => rfl
  | i, m :: ms => by
    rw [decodeFrom]
    cases decodeCol heap m.vtype (cells i) with
    | none => simp
    | some v => simp [length_decodeFrom heap cells (i + 1) ms]

/-- The answer of `SQLFetch`; an error says whether it quarantines the connection. -/
inductive SqlFetch (F : Type)
  | noData
  | error (quarantines : Bool)
  | row (cells : Nat → Cell F)

/-- `sizeof(VmsValue)`. -/
def valueSize : Nat := 56

/-- **What the two fetch jobs do**: the state, the result (1 row, 0 end, -1 error) and whether the error
    quarantines. -/
def fetchRow (heap : Nat → Bool) (s : RowBuffer F) : SqlFetch F → RowBuffer F × Int × Bool
  | .noData => (s.clear, 0, false)
  | .error q => (s.clear, -1, q)
  | .row cells =>
    if h : s.cols = [] then ({ s.clear with rowReady := true, ready := fun _ _ => h }, 1, false)
    else if s.row.isNone && !heap (valueSize * s.cols.length) then (s.clear, -1, false)
    else
      (s.clear.put (decodeFrom heap cells 0 s.cols).1 (length_decodeFrom ..) (decodeFrom heap cells 0 s.cols).2,
        if (decodeFrom heap cells 0 s.cols).2 then 1 else -1, false)

/-! ## Statements -/

/-- A fetch as the world decides it: which allocations succeed, whether there is memory for the job, what the
    uninitialised result holds when there is none, and the answer of the driver. -/
structure FetchCall (F : Type) where
  heap : Nat → Bool
  queued : Bool
  stack : Int
  answer : SqlFetch F

/-- The answer of `SQLMoreResults`. -/
inductive SqlMore
  | noData
  | error (quarantines : Bool)
  | success

structure MoreCall where
  queued : Bool
  stack : Int
  answer : SqlMore

/-- `VmsStatement`, with the flag of its connection. -/
structure VmsStatement (F : Type) where
  rows : RowBuffer F
  quarantined : Bool

/-- `vms_stmt_fetch`. -/
def vmsStmtFetch (st : VmsStatement F) (c : FetchCall F) : VmsStatement F × Int :=
  if st.quarantined then (st, -1)
  else if !c.queued then (st, c.stack)
  else
    let out := fetchRow c.heap st.rows c.answer
    ({ rows := out.1, quarantined := out.2.2 }, out.2.1)

/-- `vms_stmt_more_results`, which asks for no quarantine. -/
def vmsStmtMoreResults (st : VmsStatement F) (c : MoreCall) : VmsStatement F × Int :=
  if !c.queued then (st, c.stack)
  else
    match c.answer with
    | .noData => ({ st with rows := st.rows.clear }, 0)
    | .error q => ({ rows := st.rows.clear, quarantined := st.quarantined || q }, -1)
    | .success => ({ st with rows := st.rows.clear }, 1)

def vmsStmtValue (st : VmsStatement F) (col : Int) : Option (Value F) := st.rows.value col

/-! ## Cursors -/

/-- `VmsCursor`. -/
structure VmsCursor (F : Type) where
  rows : RowBuffer F
  closed : Bool

/-- `vms_cursor_fetch`. -/
def vmsCursorFetch (cur : VmsCursor F) (c : FetchCall F) : VmsCursor F × Int :=
  if !c.queued then (cur, -1)
  else if cur.closed then (cur, -1)
  else
    let out := fetchRow c.heap cur.rows c.answer
    ({ cur with rows := out.1 }, out.2.1)

def vmsCursorValue (cur : VmsCursor F) (col : Int) : Option (Value F) := cur.rows.value col

/-! ## What one fetch leaves -/

variable (cols : List VmsColumnMeta)

variable (value : Int → Option (Value F))

/-- The values are those of the row of `cells`, all of them. -/
def Holds (heap : Nat → Bool) (cells : Nat → Cell F) :
    Prop :=
  ∀ (i : Nat) (m : VmsColumnMeta), cols[i]? = some m →
    ∃ v, decodeCol heap m.vtype (cells i) = some v ∧ value i = some v

theorem RowBuffer.value_of_not_ready {s : RowBuffer F} (h : s.rowReady = false) (col : Int) : s.value col = none := by
  rw [RowBuffer.value, if_pos (.inl h)]

theorem RowBuffer.value_of_no_cols {s : RowBuffer F} (h : s.cols = []) (col : Int) : s.value col = none := by
  rw [RowBuffer.value, if_pos]
  rw [h, length_nil]
  omega

/-- **Nothing is shown after `row_clear`.** -/
theorem RowBuffer.value_clear (s : RowBuffer F) (col : Int) : s.clear.value col = none := by
  have hflag : s.clear.rowReady = (s.rowReady && s.row.isNone) := rfl
  cases hrow : s.row with
  | none =>
    cases hready : s.rowReady with
    | false => exact value_of_not_ready (by rw [hflag, hready, Bool.false_and]) col
    | true => exact value_of_no_cols (s := s.clear) (s.ready hready hrow) col
  | some r => exact value_of_not_ready (by rw [hflag, hrow]; exact Bool.and_false _) col

/-- A complete row is shown value by value. -/
theorem RowBuffer.value_put (s : RowBuffer F) {vs : List (Value F)} (hvs : vs.length = s.cols.length) {i : Nat}
    (hi : i < s.cols.length) : (s.put vs hvs true).value i = vs[i]? := by
  have hshown : ¬(true = false ∨ (i : Int) < 0 ∨ (s.cols.length : Int) ≤ i) := by
    rintro (h | h | h)
    · cases h
    · omega
    · omega
  exact if_neg hshown

/-- Every column decoded: the values, column by column. -/
theorem decodeFrom_get {heap : Nat → Bool} {cells : Nat → Cell F} : ∀ {i : Nat} {ms : List VmsColumnMeta},
    (decodeFrom heap cells i ms).2 = true → ∀ {k : Nat} {m : VmsColumnMeta}, ms[k]? = some m →
      ∃ v, decodeCol heap m.vtype (cells (i + k)) = some v ∧ (decodeFrom heap cells i ms).1[k]? = some v
  | _, [], _, k, m, hk => by simp at hk
  | i, m' :: ms, hok, k, m, hk => by
    cases hdec : decodeCol heap m'.vtype (cells i) with
    | none => simp [decodeFrom, hdec] at hok
    | some v =>
      simp only [decodeFrom, hdec] at hok ⊢
      cases k with
      | zero =>
        obtain rfl : m' = m := some.inj hk
        exact ⟨v, hdec, rfl⟩
      | succ k =>
        obtain ⟨w, hw, hget⟩ := decodeFrom_get hok (k := k) hk
        exact ⟨w, by rw [← hw]; congr 2; omega, hget⟩

/-- **One fetch**: with result 1 the driver's row is shown, complete; with any other nothing is. -/
theorem fetchRow_spec (heap : Nat → Bool) (s : RowBuffer F) (answer : SqlFetch F) :
    (fetchRow heap s answer).1.cols = s.cols ∧ (((fetchRow heap s answer).2.1 = 1 ∧
          ∃ cells, answer = .row cells ∧ Holds s.cols (fetchRow heap s answer).1.value heap cells) ∨
        ((fetchRow heap s answer).2.1 ≠ 1 ∧ ∀ col, (fetchRow heap s answer).1.value col = none)) := by
  have hend : (0 : Int) ≠ 1 := by decide
  have hfail : (-1 : Int) ≠ 1 := by decide
  cases answer with
  | noData => exact ⟨rfl, .inr ⟨hend, s.value_clear⟩⟩
  | error q => exact ⟨rfl, .inr ⟨hfail, s.value_clear⟩⟩
  | row cells =>
    rw [fetchRow]
    split_ifs with hcols halloc hok
    · refine ⟨rfl, .inl ⟨rfl, cells, rfl, fun i m hm => ?_⟩⟩
      rw [hcols] at hm
      cases hm
    · exact ⟨rfl, .inr ⟨hfail, s.value_clear⟩⟩
    · refine ⟨rfl, .inl ⟨rfl, cells, rfl, fun i m hm => ?_⟩⟩
      obtain ⟨v, hv, hget⟩ := decodeFrom_get hok hm
      rw [Nat.zero_add] at hv
      refine ⟨v, hv, ?_⟩
      have hi : i < s.clear.cols.length := (List.getElem?_eq_some_iff.mp hm).1
      simp only [hok]
      exact (s.clear.value_put (length_decodeFrom ..) hi).trans hget
    · exact ⟨rfl, .inr ⟨hfail, RowBuffer.value_of_not_ready (Bool.eq_false_iff.mpr hok)⟩⟩

/-! ## Histories -/

/-- The rows and, beside them, the most recent fetch if it returned 1 for a row of the driver and no call for
    more results followed. -/
structure Session (S F : Type) where
  st : S
  last : Option (FetchCall F)

/-- Only the complete current row is shown. -/
def Shows (last : Option (FetchCall F)) : Prop :=
  ∀ col v, value col = some v →
    ∃ c cells, last = some c ∧ c.answer = .row cells ∧ Holds cols value c.heap cells

/-- A row is shown. -/
def Shown : Prop := ∃ col v, value col = some v

theorem shows_of_hidden {value : Int → Option (Value F)} (h : ∀ col, value col = none) (cols : List VmsColumnMeta)
    (last : Option (FetchCall F)) : Shows cols value last :=
  fun col v hv => by rw [h col] at hv; cases hv

theorem shows_none_iff (value : Int → Option (Value F)) :
    Shows cols value none ↔ ¬Shown value := by
  constructor
  · rintro h ⟨col, v, hv⟩
    obtain ⟨c, cells, hlast, -⟩ := h col v hv
    cases hlast
  · exact fun h => fun col v hv => absurd ⟨col, v, hv⟩ h

/-- A fetch that reaches the driver leaves only its own complete row. -/
theorem shows_fetchRow (s : RowBuffer F) (c : FetchCall F) :
    Shows (fetchRow c.heap s c.answer).1.cols (fetchRow c.heap s c.answer).1.value
      (if (fetchRow c.heap s c.answer).2.1 = 1 then some c else none) := by
  obtain ⟨hcols, ⟨hone, cells, hanswer, hholds⟩ | ⟨hnot, hhidden⟩⟩ := fetchRow_spec c.heap s c.answer
  · rw [if_pos hone]
    exact fun _ _ _ => ⟨c, cells, rfl, hanswer, hcols ▸ hholds⟩
  · exact shows_of_hidden hhidden _ _

/-! ### Of a statement -/

/-- The calls on a statement; `quarantine` is any call elsewhere that quarantines its connection.  Reading a
    value changes nothing. -/
inductive StmtCall (F : Type)
  | fetch (c : FetchCall F)
  | more (c : MoreCall)
  | quarantine

/-- The call returns without its job having run. -/
def StmtCall.turnedAway (st : VmsStatement F) : StmtCall F → Bool
  | .fetch c => st.quarantined || !c.queued
  | .more c => !c.queued
  | .quarantine => false

/-- One call.  A fetch that was turned away has no row of the driver, whatever it returned. -/
def stmtStep (s : Session (VmsStatement F) F) (call : StmtCall F) : Session (VmsStatement F) F :=
  match call with
  | .fetch c =>
    { st := (vmsStmtFetch s.st c).1,
      last := if call.turnedAway s.st = false ∧ (vmsStmtFetch s.st c).2 = 1 then some c else none }
  | .more c => { st := (vmsStmtMoreResults s.st c).1, last := none }
  | .quarantine => { s with st := { s.st with quarantined := true } }

/-- Only the complete current row is shown by `vms_stmt_value`. -/
def StmtShows (s : Session (VmsStatement F) F) : Prop := Shows s.st.rows.cols (vmsStmtValue s.st) s.last

/-- `vms_stmt_exec_direct`, for a result set with these columns. -/
def stmtStart : Session (VmsStatement F) F := ⟨⟨.fresh cols, false⟩, none⟩

/-- A fetch that is turned away leaves the statement as it is. -/
theorem vmsStmtFetch_away {st : VmsStatement F} {c : FetchCall F}
    (h : (StmtCall.fetch c).turnedAway st = true) : (vmsStmtFetch st c).1 = st := by
  rw [vmsStmtFetch]
  split_ifs with hq hqueued
  · rfl
  · rfl
  · simp only [StmtCall.turnedAway, Bool.or_eq_true] at h
    exact absurd h (not_or.mpr ⟨hq, hqueued⟩)

theorem vmsStmtFetch_run {st : VmsStatement F} {c : FetchCall F} (h : (StmtCall.fetch c).turnedAway st = false) :
    (vmsStmtFetch st c).1.rows = (fetchRow c.heap st.rows c.answer).1 ∧
      (vmsStmtFetch st c).2 = (fetchRow c.heap st.rows c.answer).2.1 := by
  simp only [StmtCall.turnedAway, Bool.or_eq_false_iff] at h
  rw [vmsStmtFetch, h.1, h.2]
  exact ⟨rfl, rfl⟩

/-- **One call** keeps to the current row, unless it is turned away while a row is shown. -/
theorem stmtStep_iff (s : Session (VmsStatement F) F) (call : StmtCall F) (hs : StmtShows s) :
    StmtShows (stmtStep s call) ↔ (call.turnedAway s.st = true → ¬Shown (vmsStmtValue s.st)) := by
  cases call with
  | fetch c =>
    cases haway : (StmtCall.fetch c).turnedAway s.st with
    | true =>
      have hlast : (stmtStep s (.fetch c)).last = none := if_neg fun h => by simp [haway] at h
      rw [StmtShows, hlast, shows_none_iff, show (stmtStep s (.fetch c)).st = s.st from vmsStmtFetch_away haway]
      exact ⟨fun h _ => h, fun h => h rfl⟩
    | false =>
      obtain ⟨hrows, hresult⟩ := vmsStmtFetch_run haway
      have hshows := shows_fetchRow s.st.rows c
      have hvalue : vmsStmtValue (vmsStmtFetch s.st c).1 = (fetchRow c.heap s.st.rows c.answer).1.value :=
        congrArg RowBuffer.value hrows
      refine iff_of_true ?_ nofun
      simp only [StmtShows, stmtStep, haway, true_and, hvalue, hrows, hresult]
      exact hshows
  | more c =>
    rw [StmtShows, show (stmtStep s (.more c)).last = none from rfl, shows_none_iff]
    cases haway : c.queued with
    | false =>
      have hstay : (stmtStep s (.more c)).st = s.st := by
        simp [stmtStep, vmsStmtMoreResults, haway]
      rw [hstay]
      exact ⟨fun h _ => h, fun h => h (by simp [StmtCall.turnedAway, haway])⟩
    | true =>
      have hrun : (stmtStep s (.more c)).st.rows = s.st.rows.clear := by
        simp only [stmtStep, vmsStmtMoreResults, haway, Bool.not_true, Bool.false_eq_true, if_false]
        cases c.answer <;> rfl
      refine iff_of_true ?_ fun h => ?_
      · rintro ⟨col, v, hv⟩
        rw [vmsStmtValue, hrun, RowBuffer.value_clear] at hv
        cases hv
      · simp [StmtCall.turnedAway, haway] at h
  | quarantine => exact iff_of_true hs nofun

/-! ### Of a cursor -/

/-- One fetch. -/
def cursorStep (s : Session (VmsCursor F) F) (c : FetchCall F) : Session (VmsCursor F) F where
  st := (vmsCursorFetch s.st c).1
  last := if c.queued = true ∧ (vmsCursorFetch s.st c).2 = 1 then some c else none

/-- Only the complete current row is shown by `vms_cursor_value`. -/
def CursorShows (s : Session (VmsCursor F) F) : Prop := Shows s.st.rows.cols (vmsCursorValue s.st) s.last

/-- `vms_cursor_open_sql`, for a result set with these columns. -/
def cursorStart : Session (VmsCursor F) F := ⟨⟨.fresh cols, false⟩, none⟩

theorem cursorStep_open {s : Session (VmsCursor F) F} (hs : s.st.closed = false) (c : FetchCall F) :
    (cursorStep s c).st.closed = false := by
  simp only [cursorStep, vmsCursorFetch]
  split_ifs
  all_goals exact hs

theorem cursorStep_iff (s : Session (VmsCursor F) F) (c : FetchCall F) (hopen : s.st.closed = false) :
    CursorShows (cursorStep s c) ↔ (c.queued = false → ¬Shown (vmsCursorValue s.st)) := by
  by_cases hqueued : c.queued = true
  · have hrun : vmsCursorFetch s.st c =
        ({ s.st with rows := (fetchRow c.heap s.st.rows c.answer).1 }, (fetchRow c.heap s.st.rows c.answer).2.1) := by
      rw [vmsCursorFetch, if_neg (by simpa using hqueued), if_neg (by simpa using hopen)]
    have hshows := shows_fetchRow s.st.rows c
    refine iff_of_true ?_ fun h => absurd hqueued (by simp [h])
    simp only [CursorShows, cursorStep, hrun, hqueued, true_and]
    exact hshows
  · replace hqueued : c.queued = false := Bool.eq_false_iff.mpr hqueued
    have hstay : (cursorStep s c).st = s.st := by
      simp [cursorStep, vmsCursorFetch, hqueued]
    have hlast : (cursorStep s c).last = none := if_neg fun h => by simp [hqueued] at h
    rw [CursorShows, hstay, hlast, shows_none_iff]
    exact ⟨fun h _ => h, fun h => h hqueued⟩

/-! ### Whole histories -/

theorem shows_fresh : Shows cols (RowBuffer.fresh cols : RowBuffer F).value none :=
  shows_of_hidden (RowBuffer.value_of_not_ready rfl) cols none

/-- **Only the current row, exactly.**  Over every history of a statement and of a cursor: in every state of it
    the values shown are all of the row of the most recent fetch, which returned 1 with no call for more results
    since — exactly when no call was turned away while a row was shown. -/
theorem rows_current_iff (cols : List VmsColumnMeta) :
    (∀ calls : List (StmtCall F),
      (∀ before after, calls = before ++ after →
        StmtShows (run stmtStep (stmtStart cols) before)) ↔
      Along stmtStep (fun s call => call.turnedAway s.st = true → ¬Shown (vmsStmtValue s.st)) (stmtStart cols) calls) ∧
    (∀ calls : List (FetchCall F),
      (∀ before after, calls = before ++ after →
        CursorShows (run cursorStep (cursorStart cols) before)) ↔
      Along cursorStep (fun s c => c.queued = false → ¬Shown (vmsCursorValue s.st)) (cursorStart cols) calls) := by
  refine ⟨fun calls => ?_, fun calls => ?_⟩
  · exact along_iff_keeps (s := stmtStart cols) stmtStep_iff calls (shows_fresh cols)
  · have hkeep : ∀ (s : Session (VmsCursor F) F) c, s.st.closed = false → (cursorStep s c).st.closed = false :=
      fun _ c hs => cursorStep_open hs c
    have hopen := fun is => run_keeps hkeep is (s := cursorStart cols) rfl
    have hboth := along_iff_keeps (s := cursorStart cols)
      (fun s c (hs : CursorShows s ∧ s.st.closed = false) =>
        (and_iff_left (cursorStep_open hs.2 c)).trans (cursorStep_iff s c hs.2)) calls ⟨shows_fresh cols, rfl⟩
    refine Iff.trans ⟨fun h before after heq => ⟨h before after heq, hopen before⟩, ?_⟩ hboth
    exact fun h before after heq => (h before after heq).1

/-! ## A row that stays -/

/-- A column of integers. -/
def idColumn : VmsColumnMeta := ⟨[105, 100], .int64, false, 10, 0⟩

/-- A fetch that brings the integer. -/
def fetchInt (i : Int) : FetchCall Unit where
  heap := fun _ => true
  queued := true
  stack := 0
  answer := .row fun _ => ⟨some (some i), none, .error, []⟩

/-- **A stale row.**  A row is fetched, the connection is quarantined elsewhere, and the next fetch returns -1:
    the old value is still shown.  So it is on a cursor when there is no memory for the job. -/
theorem stale_row_shown :
    ((vmsStmtFetch (run stmtStep (stmtStart [idColumn]) [.fetch (fetchInt 7), .quarantine]).st (fetchInt 8)).2 = -1 ∧
      vmsStmtValue (vmsStmtFetch (run stmtStep (stmtStart [idColumn]) [.fetch (fetchInt 7), .quarantine]).st
        (fetchInt 8)).1 0 = some (.int64 7)) ∧
    (vmsCursorFetch (run cursorStep (cursorStart [idColumn]) [fetchInt 7]).st
        { fetchInt 8 with queued := false }).2 = -1 ∧
      vmsCursorValue (vmsCursorFetch (run cursorStep (cursorStart [idColumn]) [fetchInt 7]).st
        { fetchInt 8 with queued := false }).1 0 = some (.int64 7) :=
  ⟨⟨rfl, rfl⟩, rfl, rfl⟩

end VirtualMssql.Rows
