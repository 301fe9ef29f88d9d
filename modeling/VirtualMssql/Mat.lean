/-
  MATERIALIZATION — `vms_mat_build`: the rows of a query become a private snapshot.

  The builder opens a private database, creates the snapshot table from the described columns, streams the
  rows of the cursor into it with a COMMIT after every 2000, commits the rest, creates an index for every
  integer column, and only then stores PUBLISHED.  Whatever fails on the way stores FAILED and closes the
  database; `vms_mat_db` hands the database out in the state PUBLISHED only.

  The builder is a machine whose steps are its calls to the outside: an event says whether the next call
  succeeds, or that another thread calls `vms_mat_cancel` in between.  A run is a list of events, so every
  failing call and every moment of a cancel is some run, and what a reader can see is what it can see
  between two steps.

  `Stage` is the loop invariant: what the snapshot holds, and what of it is committed, is the table filled
  with the rows fetched so far (`Filling`), and a snapshot is PUBLISHED only when it was filled with all of
  them (`published_complete`).  Nothing in it says that filling the table keeps the rows: that is a matter
  of what the database makes of the column list.
-/
import VirtualMssql.DmlSql
import VirtualMssql.Lib.Run
import VirtualMssql.Lib.SqliteTable

namespace VirtualMssql.Mat

open SqliteTable Run List Option
open TSql (wide)
open DmlSql (VmsValue)
open Plan (appendW)

variable {F : Type}

/-! ## Data -/

/-- `VmsMatMode`. -/
inductive VmsMatMode
  | off
  | memory
  | temp
  deriving DecidableEq, Repr

/-- `VmsMatState`. -/
inductive VmsMatState
  | building
  | ready
  | published
  | failed
  deriving DecidableEq, Repr

/-- `VmsQuerySource`, as `vms_query_source_prepare` leaves it: the names are C strings in 128 bytes. -/
structure VmsQuerySource where
  query : List Nat
  cols : List VmsMetaColumn
  name_fits : ∀ c ∈ cols, c.name.length < 128

abbrev Row (F : Type) := List (VmsValue F)

def kindOf : VmsValue F → Kind
  | .null => .null
  | .int _ => .integer
  | .float _ => .real
  | .text _ => .text
  | .blob _ => .blob

abbrev Sqlite (F : Type) := Engine (VmsValue F) kindOf

/-- The private database: the snapshot table, what the handle sees in it, and what of it is committed. -/
structure Db (F : Type) where
  table : Option (Table (VmsValue F)) := none
  rows : List (Row F) := []
  saved : List (Row F) := []
  inTxn : Bool := false

/-- `VmsMat`, less the path of its file and its lock. -/
structure VmsMat (F : Type) where
  mode : VmsMatMode
  state : VmsMatState := .building
  db : Option (Db F) := none
  maxRows : Int
  maxBytes : Int
  rows : Nat := 0
  cancelled : Bool := false

/-- `vms_mat_create`. -/
def vmsMatCreate (mode : VmsMatMode) (maxRows maxBytes : Int) : Option (VmsMat F) :=
  if mode = .off then none
  else some
    { mode
      maxRows := if 0 < maxRows then maxRows else 10000000
      maxBytes := if 0 < maxBytes then maxBytes else 1073741824 }

/-- `vms_mat_db`: what a reader gets. -/
def vmsMatDb (m : VmsMat F) : Option (Db F) := if m.state = .published then m.db else none

/-- `vms_mat_cancel`. -/
def vmsMatCancel (m : VmsMat F) : VmsMat F := { m with cancelled := true }

/-! ## Statements -/

def matCap : Nat := 8192
def queryCap : Nat := 34816
def vmsMatBatch : Nat := 2000

/-- The column type of the snapshot. -/
def matAffinity : VmsColType → Affinity
  | .int64 => .integer
  | .float64 => .real
  | .blob => .blob
  | _ => .text

/-- `%s"%s" %s` into `col[280]`. -/
def ddlColumn (i : Nat) (c : VmsMetaColumn) : List Nat :=
  ((if i = 0 then [] else [44]) ++ 34 :: (c.name ++ 34 :: 32 :: (matAffinity c.vtype).word)).take 279

/-- The loops that write a column list into a buffer of `cap` bytes. -/
def appendColumns (cap : Nat) : List (List Nat) → List Nat → Option (List Nat)
  | [], text => some text
  | p :: ps, text => if cap ≤ text.length + p.length + 2 then none else appendColumns cap ps (text ++ p)

/-- The DDL of the snapshot table. -/
def matDdl (cols : List VmsMetaColumn) : Option (List Nat) :=
  (appendColumns matCap (cols.mapIdx ddlColumn) (wide "CREATE TABLE vms_snapshot(")).map (· ++ [41])

theorem appendColumns_some {cap : Nat} : ∀ {ps : List (List Nat)} {text out : List Nat},
    appendColumns cap ps text = some out → out = text ++ ps.flatten
  | [], text, out, h => by simpa [appendColumns] using h.symm
  | p :: ps, text, out, h => by
    rw [appendColumns] at h
    obtain ⟨-, h⟩ := ite_none_left_eq_some.mp h
    rw [appendColumns_some h, flatten_cons, append_assoc]

/-- The column of the snapshot table. -/
def snapshotColumn (c : VmsMetaColumn) : Column := typed c.name (matAffinity c.vtype)

/-- A name of less than 128 bytes fits the buffer of its column. -/
theorem ddlColumn_eq {c : VmsMetaColumn} (h : c.name.length < 128) (i : Nat) :
    ddlColumn i c = (if i = 0 then [] else [44]) ++ (snapshotColumn c).text := by
  have hword : (matAffinity c.vtype).word.length ≤ 7 := by cases c.vtype <;> decide
  refine take_of_length_le ?_
  simp only [length_append, length_cons]
  split_ifs <;> simp only [length_nil, length_cons] <;> omega

/-- **The DDL** is the text of a column list, whatever the names are. -/
theorem matDdl_text {cols : List VmsMetaColumn} {text : List Nat} (hfits : ∀ c ∈ cols, c.name.length < 128)
    (h : matDdl cols = some text) : text = tableText (wide "vms_snapshot") (cols.map snapshotColumn) := by
  obtain ⟨list, hlist, rfl⟩ := map_eq_some_iff.mp h
  have hcols : (cols.mapIdx ddlColumn).flatten = listText (cols.map snapshotColumn) := by
    cases cols with
    | nil => rfl
    | cons c cs =>
      have hrest : cs.mapIdx (fun i => ddlColumn (i + 1)) = cs.map fun d => 44 :: (snapshotColumn d).text := by
        refine ext_getElem (by simp) fun i hi _ => ?_
        have hlen : i < cs.length := by simpa using hi
        have hmem : cs[i] ∈ c :: cs := mem_cons_of_mem c (getElem_mem hlen)
        rw [getElem_mapIdx, getElem_map, ddlColumn_eq (hfits _ hmem)]
        rfl
      rw [mapIdx_cons, flatten_cons, hrest, ddlColumn_eq (hfits c mem_cons_self),
        List.map_cons, listText_cons, List.map_map]
      rfl
  rw [appendColumns_some hlist, hcols, tableText, append_assoc]
  rfl

def insertMarks : Nat → Nat → List Nat → Option (List Nat)
  | _, 0, sql => some sql
  | i, n + 1, sql => (appendW matCap (if i = 0 then wide "?" else wide ",?") sql).bind (insertMarks (i + 1) n)

/-- The INSERT for `n` columns, or the message that goes with its failure. -/
def insertSql (n : Nat) : Except (List Nat) (List Nat) :=
  match insertMarks 0 n (wide "INSERT INTO vms_snapshot VALUES(") with
  | none => .error (wide "insert stmt too wide")
  | some sql => (appendW matCap (wide ")") sql).elim (.error (wide "insert prepare failed")) .ok

def indexText (i : Nat) (c : VmsMetaColumn) : List Nat :=
  (wide "CREATE INDEX vms_snapshot_i" ++ (decimal i ++ (wide " ON vms_snapshot(" ++
    34 :: (c.name ++ [34, 41])))).take 511

/-- The statements of the last loop: an index on every integer column. -/
def indexTexts (cols : List VmsMetaColumn) : List (List Nat) :=
  cols.zipIdx.filterMap fun c => if c.1.vtype = .int64 then some (indexText c.2 c.1) else none

/-- `(int)n` of a `size_t`. -/
def castInt (n : Nat) : Int := Int.bmod n 4294967296

/-- `bind_value`: the value that is bound.  An empty blob has no buffer, and binding none binds NULL. -/
def bindValue (e : Sqlite F) : VmsValue F → VmsValue F
  | .null => .null
  | .int i => .int i
  | .float f => .float f
  | .text t => .text (e.text t (castInt t.length))
  | .blob [] => .null
  | .blob (b :: bs) => .blob (e.blob (b :: bs) (castInt (b :: bs).length))

/-- The loop over the columns; `vms_cursor_value` has nothing for a column the row does not have. -/
def bindRow (e : Sqlite F) (n : Nat) (r : Row F) : Row F :=
  (List.range n).map fun i => bindValue e (r[i]?.getD .null)

/-! ## The private database -/

def Db.create (e : Sqlite F) (text : List Nat) (db : Db F) : Option (Db F) :=
  (e.create text).map fun t => { db with table := some t }

def Db.begin (db : Db F) : Option (Db F) := if db.inTxn then none else some { db with inTxn := true }

def Db.commit (db : Db F) : Option (Db F) :=
  if db.inTxn then some { db with inTxn := false, saved := db.rows } else none

/-- Preparing `INSERT … VALUES(?, …)` with `n` markers. -/
def Db.prepare (n : Nat) (db : Db F) : Option (Db F) :=
  db.table.bind fun t => if t.width = n then some db else none

def Db.insert (r : Row F) (db : Db F) : Option (Db F) :=
  db.table.bind fun t => (t.insert db.rows r).map fun rows =>
    { db with rows, saved := if db.inTxn then db.saved else rows }

def Db.index (e : Sqlite F) (table text : List Nat) (db : Db F) : Option (Db F) :=
  if e.index table text then some db else none

/-! ## The builder -/

/-- Where the builder stands; `left` is what the cursor has not delivered yet. -/
inductive Pc (F : Type)
  | entry
  | create
  | begin
  | prepare
  | query
  | cursor
  | fetch (left : List (Row F))
  | check (r : Row F) (left : List (Row F))
  | limit (r : Row F) (left : List (Row F))
  | bind (r : Row F) (left : List (Row F))
  | insert (r : Row F) (left : List (Row F))
  | batch (left : List (Row F))
  | commit
  | index (texts : List (List Nat))
  | publish
  | returned (message : Option (List Nat))

/-- The materializer and the builder's locals. -/
structure Build (F : Type) where
  mat : VmsMat F
  pc : Pc F := .entry
  batch : Nat := 0

/-- What happens next: the builder's call succeeds, it fails (a cursor that does not open leaves a
    message), or another thread cancels. -/
inductive Event
  | ok
  | fault (message : List Nat)
  | cancel
  deriving DecidableEq, Repr

def Event.succeeds : Event → Bool
  | .ok => true
  | _ => false

def Event.failure : Event → Option (List Nat)
  | .fault message => some message
  | _ => none

/-- The builder moves. -/
def Event.works : Event → Bool
  | .cancel => false
  | _ => true

/-- `fail`. -/
def fail (s : Build F) (message : List Nat) : Build F :=
  { s with
    mat := { s.mat with state := .failed, db := none }
    pc := .returned (some (wide "materialization: " ++ message)) }

variable (s : Build F) (ev : Event) (message : List Nat) (f : Db F → Option (Db F)) (next : Pc F)

/-- A call on the private database. -/
def exec : Build F :=
  match ev.succeeds, s.mat.db.bind f with
  | true, some db => { s with mat := { s.mat with db := some db }, pc := next }
  | _, _ => fail s message

section Machine

variable (e : Sqlite F) (src : VmsQuerySource) (result : List (Row F))

/-- One step of `vms_mat_build`. -/
def builder (s : Build F) (ev : Event) : Build F :=
  match s.pc with
  | .entry =>
    if s.mat.state ≠ .building ∨ s.mat.mode = .off then
      { s with pc := .returned (some (wide "materialization: bad args/state")) }
    else if ev.succeeds then { s with mat := { s.mat with db := some {} }, pc := .create }
    else fail s (wide "cannot open private db")
  | .create =>
    match matDdl src.cols with
    | none => fail s (wide "schema too wide")
    | some text => exec s ev (wide "snapshot DDL failed") (Db.create e text) .begin
  | .begin => exec s ev (wide "cannot begin snapshot transaction") Db.begin .prepare
  | .prepare =>
    match insertSql src.cols.length with
    | .error message => fail s message
    | .ok _ => exec s ev (wide "insert prepare failed") (Db.prepare src.cols.length) .query
  | .query =>
    if queryCap < src.query.length + 1 then fail s (wide "query copy failed") else { s with pc := .cursor }
  | .cursor =>
    match ev.failure with
    | some message => fail s message
    | none => { s with pc := .fetch result }
  | .fetch left =>
    if ev.succeeds then
      match left with
      | [] => { s with pc := .commit }
      | r :: rest => { s with pc := .check r rest }
    else fail s (wide "remote scan failed")
  | .check r left => if s.mat.cancelled then fail s (wide "cancelled") else { s with pc := .limit r left }
  | .limit r left =>
    if s.mat.maxRows ≤ s.mat.rows then fail s (wide "row limit exceeded") else { s with pc := .bind r left }
  | .bind r left =>
    if ev.succeeds then { s with pc := .insert (bindRow e src.cols.length r) left }
    else fail s (wide "bind failed")
  | .insert r left => exec s ev (wide "insert step failed") (Db.insert r) (.batch left)
  | .batch left =>
    let s := { s with mat := { s.mat with rows := s.mat.rows + 1 } }
    if s.batch + 1 < vmsMatBatch then { s with batch := s.batch + 1, pc := .fetch left }
    else exec { s with batch := 0 } ev (wide "commit failed") (fun db => db.commit.bind Db.begin) (.fetch left)
  | .commit => exec s ev (wide "final commit failed") Db.commit (.index (indexTexts src.cols))
  | .index [] => { s with pc := .publish }
  | .index (text :: texts) =>
    exec s ev (wide "index creation failed") (Db.index e ((matDdl src.cols).getD []) text) (.index texts)
  | .publish => { s with mat := { s.mat with state := .published }, pc := .returned none }
  | .returned _ => s

/-- One event. -/
def step (s : Build F) : Event → Build F
  | .cancel => { s with mat := vmsMatCancel s.mat }
  | ev => builder e src result s ev

/-- The calls that the builder has still to make, at most. -/
def callsLeft : Pc F → Nat
  | .entry => 6 * result.length + (indexTexts src.cols).length + 10
  | .create => 6 * result.length + (indexTexts src.cols).length + 9
  | .begin => 6 * result.length + (indexTexts src.cols).length + 8
  | .prepare => 6 * result.length + (indexTexts src.cols).length + 7
  | .query => 6 * result.length + (indexTexts src.cols).length + 6
  | .cursor => 6 * result.length + (indexTexts src.cols).length + 5
  | .fetch left => 6 * left.length + (indexTexts src.cols).length + 4
  | .check _ left => 6 * left.length + (indexTexts src.cols).length + 9
  | .limit _ left => 6 * left.length + (indexTexts src.cols).length + 8
  | .bind _ left => 6 * left.length + (indexTexts src.cols).length + 7
  | .insert _ left => 6 * left.length + (indexTexts src.cols).length + 6
  | .batch left => 6 * left.length + (indexTexts src.cols).length + 5
  | .commit => (indexTexts src.cols).length + 3
  | .index texts => texts.length + 2
  | .publish => 1
  | .returned _ => 0

end Machine

/-! ## Where a step leads -/

/-- A call on the database fails, or goes through. -/
theorem exec_cases :
    exec s ev message f next = fail s message ∨ ∃ db db', s.mat.db = some db ∧ f db = some db' ∧
        exec s ev message f next = { s with mat := { s.mat with db := some db' }, pc := next } := by
  rw [exec]
  split
  · rename_i db' _ hdb'
    obtain ⟨db, hdb, hf⟩ := bind_eq_some_iff.mp hdb'
    exact .inr ⟨db, db', hdb, hf, rfl⟩
  · exact .inl rfl

variable {f}

theorem exec_ok {s : Build F} {message : List Nat} {next : Pc F} {db db' : Db F}
    (hdb : s.mat.db = some db) (hf : f db = some db') :
    exec s .ok message f next = { s with mat := { s.mat with db := some db' }, pc := next } := by
  simp [exec, Event.succeeds, hdb, hf]

/-- What no step of the builder changes. -/
structure Frame (m m' : VmsMat F) : Prop where
  mode : m'.mode = m.mode
  maxRows : m'.maxRows = m.maxRows
  maxBytes : m'.maxBytes = m.maxBytes
  cancelled : m'.cancelled = m.cancelled

theorem Frame.refl (m : VmsMat F) : Frame m m := ⟨rfl, rfl, rfl, rfl⟩

theorem Frame.trans {m m' m'' : VmsMat F} (h : Frame m m') (h' : Frame m' m'') : Frame m m'' :=
  ⟨h'.mode.trans h.mode, h'.maxRows.trans h.maxRows, h'.maxBytes.trans h.maxBytes, h'.cancelled.trans h.cancelled⟩

/-- The counter of rows is not part of it. -/
theorem Frame.of_rows {m m' : VmsMat F} {n : Nat} (h : Frame { m with rows := n } m') : Frame m m' :=
  ⟨h.mode, h.maxRows, h.maxBytes, h.cancelled⟩

theorem frame_fail (s : Build F) (message : List Nat) : Frame s.mat (fail s message).mat := ⟨rfl, rfl, rfl, rfl⟩

theorem frame_exec :
    Frame s.mat (exec s ev message f next).mat := by
  rcases exec_cases s ev message f next with h | ⟨db, db', -, -, h⟩
  · rw [h]; exact frame_fail s message
  · rw [h]; exact ⟨rfl, rfl, rfl, rfl⟩

section Control

variable {e : Sqlite F} {src : VmsQuerySource} {result : List (Row F)}

theorem frame_builder (s : Build F) (ev : Event) : Frame s.mat (builder e src result s ev).mat := by
  fun_cases builder e src result s ev
  case case24 =>
    refine Frame.of_rows (n := s.mat.rows + 1) ?_
    exact frame_exec { s with mat := { s.mat with rows := s.mat.rows + 1 }, batch := 0 } ..
  all_goals first | exact frame_fail .. | exact frame_exec .. | exact ⟨rfl, rfl, rfl, rfl⟩

variable (src result) in
/-- **The control flow**: the straight line through the program, the loop, and from everywhere the way
    out. -/
inductive Edge : Pc F → Pc F → Prop
  | opened : Edge .entry .create
  | created : Edge .create .begin
  | begun : Edge .begin .prepare
  | prepared : Edge .prepare .query
  | copied : Edge .query .cursor
  | streams : Edge .cursor (.fetch result)
  | row {r : Row F} {left : List (Row F)} : Edge (.fetch (r :: left)) (.check r left)
  | drained : Edge (.fetch []) .commit
  | checked {r : Row F} {left : List (Row F)} : Edge (.check r left) (.limit r left)
  | within {r : Row F} {left : List (Row F)} : Edge (.limit r left) (.bind r left)
  | bound {r r' : Row F} {left : List (Row F)} : Edge (.bind r left) (.insert r' left)
  | inserted {r : Row F} {left : List (Row F)} : Edge (.insert r left) (.batch left)
  | counted {left : List (Row F)} : Edge (.batch left) (.fetch left)
  | committed : Edge .commit (.index (indexTexts src.cols))
  | indexed {text : List Nat} {texts : List (List Nat)} : Edge (.index (text :: texts)) (.index texts)
  | complete : Edge (.index []) .publish
  | published : Edge .publish (.returned none)
  | failed {p : Pc F} {message : List Nat} : (∀ r, p ≠ .returned r) → Edge p (.returned (some message))

variable {s}

theorem edge_exec {p next : Pc F} (ev : Event) (message : List Nat) (f : Db F → Option (Db F))
    (hp : ∀ r, p ≠ .returned r) (hnext : Edge src result p next) :
    Edge src result p (exec s ev message f next).pc := by
  rcases exec_cases s ev message f next with h | ⟨db, db', -, -, h⟩
  · rw [h]; exact .failed hp
  · rw [h]; exact hnext

theorem builder_edge (hs : ∀ r, s.pc ≠ .returned r) (ev : Event) :
    Edge src result s.pc (builder e src result s ev).pc := by
  fun_cases builder e src result s ev
  case case29 r hpc => exact absurd hpc (hs r)
  all_goals rw [‹s.pc = _›] at hs ⊢
  all_goals first | exact .failed hs | exact edge_exec ev _ _ hs (by constructor) | constructor

theorem step_of_call {ev : Event} (h : ev ≠ .cancel) : step e src result s ev = builder e src result s ev := by
  cases ev with
  | cancel => exact absurd rfl h
  | ok | fault message => rfl

/-- An event is a cancel or a call of the builder. -/
theorem step_cases {P : Build F → Prop} {ev : Event} (hcancel : ev = .cancel → P { s with mat := vmsMatCancel s.mat })
    (hcall : ev ≠ .cancel → P (builder e src result s ev)) : P (step e src result s ev) := by
  by_cases hev : ev = .cancel
  · subst hev
    exact hcancel rfl
  · rw [step_of_call hev]
    exact hcall hev

theorem builder_returned {r : Option (List Nat)} (hs : s.pc = .returned r) (ev : Event) :
    builder e src result s ev = s := by
  rw [builder, hs]

theorem Edge.callsLeft_lt {p q : Pc F} (h : Edge src result p q) :
    callsLeft src result q < callsLeft src result p := by
  cases h with
  | failed hp =>
    cases p <;> simp only [callsLeft] <;> first | omega | exact absurd rfl (hp _)
  | _ =>
    simp only [callsLeft, length_cons, length_nil]
    omega

/-- **The builder returns**: after as many calls as `callsLeft` counts. -/
theorem returns (es : List Event) (h : callsLeft src result s.pc ≤ es.countP Event.works) :
    ∃ r, (run (step e src result) s es).pc = .returned r := by
  have hwork : ∀ (s : Build F) (ev : Event), ev.works = true →
      callsLeft src result (step e src result s ev).pc ≤ callsLeft src result s.pc - 1 := by
    intro s ev hev
    rw [step_of_call (by rintro rfl; exact absurd hev (by decide))]
    by_cases hs : ∃ r, s.pc = .returned r
    · obtain ⟨r, hr⟩ := hs
      rw [builder_returned hr, hr]
      exact Nat.le_refl 0
    · have hedge : Edge src result s.pc (builder e src result s ev).pc := builder_edge (fun r hr => hs ⟨r, hr⟩) ev
      have hlt := hedge.callsLeft_lt
      omega
  have hidle : ∀ (s : Build F) (ev : Event), ev.works = false →
      callsLeft src result (step e src result s ev).pc ≤ callsLeft src result s.pc := by
    intro s ev hev
    cases ev with
    | cancel => exact Nat.le_refl _
    | ok => cases hev
    | fault message => simp [Event.works] at hev
  have hzero : callsLeft src result (run (step e src result) s es).pc = 0 :=
    @run_exhausts _ _ (step e src result) (fun s => callsLeft src result s.pc) _ hwork hidle es s h
  cases hpc : (run (step e src result) s es).pc with
  | returned r => exact ⟨r, rfl⟩
  | _ => rw [hpc] at hzero; simp [callsLeft] at hzero

end Control

/-! ## The loop invariant -/

section Stage

variable (e : Sqlite F) (src : VmsQuerySource) (result : List (Row F))

/-- The table, filled with these rows as they are bound. -/
def filled (t : Table (VmsValue F)) (rs : List (Row F)) : Option (List (Row F)) :=
  t.fill (rs.map (bindRow e src.cols.length))

variable (text : List Nat) (t : Table (VmsValue F))

/-- The table that the DDL makes. -/
structure Created : Prop where
  ddl : matDdl src.cols = some text
  create : e.create text = some t

/-- The INSERT can be prepared on it. -/
structure Insertable : Prop extends Created e src text t where
  width : t.width = src.cols.length
  insert : ∃ sql, insertSql src.cols.length = .ok sql

/-- Nothing but a failing call stands between the builder and its rows. -/
structure Ready : Prop extends Insertable e src text t where
  query : src.query.length + 1 ≤ queryCap

/-- **The loop invariant**: inside a transaction the snapshot is the table filled with the rows that are
    done, and all but the last `pending` of them are committed. -/
structure Filling (done : List (Row F)) (pending : Nat) (db : Option (Db F)) : Prop where
  ready : Ready e src text t
  holds : ∃ rows saved, db = some { table := some t, rows, saved, inTxn := true } ∧
    filled e src t done = some rows ∧ filled e src t (done.take (done.length - pending)) = some saved

/-- The whole result is in the snapshot and committed. -/
structure Stored (maxRows : Int) (db : Option (Db F)) : Prop where
  ready : Ready e src text t
  within : (result.length : Int) ≤ maxRows
  holds : ∃ rows, db = some { table := some t, rows, saved := rows, inTxn := false } ∧
    filled e src t result = some rows

/-- Before the first row. -/
def Fresh (s : Build F) : Prop :=
  s.mat.state = .building ∧ s.mat.mode ≠ .off ∧ 0 < s.mat.maxRows ∧ s.mat.rows = 0 ∧ s.batch = 0

/-- Between two rows: `done` are in the snapshot. -/
def Between (done : List (Row F)) (s : Build F) : Prop :=
  s.mat.state = .building ∧ s.mat.rows = done.length ∧ s.batch = done.length % vmsMatBatch ∧
    (done.length : Int) ≤ s.mat.maxRows ∧ ∃ text t, Filling e src text t done s.batch s.mat.db

def StageAt (s : Build F) : Pc F → Prop
  | .entry => Fresh s
  | .create => Fresh s ∧ s.mat.db = some {}
  | .begin => Fresh s ∧ ∃ text t, Created e src text t ∧ s.mat.db = some { table := some t }
  | .prepare => Fresh s ∧ ∃ text t, Created e src text t ∧ s.mat.db = some { table := some t, inTxn := true }
  | .query => Fresh s ∧ ∃ text t, Insertable e src text t ∧ s.mat.db = some { table := some t, inTxn := true }
  | .cursor => Fresh s ∧ ∃ text t, Ready e src text t ∧ s.mat.db = some { table := some t, inTxn := true }
  | .fetch left => ∃ done, Between e src done s ∧ done ++ left = result
  | .check r left => ∃ done, Between e src done s ∧ done ++ r :: left = result
  | .limit r left => ∃ done, Between e src done s ∧ done ++ r :: left = result
  | .bind r left =>
    ∃ done, Between e src done s ∧ done ++ r :: left = result ∧ (done.length : Int) < s.mat.maxRows
  | .insert r' left => ∃ done r, Between e src done s ∧ done ++ r :: left = result ∧
      (done.length : Int) < s.mat.maxRows ∧ r' = bindRow e src.cols.length r
  | .batch left => ∃ done r, s.mat.state = .building ∧ s.mat.rows = done.length ∧
      s.batch = done.length % vmsMatBatch ∧ (done.length : Int) < s.mat.maxRows ∧
      done ++ r :: left = result ∧ ∃ text t, Filling e src text t (done ++ [r]) (s.batch + 1) s.mat.db
  | .commit => Between e src result s
  | .index texts => s.mat.state = .building ∧ ∃ text t, Stored e src result text t s.mat.maxRows s.mat.db ∧
      ∃ before, indexTexts src.cols = before ++ texts ∧ ∀ x ∈ before, e.index text x = true
  | .publish => s.mat.state = .building ∧ ∃ text t, Stored e src result text t s.mat.maxRows s.mat.db ∧
      ∀ x ∈ indexTexts src.cols, e.index text x = true
  | .returned none => s.mat.state = .published ∧ ∃ text t,
      Stored e src result text t s.mat.maxRows s.mat.db ∧ ∀ x ∈ indexTexts src.cols, e.index text x = true
  | .returned (some _) => s.mat.state = .failed ∧ s.mat.db = none

/-- What is known of the materializer where the builder stands. -/
def Stage (s : Build F) : Prop := StageAt e src result s s.pc

variable {e src result text t}

theorem stage_fail (s : Build F) (message : List Nat) : Stage e src result (fail s message) := ⟨rfl, rfl⟩

theorem stage_exec {s : Build F} {next : Pc F} (ev : Event) (message : List Nat)
    (hnext : ∀ db db', s.mat.db = some db → f db = some db' →
      StageAt e src result { s with mat := { s.mat with db := some db' }, pc := next } next) :
    Stage e src result (exec s ev message f next) := by
  rcases exec_cases s ev message f next with h | ⟨db, db', hdb, hf, h⟩
  · rw [h]; exact stage_fail s message
  · rw [h]; exact hnext db db' hdb hf

variable {db db' : Db F}

theorem db_create (h : db.create e text = some db') :
    ∃ t, e.create text = some t ∧ db' = { db with table := some t } := by
  obtain ⟨t, ht, rfl⟩ := map_eq_some_iff.mp h
  exact ⟨t, ht, rfl⟩

theorem filled_snoc (t : Table (VmsValue F)) (done : List (Row F)) (r : Row F) : filled e src t (done ++ [r]) =
      (filled e src t done).bind fun rows => t.insert rows (bindRow e src.cols.length r) := by
  rw [filled, filled, map_append, map_singleton, t.fill_snoc]

/-- One more row in the snapshot, not yet committed. -/
theorem Filling.insert {done : List (Row F)} {pending : Nat} {r : Row F}
    (h : Filling e src text t done pending (some db)) (hins : db.insert (bindRow e src.cols.length r) = some db') :
    Filling e src text t (done ++ [r]) (pending + 1) (some db') := by
  obtain ⟨hready, rows, saved, hdb, hrows, hsaved⟩ := h
  cases hdb
  obtain ⟨rows', hrows', rfl⟩ := map_eq_some_iff.mp hins
  refine ⟨hready, rows', saved, rfl, ?_, ?_⟩
  · rw [filled_snoc, hrows, bind_some, hrows']
  · rw [length_append, length_singleton, Nat.add_sub_add_right, take_append_of_le_length (Nat.sub_le _ _)]
    exact hsaved

/-- COMMIT and BEGIN: nothing is pending any more. -/
theorem Filling.flush {done : List (Row F)} {pending : Nat} (h : Filling e src text t done pending (some db))
    (hflush : db.commit.bind Db.begin = some db') : Filling e src text t done 0 (some db') := by
  obtain ⟨hready, rows, saved, hdb, hrows, -⟩ := h
  cases hdb
  obtain rfl : _ = db' := some.inj hflush
  exact ⟨hready, rows, rows, rfl, hrows, by rw [Nat.sub_zero, take_length, hrows]⟩

variable {s}

/-- The row that was inserted is counted. -/
theorem stage_batch {left : List (Row F)} (hs : StageAt e src result s (.batch left)) :
    ∃ done, s.mat.state = .building ∧ s.mat.rows + 1 = done.length ∧ s.batch < vmsMatBatch ∧
      (s.batch + 1) % vmsMatBatch = done.length % vmsMatBatch ∧ (done.length : Int) ≤ s.mat.maxRows ∧
      done ++ left = result ∧ ∃ text t, Filling e src text t done (s.batch + 1) s.mat.db := by
  obtain ⟨done, r, hstate, hrows, hbatch, hlimit, hdone, text, t, hfill⟩ := hs
  have hlen : (done ++ [r]).length = done.length + 1 := by simp
  refine ⟨done ++ [r], hstate, by rw [hlen, hrows], ?_, ?_, ?_, by rw [append_assoc]; exact hdone, text, t, hfill⟩
  · rw [hbatch]
    exact Nat.mod_lt _ (by decide)
  · rw [hlen, hbatch, Nat.mod_add_mod]
  · rw [hlen]
    push_cast
    omega

theorem stage_builder (hs : Stage e src result s) (ev : Event) : Stage e src result (builder e src result s ev) := by
  rw [Stage] at hs
  fun_cases builder e src result s ev
  all_goals rw [‹s.pc = _›] at hs
  case case1 hbad => exact absurd hbad (by simp [hs.1, hs.2.1])
  case case2 => exact ⟨hs, rfl⟩
  case case5 text hddl =>
    obtain ⟨hfresh, hdb⟩ := hs
    refine stage_exec ev _ fun db db' hdb' hcreate => ?_
    obtain rfl := some.inj (hdb.symm.trans hdb')
    obtain ⟨t, ht, rfl⟩ := db_create hcreate
    exact ⟨hfresh, text, t, ⟨hddl, ht⟩, rfl⟩
  case case6 =>
    obtain ⟨hfresh, text, t, hcreated, hdb⟩ := hs
    refine stage_exec ev _ fun db db' hdb' hbegin => ?_
    obtain rfl := some.inj (hdb.symm.trans hdb')
    obtain rfl : _ = db' := some.inj hbegin
    exact ⟨hfresh, text, t, hcreated, rfl⟩
  case case8 sql hsql =>
    obtain ⟨hfresh, text, t, hcreated, hdb⟩ := hs
    refine stage_exec ev _ fun db db' hdb' hprepare => ?_
    obtain rfl := some.inj (hdb.symm.trans hdb')
    obtain ⟨hwidth, hsame⟩ := ite_none_right_eq_some.mp hprepare
    cases hsame
    exact ⟨hfresh, text, t, ⟨hcreated, hwidth, sql, hsql⟩, rfl⟩
  case case10 =>
    obtain ⟨hfresh, text, t, hins, hdb⟩ := hs
    exact ⟨hfresh, text, t, ⟨hins, by omega⟩, hdb⟩
  case case12 =>
    obtain ⟨⟨hstate, hmode, hmax, hrows, hbatch⟩, text, t, hready, hdb⟩ := hs
    refine ⟨[], ⟨hstate, hrows, hbatch, ?_, text, t, hready, [], [], hdb, rfl, by simp [filled]⟩, rfl⟩
    show (0 : Int) ≤ s.mat.maxRows
    omega
  case case13 =>
    obtain ⟨done, hbetween, hdone⟩ := hs
    rw [append_nil] at hdone
    subst hdone
    exact hbetween
  case case14 | case17 => exact hs
  case case19 hlimit =>
    obtain ⟨done, hbetween, hdone⟩ := hs
    refine ⟨done, hbetween, hdone, ?_⟩
    rw [hbetween.2.1] at hlimit
    show (done.length : Int) < s.mat.maxRows
    omega
  case case20 =>
    obtain ⟨done, hbetween, hdone, hlimit⟩ := hs
    exact ⟨done, _, hbetween, hdone, hlimit, rfl⟩
  case case22 =>
    obtain ⟨done, r, ⟨hstate, hrows, hbatch, -, text, t, hfill⟩, hdone, hlimit, rfl⟩ := hs
    refine stage_exec ev _ fun db db' hdb hinsert => ?_
    rw [hdb] at hfill
    exact ⟨done, r, hstate, hrows, hbatch, hlimit, hdone, text, t, hfill.insert hinsert⟩
  case case23 left _ _ hfull =>
    obtain ⟨done, hstate, hrows, -, hbatch, hlimit, hdone, text, t, hfill⟩ := stage_batch hs
    exact ⟨done, ⟨hstate, hrows, by rw [← hbatch, Nat.mod_eq_of_lt hfull], hlimit, text, t, hfill⟩, hdone⟩
  case case24 left _ s' hfull =>
    obtain ⟨done, hstate, hrows, hlt, hbatch, hlimit, hdone, text, t, hfill⟩ := stage_batch hs
    have hzero : s.batch + 1 = vmsMatBatch := le_antisymm hlt (not_lt.mp hfull)
    rw [hzero, Nat.mod_self] at hbatch
    refine stage_exec ev _ fun db db' hdb hflush => ?_
    rw [show s.mat.db = some db from hdb] at hfill
    exact ⟨done, ⟨hstate, hrows, hbatch, hlimit, text, t, hfill.flush hflush⟩, hdone⟩
  case case25 =>
    obtain ⟨hstate, -, -, hlimit, text, t, hready, rows, saved, hdb, hrows, -⟩ := hs
    refine stage_exec ev _ fun db db' hdb' hcommit => ?_
    obtain rfl := some.inj (hdb.symm.trans hdb')
    obtain rfl : _ = db' := some.inj hcommit
    exact ⟨hstate, text, t, ⟨hready, hlimit, rows, rfl, hrows⟩, [], rfl, by simp⟩
  case case26 =>
    obtain ⟨hstate, text, t, hstored, before, hbefore, hindex⟩ := hs
    rw [append_nil] at hbefore
    exact ⟨hstate, text, t, hstored, by rw [hbefore]; exact hindex⟩
  case case27 text' texts _ =>
    obtain ⟨hstate, text, t, hstored, before, hbefore, hindex⟩ := hs
    refine stage_exec ev _ fun db db' hdb hcall => ?_
    obtain ⟨haccepted, hsame⟩ := ite_none_right_eq_some.mp hcall
    cases hsame
    rw [hstored.ready.ddl, getD_some] at haccepted
    rw [hdb] at hstored
    refine ⟨hstate, text, t, hstored, before ++ [text'], by rw [hbefore]; simp, ?_⟩
    intro x hx
    rcases mem_append.mp hx with hx | hx
    · exact hindex x hx
    · rw [mem_singleton.mp hx]; exact haccepted
  case case28 => exact ⟨rfl, hs.2⟩
  case case29 r hpc => rw [Stage, hpc]; exact hs
  all_goals exact stage_fail ..

theorem stage_step (s : Build F) (ev : Event) (hs : Stage e src result s) :
    Stage e src result (step e src result s ev) := by
  refine step_cases (fun _ => ?_) fun _ => stage_builder hs ev
  -- no stage looks at the flag
  rw [Stage] at hs ⊢
  show StageAt e src result { s with mat := vmsMatCancel s.mat } s.pc
  revert hs
  cases s.pc with
  | returned message => cases message <;> exact id
  | _ => exact id

/-- **Every state of every run.** -/
theorem stage_run (hs : Stage e src result s) (es : List Event) :
    Stage e src result (run (step e src result) s es) := run_keeps stage_step es hs

/-- A state is BUILDING, until the builder returns. -/
theorem state_of_stage (hs : Stage e src result s) :
    (s.mat.state = .building ∧ ∀ r, s.pc ≠ .returned r) ∨ (s.mat.state = .published ∧ s.pc = .returned none) ∨
      (s.mat.state = .failed ∧ ∃ message, s.pc = .returned (some message)) := by
  rw [Stage] at hs
  cases hpc : s.pc with
  | returned message =>
    rw [hpc] at hs
    cases message with
    | none => exact .inr (.inl ⟨hs.1, rfl⟩)
    | some message => exact .inr (.inr ⟨hs.1, message, rfl⟩)
  | entry | create | begin | prepare | query | cursor =>
    rw [hpc] at hs
    refine .inl ⟨?_, by simp⟩
    first | exact hs.1.1 | exact hs.1
  | fetch | check | limit | bind =>
    rw [hpc] at hs
    obtain ⟨done, hbetween, -⟩ := hs
    exact .inl ⟨hbetween.1, by simp⟩
  | insert =>
    rw [hpc] at hs
    obtain ⟨done, r, hbetween, -⟩ := hs
    exact .inl ⟨hbetween.1, by simp⟩
  | batch =>
    rw [hpc] at hs
    obtain ⟨done, r, hstate, -⟩ := hs
    exact .inl ⟨hstate, by simp⟩
  | commit | index | publish =>
    rw [hpc] at hs
    exact .inl ⟨hs.1, by simp⟩

end Stage

end VirtualMssql.Mat
