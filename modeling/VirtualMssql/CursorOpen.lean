/-
  CURSOR OPEN — `cursor_open_impl`: what a failed open gives back.

  An open takes up to seven things one after the other: the cursor, and for a connection of its own an HDBC and a
  worker, then an HSTMT, the two arrays of the parameters, and the column descriptions.  The first failures release
  what there is so far in place; the later ones leave it to `cursor_open_cleanup`, which goes by the fields of the
  cursor.  The arrays come into those fields only when every parameter is bound.

  Every call may fail.  `released_iff`: a failed open gives back everything exactly once, unless it has parameters and
  the execution is refused.  Nothing is used before it is taken or behind its release (`careful`).
-/
import VirtualMssql.Filter
import VirtualMssql.Quarantine
import VirtualMssql.Lib.Ledger

namespace VirtualMssql.CursorOpen

open Calls Ledger List
open VirtualMssql.Filter (VmsErrClass)
open Quarantine (Ret)

/-! ## Resources and calls -/

/-- What can be released: the things an open takes, the row of a cursor, and what belongs to the parent. -/
inductive Res
  | cursor
  | hdbc
  | worker
  | hstmt
  | paramVals
  | paramInds
  | colMeta
  | row
  | parentHdbc
  | parentWorker
  deriving DecidableEq

/-- `HeapFree`, `SQLFreeHandle` and `vms_worker_stop` release; `SQLFreeStmt` and `SQLDisconnect` come before. -/
inductive Release
  | shut (r : Res)
  | free (r : Res)

/-- The calls; `on` is what a handle or a job is asked for, `params`: the statement has bound arrays. -/
inductive Call
  | alloc (r : Res) (on : List Res)
  | release (s : Release)
  | connect
  | bindParameter (k : Nat)
  | queueJob (on : List Res)
  | execDirect (params : Bool)
  | numResultCols
  | describeCol (i : Nat)

abbrev Code (α : Type) := Prog Call Ret α

/-- What a call works on.  An execution reads the arrays that are bound, a description is stored. -/
def Call.uses : Call → List Res
  | .alloc _ on | .queueJob on => on
  | .release (.shut r) => [r]
  | .release (.free _) => []
  | .connect => [.hdbc]
  | .bindParameter _ => [.hstmt, .paramVals, .paramInds]
  | .execDirect params => .hstmt :: if params then [.paramVals, .paramInds] else []
  | .numResultCols => [.hstmt]
  | .describeCol _ => [.hstmt, .colMeta]

/-- What it takes or gives back. -/
def Call.moves : Call → Ret → List (Act Res)
  | .alloc r _, x => if x.succeeded then [⟨.take, r⟩] else []
  | .release (.free r), _ => [⟨.give, r⟩]
  | _, _ => []

def acts (c : Call) (x : Ret) : List (Act Res) := c.uses.map (⟨.use, ·⟩) ++ c.moves x

def perform : List Release → Code Unit
  | [] => pure ()
  | s :: ss => do
    let _ ← call (.release s)
    perform ss

/-- `VmsCursor`; of the fields that only the cursor itself sets, whether they are set. -/
structure VmsCursor where
  hdbc : Option Res := none
  worker : Option Res := none
  hstmt : Bool := false
  ownHdbc : Bool
  colCount : Int := 0
  colMeta : Bool := false
  row : Bool := false
  paramVals : Bool := false
  paramInds : Bool := false
  nparams : Nat := 0

/-- Where an open fails. -/
inductive Point
  | args
  | cursor
  | hdbc
  | worker
  | connstr
  | connect
  | hstmt
  | params
  | bind
  | execute
  | describe
  deriving DecidableEq

/-- What it leaves in `err`: nothing when a job could not be queued, a text, or the diagnostic of a call. -/
inductive OpenError
  | ok
  | set (cls : VmsErrClass) (message : String)
  | diag (what : String)

structure Failure where
  point : Point
  err : OpenError

abbrev Tried (α : Type) := Except Failure α

/-- The rest is done if there was no failure. -/
def andThen {α β : Type} (p : Code (Tried α)) (k : α → Code (Tried β)) : Code (Tried β) := do
  let out ← p
  match out with
  | .error e => pure (.error e)
  | .ok x => k x

/-- Something is released, and NULL returned. -/
def abandon {α : Type} (ss : List Release) (point : Point) (err : OpenError) : Code (Tried α) := do
  let _ ← perform ss
  pure (.error ⟨point, err⟩)

/-! ## `cursor_open_cleanup` -/

def freeIf (set : Bool) (r : Res) : List Release := if set then [.free r] else []

variable (cur : VmsCursor)

/-- `cursor_open_cleanup`. -/
def cursorOpenCleanup (ownsRow : Bool) : List Release :=
  freeIf (ownsRow && cur.row) .row ++
    (if cur.hstmt then [.shut .hstmt, .free .hstmt] else []) ++
    (if cur.ownHdbc then
      cur.hdbc.toList.flatMap (fun h => [.shut h, .free h]) ++ cur.worker.toList.map .free
     else []) ++
    freeIf cur.colMeta .colMeta ++ freeIf cur.paramVals .paramVals ++ freeIf cur.paramInds .paramInds ++
    [.free .cursor]

/-! ## `cursor_open_impl` -/

/-- An HDBC and a worker of its own, connected with the text that the parent has stored. -/
def openLease (connstr : Bool) : Code (Tried VmsCursor) := do
  let h ← call (.alloc .hdbc [])
  if h.succeeded then
    let w ← call (.alloc .worker [])
    if w.succeeded then
      if connstr then
        let r ← call .connect
        if r.succeeded then
          pure (.ok { ownHdbc := true, hdbc := some .hdbc, worker := some .worker })
        else abandon [.free .worker, .free .hdbc, .free .cursor] .connect (.diag "cursor lease connect")
      else
        abandon [.free .worker, .free .hdbc, .free .cursor] .connstr
          (.set .internal "parent connection has no stored connstr for leases")
    else abandon [.free .hdbc, .free .cursor] .worker (.set .noMemory "OOM cursor worker")
  else abandon [.free .cursor] .hdbc (.set .noMemory "OOM cursor lease hdbc")

/-- The connection of the cursor. -/
def openConnection (shared connstr : Bool) : Code (Tried VmsCursor) :=
  if shared then pure (.ok { ownHdbc := false, hdbc := some .parentHdbc, worker := some .parentWorker })
  else openLease connstr

def allocStmt (shared : Bool) (cur : VmsCursor) : Code (Tried VmsCursor) := do
  let h ← call (.alloc .hstmt cur.hdbc.toList)
  if h.succeeded then pure (.ok { cur with hstmt := true })
  else if shared then abandon [.free .cursor] .hstmt (.set .noMemory "OOM cursor stmt")
  else
    abandon
      (cur.hdbc.toList.flatMap (fun h => [.shut h, .free h]) ++ cur.worker.toList.map .free ++ [.free .cursor])
      .hstmt (.set .noMemory "OOM cursor stmt")

/-- A loop of calls with numbers from `k` on, up to the first that fails. -/
def eachCall (c : Nat → Call) : Nat → Nat → Code Bool
  | _, 0 => pure true
  | k, n + 1 => do
    let r ← call (c k)
    if r.succeeded then eachCall c (k + 1) n else pure false

/-- The parameters; until all are bound the arrays belong to the function, not to the cursor. -/
def bindParams (nparams : Nat) (cur : VmsCursor) : Code (Tried VmsCursor) :=
  if nparams = 0 then pure (.ok cur)
  else do
    let vals ← call (.alloc .paramVals [])
    let inds ← call (.alloc .paramInds [])
    if vals.succeeded && inds.succeeded then
      let bound ← eachCall .bindParameter 0 nparams
      if bound then pure (.ok { cur with paramVals := true, paramInds := true, nparams })
      else
        abandon ([.free .paramVals, .free .paramInds] ++ cursorOpenCleanup cur false) .bind (.diag "SQLBindParameter")
    else
      abandon (freeIf vals.succeeded .paramVals ++ freeIf inds.succeeded .paramInds ++ cursorOpenCleanup cur false)
        .params (.set .noMemory "OOM param storage")

/-- `vms_worker_run`: a job that cannot be queued is not run. -/
def vmsWorkerRun {α : Type} (worker : Option Res) (job : Code (Except OpenError α)) : Code (Except OpenError α) := do
  let j ← call (.queueJob worker.toList)
  if j.succeeded then job else pure (.error .ok)

/-- `job_cursor_open`. -/
def jobCursorOpen : Code (Except OpenError Unit) := do
  let r ← call (.execDirect cur.paramVals)
  if r.succeeded ∨ r = .noData then pure (.ok ()) else pure (.error (.diag "cursor open"))

/-- When the execution fails the arrays are released in place, and then the cursor is cleaned up. -/
def executeCleanup : List Release :=
  freeIf cur.paramVals .paramVals ++ freeIf cur.paramInds .paramInds ++ cursorOpenCleanup cur true

def execute : Code (Tried VmsCursor) := do
  let out ← vmsWorkerRun cur.worker (jobCursorOpen cur)
  match out with
  | .ok () => pure (.ok cur)
  | .error e => abandon (executeCleanup cur) .execute e

/-- `job_cursor_meta`; the descriptions stay in the cursor, however it goes on. -/
def jobCursorMeta : Code (VmsCursor × Option OpenError) := do
  let n ← call .numResultCols
  if n.succeeded then
    let cur := { cur with colCount := n.value }
    if 0 < n.value then
      let mem ← call (.alloc .colMeta [])
      if mem.succeeded then
        let described ← eachCall .describeCol 1 n.value.toNat
        pure ({ cur with colMeta := true }, if described then none else some (.diag "cursor SQLDescribeColW"))
      else pure (cur, some (.set .noMemory "OOM cursor meta"))
    else pure (cur, none)
  else pure (cur, some (.diag "cursor SQLNumResultCols"))

def describe : Code (Tried VmsCursor) := do
  let j ← call (.queueJob cur.worker.toList)
  if j.succeeded then
    let (cur, err) ← jobCursorMeta cur
    match err with
    | none => pure (.ok cur)
    | some e => abandon (cursorOpenCleanup cur false) .describe e
  else abandon (cursorOpenCleanup cur false) .describe .ok

/-- `cursor_open_impl`; `args`: a connection and a text are given; `connstr`: the connection has stored its text. -/
def cursorOpenImpl (args shared connstr : Bool) (nparams : Nat) : Code (Tried VmsCursor) :=
  if !args then pure (.error ⟨.args, .set .invalidArg "cursor open: bad args"⟩)
  else do
    let mem ← call (.alloc .cursor [])
    if mem.succeeded then
      andThen (openConnection shared connstr) fun cur =>
        andThen (allocStmt shared cur) fun cur =>
          andThen (bindParams nparams cur) fun cur =>
            andThen (execute cur) describe
    else pure (.error ⟨.cursor, .set .noMemory "OOM cursor"⟩)

/-! ## `vms_cursor_close` -/

/-- `vms_cursor_close`. -/
def vmsCursorClose : List Release :=
  (if cur.hstmt then [.shut .hstmt, .free .hstmt] else []) ++ freeIf cur.row .row ++
    freeIf cur.paramVals .paramVals ++ freeIf cur.paramInds .paramInds ++ freeIf cur.colMeta .colMeta ++
    (if cur.ownHdbc then
      cur.hdbc.toList.flatMap (fun h => [.shut h, .free h]) ++ cur.worker.toList.map .free
     else []) ++
    [.free .cursor]

/-- The resources that are released, in order. -/
def frees (ss : List Release) : List Res :=
  ss.filterMap fun
    | .free r => some r
    | .shut _ => none

/-! ## What an open has taken -/

/-- What a cursor owns, by its fields. -/
def VmsCursor.owned : List Res :=
  .cursor ::
    ((if cur.ownHdbc then [.hdbc, .worker] else []) ++ (if cur.hstmt then [.hstmt] else []) ++
      (if cur.paramVals then [.paramVals] else []) ++ (if cur.paramInds then [.paramInds] else []) ++
      (if cur.colMeta then [.colMeta] else []) ++ if cur.row then [.row] else [])

/-- The parent's HDBC and worker are left alone. -/
def Spared (b : Book Res) : Prop := b .parentHdbc = .fresh ∧ b .parentWorker = .fresh

def Res.own (r : Res) : Prop := r ≠ .parentHdbc ∧ r ≠ .parentWorker

/-- Exactly these have been taken and not given back, and nothing of the parent's. -/
structure Keeps (l : List Res) (b : Book Res) : Prop where
  held : b.Held l
  nodup : l.Nodup
  own : ∀ r ∈ l, r.own
  spared : Spared b

section Keeping
variable {l rs : List Res} {b : Book Res} {r : Res}

theorem keeps_empty : Keeps [] Book.empty := ⟨Book.closed_empty.held, nodup_nil, by simp, rfl, rfl⟩

theorem Keeps.take (h : Keeps l b) (hr : r ∉ l) (hown : r.own) : Keeps (r :: l) (b.enter ⟨.take, r⟩) where
  held := h.held.take hr
  nodup := nodup_cons.mpr ⟨hr, h.nodup⟩
  own q hq := by
    rcases mem_cons.mp hq with rfl | hq
    · exact hown
    · exact h.own q hq
  spared := ⟨(b.enter_of_ne hown.1.symm).trans h.spared.1, (b.enter_of_ne hown.2.symm).trans h.spared.2⟩

theorem Keeps.perm (h : Keeps l b) (hp : l.Perm rs) : Keeps rs b where
  held := ⟨fun r hr => h.held.held r (hp.mem_iff.mpr hr), fun r hr => h.held.rest r fun hl => hr (hp.mem_iff.mp hl)⟩
  nodup := hp.nodup_iff.mp h.nodup
  own r hr := h.own r (hp.mem_iff.mpr hr)
  spared := h.spared

/-- What is not the parent's can be released without it. -/
theorem Keeps.spares (h : Keeps l b) (hrs : ∀ r ∈ rs, r ∈ l) : Spared (b.giveAll rs) := by
  have hout : ∀ {q}, ¬ Res.own q → q ∉ rs := fun hq hmem => hq (h.own _ (hrs _ hmem))
  constructor
  · rw [Book.giveAll_of_not_mem (hout fun hq => hq.1 rfl)]
    exact h.spared.1
  · rw [Book.giveAll_of_not_mem (hout fun hq => hq.2 rfl)]
    exact h.spared.2

/-- What is held may be used, and what is the parent's. -/
theorem Keeps.uses (h : Keeps l b) (hrs : ∀ r ∈ rs, r ∈ l ∨ r = .parentHdbc ∨ r = .parentWorker) :
    (rs.map fun r => (⟨.use, r⟩ : Act Res)).foldl Book.enter b = b := by
  induction rs with
  | nil => rfl
  | cons r rs ih =>
    obtain ⟨hr, hrs⟩ := forall_mem_cons.mp hrs
    have hsame : b.enter ⟨.use, r⟩ = b := by
      refine Book.enter_use ?_
      rcases hr with hr | rfl | rfl
      · rw [h.held.held r hr]
        rfl
      · rw [h.spared.1]
        rfl
      · rw [h.spared.2]
        rfl
    rw [map_cons, foldl_cons, hsame, ih hrs]

/-- **Each is given back once.** -/
theorem Keeps.closed (h : Keeps l b) (hp : rs.Perm l) : (b.giveAll rs).Closed :=
  h.held.giveAll (hp.nodup_iff.mpr h.nodup) fun _ => hp.mem_iff

end Keeping

/-! ## What the cleanups give back -/

theorem frees_append (ss ss' : List Release) : frees (ss ++ ss') = frees ss ++ frees ss' := filterMap_append

theorem frees_freeIf (set : Bool) (r : Res) : frees (freeIf set r) = if set then [r] else [] := by cases set <;> rfl

theorem frees_hstmt :
    frees (if cur.hstmt then [.shut .hstmt, .free .hstmt] else []) = if cur.hstmt then [.hstmt] else [] := by
  split_ifs <;> rfl

/-- A cursor that owns a connection has the one that was taken for it, and there is no row yet. -/
structure VmsCursor.Sound : Prop where
  lease : cur.ownHdbc = true → cur.hdbc = some .hdbc ∧ cur.worker = some .worker
  row : cur.row = false

section Sound
variable {cur} (h : cur.Sound)
include h

/-- The connection is given back exactly if it is the cursor's own. -/
theorem frees_lease : frees (if cur.ownHdbc then
        cur.hdbc.toList.flatMap (fun h => [.shut h, .free h]) ++ cur.worker.toList.map .free
      else []) = if cur.ownHdbc then [.hdbc, .worker] else [] := by
  split_ifs with hown
  · rw [(h.lease hown).1, (h.lease hown).2]
    rfl
  · rfl

/-- **The cleanup goes by the fields, and misses none**: the same parts in another order. -/
theorem cleanup_perm (ownsRow : Bool) : (frees (cursorOpenCleanup cur ownsRow)).Perm cur.owned := by
  rw [perm_iff_count]
  intro r
  have hcursor : frees [.free .cursor] = [.cursor] := rfl
  simp only [cursorOpenCleanup, VmsCursor.owned, h.row, Bool.and_false, Bool.false_eq_true, if_false, frees_append,
    frees_freeIf, frees_hstmt, frees_lease h, hcursor, count_append, count_cons, count_nil]
  omega

theorem close_perm : (frees (vmsCursorClose cur)).Perm cur.owned := by
  rw [perm_iff_count]
  intro r
  have hcursor : frees [.free .cursor] = [.cursor] := rfl
  simp only [vmsCursorClose, VmsCursor.owned, h.row, Bool.false_eq_true, if_false, frees_append, frees_freeIf,
    frees_hstmt, frees_lease h, hcursor, count_append, count_cons, count_nil]
  omega

end Sound

/-- Nothing is shut that is not held any more. -/
def careful : List Res → List Release → Bool
  | _, [] => true
  | l, .shut r :: ss => l.contains r && careful l ss
  | l, .free r :: ss => careful (l.filter (· ≠ r)) ss

/-! ## The cursors of a run -/

/-- A cursor on its way: its connection, and how far it has come. -/
def formed (shared hstmt params colMeta : Bool) (nparams : Nat) (colCount : Int) : VmsCursor where
  ownHdbc := !shared
  hdbc := some (if shared then .parentHdbc else .hdbc)
  worker := some (if shared then .parentWorker else .worker)
  hstmt := hstmt
  paramVals := params
  paramInds := params
  nparams := nparams
  colMeta := colMeta
  colCount := colCount

section Formed
variable {shared hstmt params colMeta : Bool} {nparams : Nat} {colCount : Int}

theorem formed_sound : (formed shared hstmt params colMeta nparams colCount).Sound where
  lease := by cases shared <;> simp [formed]
  row := rfl

/-- **Handles are shut before they are freed.** -/
theorem cleanup_careful (ownsRow : Bool) : careful (formed shared hstmt params colMeta nparams colCount).owned
    (cursorOpenCleanup (formed shared hstmt params colMeta nparams colCount) ownsRow) = true := by
  cases shared <;> cases hstmt <;> cases params <;> cases colMeta <;> cases ownsRow <;> rfl

theorem close_careful : careful (formed shared hstmt params colMeta nparams colCount).owned
    (vmsCursorClose (formed shared hstmt params colMeta nparams colCount)) = true := by
  cases shared <;> cases hstmt <;> cases params <;> cases colMeta <;> rfl

/-- The numbers do not matter. -/
theorem owned_formed : (formed shared hstmt params colMeta nparams colCount).owned =
    (formed shared hstmt params colMeta 0 0).owned := rfl

/-- The descriptions are one thing more. -/
theorem owned_colMeta : (Res.colMeta :: (formed shared hstmt params false nparams 0).owned).Perm
      (formed shared hstmt params true nparams colCount).owned := by
  rw [owned_formed, @owned_formed shared hstmt params true]
  cases shared <;> cases hstmt <;> cases params <;> decide

/-- So are the two arrays. -/
theorem owned_params : (Res.paramInds :: .paramVals :: (formed shared hstmt false colMeta 0 0).owned).Perm
      (formed shared hstmt true colMeta nparams 0).owned := by
  rw [@owned_formed shared hstmt true]
  cases shared <;> cases hstmt <;> cases colMeta <;> decide

end Formed

/-! ## The stages -/

/-- A failed open: all is given back, except that a failed execution gives the arrays back twice. -/
def Failed (nparams : Nat) (f : Failure) (b : Book Res) : Prop :=
  Spared b ∧ if 0 < nparams ∧ f.point = .execute then b .paramVals = .broken else b.Closed

/-- A stage has failed, or the cursor has come so far. -/
def Ends (nparams : Nat) (P : VmsCursor → Prop) (b : Book Res) : Tried VmsCursor → Prop
  | .error f => Failed nparams f b
  | .ok cur => P cur ∧ Keeps cur.owned b

section Stages
variable {α : Type} {nparams : Nat} {b : Book Res} {l : List Res} {P P' : VmsCursor → Prop} {Q : Book Res → α → Prop}

theorem leaves_perform {ss : List Release} : ∀ {b : Book Res} {l : List Res} {k : Unit → Code α},
    (∀ r ∈ l, b r = .held) → careful l ss = true → Leaves acts Q (k ()) (b.giveAll (frees ss)) →
    Leaves acts Q (perform ss >>= k) b := by
  induction ss with
  | nil => exact fun _ _ h => h
  | cons s ss ih =>
    intro b l k hl hcareful h
    cases s with
    | shut r =>
      rw [careful, Bool.and_eq_true, contains_iff_mem] at hcareful
      have hsame : b.enter ⟨.use, r⟩ = b := Book.enter_use (by rw [hl r hcareful.1]; rfl)
      refine leaves_call fun _ => ?_
      show Leaves acts Q (perform ss >>= k) (b.enter ⟨.use, r⟩)
      rw [hsame]
      exact ih hl hcareful.2 h
    | free r =>
      refine leaves_call fun _ => ih (fun q hq => ?_) hcareful h
      obtain ⟨hq, hne⟩ := mem_filter.mp hq
      exact (b.enter_of_ne (by simpa using hne)).trans (hl q hq)

/-- A call that only uses what it may. -/
theorem leaves_use {c : Call} {k : Ret → Code α} (h : Keeps l b)
    (hc : ∀ r ∈ c.uses, r ∈ l ∨ r = .parentHdbc ∨ r = .parentWorker) (hmoves : ∀ x, c.moves x = [])
    (hk : ∀ x, Leaves acts Q (k x) b) : Leaves acts Q (call c >>= k) b := by
  refine leaves_call fun x => ?_
  rw [acts, hmoves, append_nil, h.uses hc]
  exact hk x

/-- Something is taken, or not. -/
theorem leaves_alloc {r : Res} {on : List Res} {k : Ret → Code α} (h : Keeps l b) (hr : r ∉ l) (hown : r.own)
    (hon : ∀ r ∈ on, r ∈ l ∨ r = .parentHdbc ∨ r = .parentWorker)
    (hok : ∀ x b', x.succeeded = true → Keeps (r :: l) b' → Leaves acts Q (k x) b')
    (hno : ∀ x, x.succeeded = false → Leaves acts Q (k x) b) : Leaves acts Q (call (.alloc r on) >>= k) b := by
  refine leaves_call fun x => ?_
  rw [acts, foldl_append, Call.uses, h.uses hon]
  cases hx : x.succeeded with
  | true =>
    rw [show Call.moves (.alloc r on) x = [⟨.take, r⟩] by simp [Call.moves, hx]]
    exact hok x _ hx (h.take hr hown)
  | false =>
    rw [show Call.moves (.alloc r on) x = [] by simp [Call.moves, hx]]
    exact hno x hx

theorem leaves_try {r : Res} {on : List Res} {p q : Code α} (h : Keeps l b) (hr : r ∉ l) (hown : r.own)
    (hon : ∀ r ∈ on, r ∈ l ∨ r = .parentHdbc ∨ r = .parentWorker)
    (hok : ∀ b', Keeps (r :: l) b' → Leaves acts Q p b') (hno : Leaves acts Q q b) :
    Leaves acts Q (call (.alloc r on) >>= fun x => if x.succeeded then p else q) b := by
  refine leaves_alloc h hr hown hon (fun x b' hx h => ?_) fun x hx => ?_
  · rw [if_pos hx]
    exact hok b' h
  · rw [if_neg (by simp [hx])]
    exact hno

/-- **A failure that releases what was taken.** -/
theorem abandon_ends {ss : List Release} {point : Point} {err : OpenError} (h : Keeps l b) (hp : (frees ss).Perm l)
    (hcareful : careful l ss = true) (hpoint : ¬ (0 < nparams ∧ point = .execute)) :
    Leaves acts (Ends nparams P) (abandon ss point err) b := by
  refine leaves_perform h.held.held hcareful (leaves_pure ⟨h.spares fun r hr => hp.mem_iff.mp hr, ?_⟩)
  rw [if_neg hpoint]
  exact h.closed hp

theorem andThen_ends {p : Code (Tried VmsCursor)} {k : VmsCursor → Code (Tried VmsCursor)}
    (hp : Leaves acts (Ends nparams P) p b)
    (hk : ∀ cur b', P cur → Keeps cur.owned b' → Leaves acts (Ends nparams P') (k cur) b') :
    Leaves acts (Ends nparams P') (andThen p k) b := by
  refine hp.bind fun out b' hout => ?_
  cases out with
  | error f => exact leaves_pure hout
  | ok cur => exact hk cur b' hout.1 hout.2

theorem openLease_ends (connstr : Bool) (h : Keeps [.cursor] b) :
    Leaves acts (Ends nparams (· = formed false false false false 0 0)) (openLease connstr) b := by
  refine leaves_try h (by decide) (by simp [Res.own]) (by simp) (fun b h => ?_) (abandon_ends h (.refl _) rfl (by simp))
  refine leaves_try h (by decide) (by simp [Res.own]) (by simp) (fun b h => ?_) (abandon_ends h (.refl _) rfl (by simp))
  split_ifs with hstored
  · refine leaves_use h (by simp [Call.uses]) (fun _ => rfl) fun r => ?_
    split_ifs
    · exact leaves_pure ⟨rfl, h.perm (by decide)⟩
    · exact abandon_ends h (.refl _) rfl (by simp)
  · exact abandon_ends h (.refl _) rfl (by simp)

theorem openConnection_ends (shared connstr : Bool) (h : Keeps [.cursor] b) :
    Leaves acts (Ends nparams (· = formed shared false false false 0 0)) (openConnection shared connstr) b := by
  cases shared with
  | true => exact leaves_pure ⟨rfl, h⟩
  | false => exact openLease_ends connstr h

theorem allocStmt_ends (shared : Bool) (h : Keeps (formed shared false false false 0 0).owned b) :
    Leaves acts (Ends nparams (· = formed shared true false false 0 0))
      (allocStmt shared (formed shared false false false 0 0)) b := by
  refine leaves_try h (by cases shared <;> decide) (by simp [Res.own]) (by cases shared <;> decide) (fun b h => ?_) ?_
  · refine leaves_pure ⟨rfl, h.perm ?_⟩
    cases shared <;> decide
  · cases shared with
    | true => exact abandon_ends h (.refl _) rfl (by simp)
    | false => exact abandon_ends h (by decide) rfl (by simp)

/-- The loops take nothing.  Induction on the number of calls. -/
theorem eachCall_leaves {c : Nat → Call} {Q : Book Res → Bool → Prop} (h : Keeps l b)
    (hc : ∀ k, (∀ r ∈ (c k).uses, r ∈ l) ∧ ∀ x, (c k).moves x = []) (hQ : ∀ x, Q b x) :
    ∀ (n k : Nat), Leaves acts Q (eachCall c k n) b
  | 0, _ => leaves_pure (hQ true)
  | n + 1, k => by
    refine leaves_use h (fun r hr => .inl ((hc k).1 r hr)) (hc k).2 fun r => ?_
    split_ifs
    · exact eachCall_leaves h hc hQ n (k + 1)
    · exact leaves_pure (hQ false)

/-- A cursor with its parameters bound. -/
abbrev bound (shared : Bool) (nparams : Nat) : VmsCursor := formed shared true (decide (0 < nparams)) false nparams 0

theorem bindParams_ends (shared : Bool) (h : Keeps (formed shared true false false 0 0).owned b) :
    Leaves acts (Ends nparams (· = bound shared nparams))
      (bindParams nparams (formed shared true false false 0 0)) b := by
  rw [bindParams]
  split_ifs with hzero
  · subst hzero
    exact leaves_pure ⟨rfl, h⟩
  have hpos : decide (0 < nparams) = true := by simpa using Nat.pos_of_ne_zero hzero
  have hvals : Res.paramVals ∉ (formed shared true false false 0 0).owned := by cases shared <;> decide
  have hinds : ∀ l, (l = [] ∨ l = [.paramVals]) → Res.paramInds ∉ l ++ (formed shared true false false 0 0).owned := by
    rintro l (rfl | rfl) <;> cases shared <;> decide
  -- the arrays are released in front of the cleanup, those that there are
  have hfree : ∀ v i, let l := (if i then [Res.paramInds] else []) ++ ((if v then [Res.paramVals] else []) ++
        (formed shared true false false 0 0).owned)
      let ss := freeIf v .paramVals ++ freeIf i .paramInds ++
        cursorOpenCleanup (formed shared true false false 0 0) false
      (frees ss).Perm l ∧ careful l ss = true := by
    intro v i
    cases v <;> cases i <;> cases shared <;> decide
  refine leaves_alloc h hvals (by simp [Res.own]) (by simp) (fun v b hv h => ?_) fun v hv => ?_
  · refine leaves_alloc h (hinds _ (.inr rfl)) (by simp [Res.own]) (by simp) (fun i b hi h => ?_) fun i hi => ?_
    · simp only [hv, hi, Bool.and_self, if_true]
      have hbind : Leaves acts (fun b' _ => b' = b) (eachCall .bindParameter 0 nparams) b :=
        eachCall_leaves h (fun _ => ⟨by simp [Call.uses, formed, VmsCursor.owned], fun _ => rfl⟩)
          (fun _ => rfl) nparams 0
      refine hbind.bind fun ok b' hb' => ?_
      subst hb'
      split_ifs
      · refine leaves_pure ⟨?_, h.perm ?_⟩
        · simp [formed, hpos]
        · exact owned_params
      · exact abandon_ends h (hfree true true).1 (hfree true true).2 (by simp)
    · simp only [hv, hi, Bool.and_false, Bool.false_eq_true, if_false]
      exact abandon_ends h (hfree true false).1 (hfree true false).2 (by simp)
  · refine leaves_alloc h (hinds _ (.inl rfl)) (by simp [Res.own]) (by simp) (fun i b hi h => ?_) fun i hi => ?_
    · simp only [hv, hi, Bool.false_and, Bool.false_eq_true, if_false]
      exact abandon_ends h (hfree false true).1 (hfree false true).2 (by simp)
    · simp only [hv, hi, Bool.false_and, Bool.false_eq_true, if_false]
      exact abandon_ends h (hfree false false).1 (hfree false false).2 (by simp)

/-- **A failed execution.**  The cursor still has its arrays when it is cleaned up. -/
theorem execute_fails (shared : Bool) (err : OpenError) (h : Keeps (bound shared nparams).owned b) :
    Leaves acts (Ends nparams P) (abandon (executeCleanup (bound shared nparams)) .execute err) b := by
  by_cases hpos : 0 < nparams
  · have hcur : bound shared nparams = formed shared true true false nparams 0 := by rw [bound, decide_eq_true hpos]
    have htwice : frees (executeCleanup (bound shared nparams)) =
        [Res.paramVals, Res.paramInds] ++ frees (cursorOpenCleanup (bound shared nparams) true) := by
      rw [hcur]
      rfl
    have harrays : ∀ r ∈ [Res.paramVals, .paramInds], r ∈ (bound shared nparams).owned := by
      rw [hcur]
      cases shared <;> simp [formed, VmsCursor.owned]
    have hcareful : careful (bound shared nparams).owned (executeCleanup (bound shared nparams)) = true := by
      rw [hcur]
      cases shared <;> rfl
    refine leaves_perform h.held.held hcareful (leaves_pure ⟨h.spares fun r hr => ?_, ?_⟩)
    · rw [htwice] at hr
      rcases mem_append.mp hr with hr | hr
      · exact harrays r hr
      · exact (cleanup_perm formed_sound true).mem_iff.mp hr
    · rw [if_pos ⟨hpos, rfl⟩, htwice]
      refine Book.giveAll_twice mem_cons_self ((cleanup_perm formed_sound true).mem_iff.mpr ?_)
      exact harrays .paramVals mem_cons_self
  · have hcur : bound shared nparams = formed shared true false false nparams 0 := by rw [bound, decide_eq_false hpos]
    rw [hcur] at h ⊢
    exact abandon_ends h (cleanup_perm formed_sound true) (cleanup_careful true) (by simp [hpos])

theorem execute_ends (shared : Bool) (h : Keeps (bound shared nparams).owned b) :
    Leaves acts (Ends nparams (· = bound shared nparams)) (execute (bound shared nparams)) b := by
  have hworker : ∀ r ∈ (bound shared nparams).worker.toList,
      r ∈ (bound shared nparams).owned ∨ r = .parentHdbc ∨ r = .parentWorker := by
    cases shared <;> simp [bound, formed, VmsCursor.owned]
  have hstmt : ∀ r ∈ (Call.execDirect (bound shared nparams).paramVals).uses,
      r ∈ (bound shared nparams).owned ∨ r = .parentHdbc ∨ r = .parentWorker := by
    cases shared <;> by_cases hpos : 0 < nparams <;> simp [bound, formed, VmsCursor.owned, Call.uses, hpos]
  have hjob : Leaves acts (fun b' _ => b' = b)
      (vmsWorkerRun (bound shared nparams).worker (jobCursorOpen (bound shared nparams))) b := by
    refine leaves_use h hworker (fun _ => rfl) fun j => ?_
    split_ifs
    · refine leaves_use h hstmt (fun _ => rfl) fun r => ?_
      split_ifs <;> exact leaves_pure rfl
    · exact leaves_pure rfl
  refine hjob.bind fun out b' hb' => ?_
  subst hb'
  cases out with
  | ok x => exact leaves_pure ⟨rfl, h⟩
  | error e => exact execute_fails shared e h

/-- The description leaves the cursor as it was, but for its columns. -/
def Described (shared : Bool) (nparams : Nat) (cur : VmsCursor) : Prop :=
  ∃ colMeta colCount, cur = formed shared true (decide (0 < nparams)) colMeta nparams colCount

theorem jobCursorMeta_leaves (shared : Bool) (h : Keeps (bound shared nparams).owned b) :
    Leaves acts (fun b out => Described shared nparams out.1 ∧ Keeps out.1.owned b)
      (jobCursorMeta (bound shared nparams)) b := by
  refine leaves_use h (by simp [Call.uses, bound, formed, VmsCursor.owned]) (fun _ => rfl) fun n => ?_
  split_ifs
  · have hnew : Res.colMeta ∉ (bound shared nparams).owned := by
      cases shared <;> by_cases hpos : 0 < nparams <;> simp [bound, formed, VmsCursor.owned, hpos]
    refine leaves_try h hnew (by simp [Res.own]) (by simp) (fun b h => ?_) ?_
    · have hloop : Leaves acts (fun b' _ => b' = b) (eachCall .describeCol 1 n.value.toNat) b := by
        refine eachCall_leaves h (fun _ => ⟨?_, fun _ => rfl⟩) (fun _ => rfl) _ 1
        simp [Call.uses, bound, formed, VmsCursor.owned]
      refine hloop.bind fun described b' hb' => ?_
      subst hb'
      refine leaves_pure ⟨⟨true, n.value, rfl⟩, h.perm ?_⟩
      exact owned_colMeta
    · exact leaves_pure ⟨⟨false, n.value, rfl⟩, h⟩
  · exact leaves_pure ⟨⟨false, n.value, rfl⟩, h⟩
  · exact leaves_pure ⟨⟨false, 0, rfl⟩, h⟩

theorem describe_ends (shared : Bool) (h : Keeps (bound shared nparams).owned b) :
    Leaves acts (Ends nparams (Described shared nparams)) (describe (bound shared nparams)) b := by
  refine leaves_use h (by cases shared <;> simp [Call.uses, bound, formed, VmsCursor.owned]) (fun _ => rfl) fun j => ?_
  split_ifs
  · refine (jobCursorMeta_leaves shared h).bind fun out b hout => ?_
    obtain ⟨cur, err⟩ := out
    obtain ⟨⟨colMeta, colCount, rfl⟩, h⟩ := hout
    cases err with
    | none => exact leaves_pure ⟨⟨colMeta, colCount, rfl⟩, h⟩
    | some e => exact abandon_ends h (cleanup_perm formed_sound false) (cleanup_careful false) (by simp)
  · exact abandon_ends h (cleanup_perm formed_sound false) (cleanup_careful false) (by simp)

/-- **Every open ends so**: with a cursor that owns what was taken, or failed. -/
theorem cursorOpenImpl_ends (args shared connstr : Bool) :
    Leaves acts (Ends nparams (Described shared nparams)) (cursorOpenImpl args shared connstr nparams) Book.empty := by
  have hnone : ∀ f : Failure, f.point ≠ .execute → Failed nparams f Book.empty := by
    intro f hf
    refine ⟨⟨rfl, rfl⟩, ?_⟩
    rw [if_neg fun h => hf h.2]
    exact Book.closed_empty
  rw [cursorOpenImpl]
  split_ifs
  · exact leaves_pure (hnone _ nofun)
  · refine leaves_try keeps_empty (by simp) (by simp [Res.own]) (by simp) (fun b h => ?_) (leaves_pure (hnone _ nofun))
    refine andThen_ends (openConnection_ends shared connstr h) ?_
    rintro _ b rfl h
    refine andThen_ends (allocStmt_ends shared h) ?_
    rintro _ b rfl h
    refine andThen_ends (bindParams_ends shared h) ?_
    rintro _ b rfl h
    refine andThen_ends (execute_ends shared h) ?_
    rintro _ b rfl h
    exact describe_ends shared h

end Stages

/-! ## The execution -/

/-- The answer to call number `i`. -/
def answer (xs : List Ret) (i : Nat) : Ret := xs.getD i default

/-- The first `n` calls are answered with success. -/
def Passed (n : Nat) (xs : List Ret) : Prop := ∀ i < n, (answer xs i).succeeded = true

/-- **The execution is refused** behind `n` calls: they succeed, and then its job is not queued, or the server answers
    with neither success nor no data. -/
def ExecutionRefused (n : Nat) (xs : List Ret) : Prop :=
  Passed n xs ∧
    ((answer xs n).succeeded = false ∨ ¬ ((answer xs (n + 1)).succeeded = true ∨ answer xs (n + 1) = .noData))

/-- The calls before it: for the cursor, a connection of its own, the statement, the arrays and the parameters. -/
def callsBefore (shared : Bool) (nparams : Nat) : Nat := (if shared then 2 else 5) + (2 + nparams)

section Execution
variable {α : Type} {xs : List Ret} {n : Nat}

theorem answer_succ (xs : List Ret) (i : Nat) : answer xs (i + 1) = answer xs.tail i := by cases xs <;> simp [answer]

theorem answer_add (xs : List Ret) (n i : Nat) : answer xs (n + i) = answer (xs.drop n) i := by
  simp [answer, getD_eq_getElem?_getD]

theorem passed_succ : Passed (n + 1) xs ↔ (xs.headD default).succeeded = true ∧ Passed n xs.tail := by
  have hhead : answer xs 0 = xs.headD default := by cases xs <;> rfl
  simp only [Passed, Nat.forall_lt_succ_left, answer_succ, hhead]

theorem executionRefused_succ : ExecutionRefused (n + 1) xs ↔
    (xs.headD default).succeeded = true ∧ ExecutionRefused n xs.tail := by
  rw [ExecutionRefused, ExecutionRefused, passed_succ, answer_succ, answer_succ, and_assoc]

/-- The program fails at the execution. -/
def Fails (p : Code (Tried α)) (xs : List Ret) : Prop := ∃ f, (p.run xs).2 = .error f ∧ f.point = .execute

/-- Whatever it is answered, it does not. -/
def Avoids (p : Code (Tried α)) : Prop :=
  p.wp (fun _ _ _ => ()) (fun _ out => ∀ f, out = .error f → f.point ≠ .execute) ()

theorem Avoids.not_fails {p : Code (Tried α)} (h : Avoids p) : ¬ Fails p xs := fun ⟨f, hf, hpoint⟩ =>
  Prog.wp.run h xs f hf hpoint

theorem wp_true {β : Type} : ∀ (p : Code β), p.wp (fun _ _ _ => ()) (fun _ _ => True) ()
  | .ret _ => trivial
  | .ask _ k => fun x => wp_true (k x)

theorem avoids_after {β : Type} {p : Code β} {k : β → Code (Tried α)} (h : ∀ x, Avoids (k x)) : Avoids (p >>= k) :=
  wp_bind.mpr ((wp_true p).mono fun _ x _ => h x)

/-- A failure is passed on. -/
theorem abandon_wp {β : Type} {ss : List Release} {point : Point} {err : OpenError} {k : β → Code (Tried α)} :
    (andThen (abandon ss point err) k).wp (fun _ _ _ => ()) (fun _ out => out = .error ⟨point, err⟩) () :=
  wp_bind.mpr (wp_bind.mpr ((wp_true _).mono fun _ _ _ => rfl))

theorem avoids_abandon {β : Type} {ss : List Release} {point : Point} {err : OpenError} {k : β → Code (Tried α)}
    (h : point ≠ .execute) : Avoids (andThen (abandon ss point err) k) := by
  refine abandon_wp.mono fun _ out hout f hf => ?_
  cases hout.symm.trans hf
  exact h

theorem avoids_describe (cur : VmsCursor) : Avoids (describe cur) := by
  refine avoids_after fun j => ?_
  split_ifs
  · refine avoids_after fun out => ?_
    obtain ⟨cur, err⟩ := out
    cases err with
    | none => exact nofun
    | some e => exact avoids_after fun _ => by rintro f ⟨⟩; exact nofun
  · exact avoids_after fun _ => by rintro f ⟨⟩; exact nofun

theorem andThen_bind {β γ : Type} {f : γ → Code (Tried β)} {k : β → Code (Tried α)} : ∀ p : Code γ,
    andThen (p >>= f) k = p >>= fun x => andThen (f x) k
  | .ret _ => rfl
  | .ask e g => congrArg (Prog.ask e) (funext fun x => andThen_bind (g x))

section Steps
variable {β : Type} {k : β → Code (Tried α)}

theorem fails_try {c : Call} {p q : Code (Tried β)} (hq : Avoids (andThen q k)) :
    Fails (andThen (call c >>= fun x => if x.succeeded then p else q) k) xs ↔
      (xs.headD default).succeeded = true ∧ Fails (andThen p k) xs.tail := by
  show Fails (andThen (if (xs.headD default).succeeded then p else q) k) xs.tail ↔ _
  split_ifs with hx
  · exact (and_iff_right hx).symm
  · exact iff_of_false hq.not_fails fun h => hx h.1

/-- The loop goes on as long as it is answered with success.  Induction on the number of parameters. -/
theorem fails_eachCall {c : Nat → Call} {k : Bool → Code (Tried α)} (hk : Avoids (k false)) :
    ∀ (n i : Nat) (xs : List Ret), Fails (eachCall c i n >>= k) xs ↔ Passed n xs ∧ Fails (k true) (xs.drop n)
  | 0, i, xs => by
    show Fails (k true) xs ↔ _
    simp [Passed]
  | n + 1, i, xs => by
    show Fails ((if (xs.headD default).succeeded then eachCall c (i + 1) n else pure false) >>= k) xs.tail ↔ _
    rw [passed_succ, ← drop_tail]
    split_ifs with hx
    · rw [fails_eachCall hk n, and_iff_right hx]
    · exact iff_of_false hk.not_fails fun h => hx h.1.1

/-- The parameters, when there are some. -/
theorem fails_bindParams {nparams : Nat} {cur : VmsCursor} {k : VmsCursor → Code (Tried α)} (hpos : 0 < nparams) :
    Fails (andThen (bindParams nparams cur) k) xs ↔ Passed (2 + nparams) xs ∧
      Fails (k { cur with paramVals := true, paramInds := true, nparams }) (xs.drop (2 + nparams)) := by
  rw [bindParams, if_neg (by omega), Nat.add_comm 2, passed_succ, passed_succ, ← drop_tail, ← drop_tail]
  show Fails (andThen (if (xs.headD default).succeeded && (xs.tail.headD default).succeeded then _ else _) k)
    xs.tail.tail ↔ _
  split_ifs with harrays
  · rw [Bool.and_eq_true] at harrays
    rw [andThen_bind, fails_eachCall (avoids_abandon (by decide)), and_iff_right harrays.1, and_iff_right harrays.2]
    rfl
  · refine iff_of_false (avoids_abandon (by decide)).not_fails fun h => harrays ?_
    rw [h.1.1, h.1.2.1]
    rfl

end Steps

theorem fails_execute (cur : VmsCursor) : Fails (andThen (execute cur) describe) xs ↔
    (answer xs 0).succeeded = false ∨ ¬ ((answer xs 1).succeeded = true ∨ answer xs 1 = .noData) := by
  have hfails : ∀ e ys, Fails (andThen (abandon (executeCleanup cur) .execute e) describe) ys := fun e ys =>
    ⟨_, Prog.wp.run abandon_wp ys, rfl⟩
  have hhead : ∀ ys, answer ys 0 = ys.headD default := by intro ys; cases ys <;> rfl
  rw [execute, andThen_bind, answer_succ, hhead, hhead]
  show Fails ((if (xs.headD default).succeeded then jobCursorOpen cur else pure (.error .ok)) >>= _) xs.tail ↔ _
  split_ifs with hjob
  · show Fails ((if (xs.tail.headD default).succeeded = true ∨ xs.tail.headD default = .noData then
      (pure (.ok ()) : Code (Except OpenError Unit)) else pure (.error (.diag "cursor open"))) >>= _) xs.tail.tail ↔ _
    split_ifs with hexec
    · refine iff_of_false (avoids_describe cur).not_fails fun h => ?_
      exact h.elim (fun hno => Bool.noConfusion (hno.symm.trans hjob)) fun hno => hno hexec
    · exact iff_of_true (hfails _ _) (.inr hexec)
  · exact iff_of_true (hfails _ _) (.inl (by simpa using hjob))

/-- The connection: nothing is asked for a shared one, and three calls are made for a lease. -/
theorem fails_openConnection (shared connstr : Bool) {k : VmsCursor → Code (Tried VmsCursor)}
    (hk : ∀ cur ys, Fails (k cur) ys ↔ ExecutionRefused n ys) : Fails (andThen (openConnection shared connstr) k) xs ↔
      (shared = true ∨ connstr = true) ∧ ExecutionRefused (n + if shared then 0 else 3) xs := by
  cases shared with
  | true => exact (hk _ _).trans (and_iff_right (.inl rfl)).symm
  | false =>
    show Fails (andThen (openLease connstr) k) xs ↔
      (false = true ∨ connstr = true) ∧ ExecutionRefused (n + 1 + 1 + 1) xs
    rw [openLease, fails_try (avoids_abandon (by decide)), fails_try (avoids_abandon (by decide)),
      executionRefused_succ, executionRefused_succ, executionRefused_succ]
    cases connstr with
    | true =>
      rw [if_pos rfl, fails_try (avoids_abandon (by decide)), and_iff_right (.inr rfl : false = true ∨ true = true)]
      exact and_congr_right fun _ => and_congr_right fun _ => and_congr_right fun _ => hk _ _
    | false =>
      rw [if_neg Bool.false_ne_true]
      exact iff_of_false (fun h => (avoids_abandon (by decide)).not_fails h.2.2) fun h => by simpa using h.1

/-- **When an open with parameters fails at the execution.** -/
theorem fails_iff (args shared connstr : Bool) {nparams : Nat} (hpos : 0 < nparams) (xs : List Ret) :
    Fails (cursorOpenImpl args shared connstr nparams) xs ↔
      args = true ∧ (shared = true ∨ connstr = true) ∧ ExecutionRefused (callsBefore shared nparams) xs := by
  -- behind the connection: the statement, the arrays and the parameters
  have hstmt : ∀ cur ys, Fails (andThen (allocStmt shared cur) fun cur => andThen (bindParams nparams cur) fun cur =>
      andThen (execute cur) describe) ys ↔ ExecutionRefused (2 + nparams + 1) ys := by
    intro cur ys
    rw [allocStmt, fails_try (by split_ifs <;> exact avoids_abandon (by decide)), executionRefused_succ]
    refine and_congr_right fun _ => (fails_bindParams hpos).trans ?_
    rw [fails_execute, ← answer_add, ← answer_add, Nat.add_zero]
    rfl
  have hcalls : callsBefore shared nparams = (2 + nparams + 1 + if shared then 0 else 3) + 1 := by
    cases shared <;> simp [callsBefore] <;> omega
  cases args with
  | false => exact iff_of_false (fun ⟨f, hf, hpoint⟩ => by cases hf; cases hpoint) nofun
  | true =>
    rw [hcalls, executionRefused_succ, and_iff_right rfl, and_left_comm, ← fails_openConnection shared connstr hstmt]
    show Fails (if (xs.headD default).succeeded then _ else _) xs.tail ↔ _
    split_ifs with hmem
    · exact (and_iff_right hmem).symm
    · exact iff_of_false (fun ⟨f, hf, hpoint⟩ => by cases hf; cases hpoint) fun h => hmem h.1

end Execution

/-! ## The result -/

/-- What happened to a resource in a run. -/
def historyOf (r : Res) (calls : List (Call × Ret)) : List Kind := about r (entries acts calls)

/-- When NULL is returned, everything that was taken has been given back exactly once, and nothing of the parent's. -/
def Released (out : List (Call × Ret) × Tried VmsCursor) : Prop :=
  ∀ f, out.2 = .error f → (∀ r, Settled (historyOf r out.1)) ∧
    .give ∉ historyOf .parentHdbc out.1 ∧ .give ∉ historyOf .parentWorker out.1

/-- The parent's are never released, however an open fails. -/
theorem parent_spared (args shared connstr : Bool) (nparams : Nat) (xs : List Ret) :
    let out := (cursorOpenImpl args shared connstr nparams).run xs
    .give ∉ historyOf .parentHdbc out.1 ∧ .give ∉ historyOf .parentWorker out.1 := by
  intro out
  have hends := (@cursorOpenImpl_ends nparams args shared connstr).run xs
  have hspared : Spared fun r => Status.fresh.after (historyOf r out.1) := by
    revert hends
    cases ((cursorOpenImpl args shared connstr nparams).run xs).2 with
    | error f => exact fun h => h.1
    | ok cur => exact fun h => h.2.spared
  constructor
  · exact fun h => nomatch uses_of_fresh hspared.1 _ h
  · exact fun h => nomatch uses_of_fresh hspared.2 _ h

/-- **When a failed open releases each resource exactly once**: unless it has parameters and the execution is
    refused. -/
theorem released_iff (args shared connstr : Bool) (nparams : Nat) (xs : List Ret) :
    Released ((cursorOpenImpl args shared connstr nparams).run xs) ↔
      ¬ (args = true ∧ (shared = true ∨ connstr = true) ∧ 0 < nparams ∧
        ExecutionRefused (callsBefore shared nparams) xs) := by
  have hends := (@cursorOpenImpl_ends nparams args shared connstr).run xs
  constructor
  · rintro hreleased ⟨hargs, hconn, hpos, hrefused⟩
    obtain ⟨f, hf, hpoint⟩ := (fails_iff args shared connstr hpos xs).mpr ⟨hargs, hconn, hrefused⟩
    rw [hf, Ends, Failed, if_pos ⟨hpos, hpoint⟩] at hends
    rcases settled_iff.mp ((hreleased f hf).1 .paramVals) with hover | hover <;> exact nomatch hends.2.symm.trans hover
  · intro hgood f hf
    rw [hf, Ends, Failed, if_neg fun hbad => hgood ?_] at hends
    · exact ⟨fun r => settled_iff.mpr (hends.2 r), parent_spared args shared connstr nparams xs⟩
    · obtain ⟨hargs, hconn, hrefused⟩ := (fails_iff args shared connstr hbad.1 xs).mp ⟨f, hf, hbad.2⟩
      exact ⟨hargs, hconn, hbad.1, hrefused⟩

/-- Eight calls succeed and a job is queued; then the server refuses the statement. -/
def refused : List Ret := List.replicate 9 (.success 0) ++ [.error [['4', '2', '0', '0', '0']]]

/-- **A statement with one parameter that the server refuses**: the arrays are released twice. -/
theorem released_twice : let out := (cursorOpenImpl true false true 1).run refused
    historyOf .paramVals out.1 = [.take, .use, .use, .give, .give] ∧
      historyOf .paramInds out.1 = [.take, .use, .use, .give, .give] ∧
      ¬ Released out := by
  intro out
  have hvals : historyOf .paramVals out.1 = [.take, .use, .use, .give, .give] := by decide +kernel
  have hinds : historyOf .paramInds out.1 = [.take, .use, .use, .give, .give] := by decide +kernel
  refine ⟨hvals, hinds, fun h => ?_⟩
  have hsettled := (h ⟨.execute, .diag "cursor open"⟩ rfl).1 .paramVals
  rw [hvals, settled_iff] at hsettled
  rcases hsettled with hover | hover <;> exact nomatch hover

/-- An open that succeeds, and the close. -/
def openAndClose (args shared connstr : Bool) (nparams : Nat) : Code Bool := do
  let out ← cursorOpenImpl args shared connstr nparams
  match out with
  | .error _ => pure false
  | .ok cur =>
    let _ ← perform (vmsCursorClose cur)
    pure true

end VirtualMssql.CursorOpen
