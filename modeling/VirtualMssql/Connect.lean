/-
  xCONNECT — `vms_vtab_connect` on a table source, and the column list it declares.

  In live mode the list is read from the server.  In cached mode the cache is asked first, without a
  fingerprint, and then the server; a list that is read is stored when there is no row, and compared with
  the row by its fingerprint when there is one.  A difference is a drift: the row is dropped and the
  call fails.  When the server cannot be read, the row is declared as it is.

  Over whole histories of calls and changes of the server's tables the declared list is the one just read
  or one read earlier and not dropped since (`cached_sound_iff`).  The comparison has one hole: a list
  whose fingerprint is zero is taken for one that was not asked for, and is not compared.
-/
import VirtualMssql.MetaCache
import VirtualMssql.Quoting

namespace VirtualMssql.Connect

open Bytes MetaCache Run List Option Function
open TSql (wide)
open Quoting (vtabDecl)

/-! ## The call -/

/-- The arguments of a table source, without quotes. -/
structure ConnectArgs where
  schema : List Nat
  table : List Nat
  rw : Bool := false
  spatialWkt : Bool := false
  metadataCached : Bool := false
  deriving DecidableEq

/-- What the server has to say about a table: no connection could be leased, the catalog could not be
    read, or the columns. -/
inductive LiveRead
  | noLease (msg : List Nat)
  | failed (msg : List Nat)
  | cols (cols : List VmsMetaColumn)

/-- Is there memory, does the cache's database do its part, which declarations does SQLite take, and what
    does it say to the others? -/
structure ConnectReply where
  tab : Bool := true
  lookup : CacheReply := {}
  fingerprint : Bool := true
  put : CacheReply := {}
  again : CacheReply := {}
  drop : CacheReply := {}
  cols : Bool := true
  declares : List Nat → Bool := fun _ => true
  errmsg : List Nat := []

/-- No memory, or an error with its text. -/
inductive ConnectError
  | nomem
  | text (msg : List Nat)
  deriving DecidableEq

/-- What the new `VmsVtab` is made of, and the text SQLite was given. -/
structure Declared where
  cols : List VmsMetaColumn
  schemaFp : Nat
  capturedUtc : Int
  rwMode : Bool
  spatialWkt : Bool
  decl : List Nat
  deriving DecidableEq

/-- What a call does besides: it reads a table's columns, it drops a table's row. -/
inductive Event
  | read (t : List Nat × List Nat) (cols : List VmsMetaColumn)
  | drop (t : List Nat × List Nat)

/-- The outcome of a part of the call, the cache and the events behind it, the last one first. -/
structure Outcome (α : Type) where
  res : Except ConnectError α
  cache : VmsMetaCache
  trace : List Event := []

variable (a : ConnectArgs)

def ConnectArgs.source : List Nat × List Nat := (a.schema, a.table)

/-- `schema.table`, as the texts have it. -/
def ConnectArgs.full : List Nat := a.schema ++ wide "." ++ a.table

def endsIn (suffix name : List Nat) : Bool := decide (suffix.length < name.length) && suffix.isSuffixOf name

/-- `vms_vtab_shadow_name`. -/
def vmsVtabShadowName (name : List Nat) : Bool := endsIn (wide "_vms_schema") name || endsIn (wide "_vms_metadata") name

/-- The shape in live mode. -/
def discoverLive (live : LiveRead) (now : Int) (r : ConnectReply) (c : VmsMetaCache) :
    Outcome (List VmsMetaColumn × Nat × Int) :=
  match live with
  | .noLease msg => { res := .error (.text (wide "virtualmssql: probe lease failed: " ++ msg)), cache := c }
  | .failed msg => { res := .error (.text (wide "virtualmssql: metadata read failed: " ++ msg)), cache := c }
  | .cols cols =>
    { res := .ok (cols, vmsMetaFingerprint r.fingerprint cols, now), cache := c, trace := [.read a.source cols] }

def corruptText : ConnectError :=
  .text (wide "virtualmssql: corrupt metadata cache entry for '" ++ a.full ++ wide "'")

def driftText : ConnectError :=
  .text (wide "virtualmssql: SCHEMA_DRIFT on '" ++ a.full ++
    wide "': cached metadata no longer matches the server; drop and recreate the virtual table")

def unavailableText (msg : List Nat) : ConnectError :=
  .text (wide "virtualmssql: server unavailable and no usable cached metadata for '" ++ a.full ++ wide "': " ++ msg)

/-- The message of a read that failed is cleared. -/
def LiveRead.message : LiveRead → List Nat
  | .noLease msg => msg
  | .failed _ => []
  | .cols _ => []

/-- The shape in cached mode. -/
def discoverCached (live : LiveRead) (now : Int) (r : ConnectReply) (c : VmsMetaCache) :
    Outcome (List VmsMetaColumn × Nat × Int) :=
  let (cres, cached) := vmsMetaCacheGet c a.schema a.table 0 r.lookup
  if cres = .corrupt then { res := .error (corruptText a), cache := c }
  else
    match live with
    | .cols cols =>
      let liveFp := vmsMetaFingerprint r.fingerprint cols
      let read := [Event.read a.source cols]
      if cres = .miss then
        { res := .ok (cols, liveFp, 0)
          cache := (vmsMetaCachePut c a.schema a.table cols liveFp now r.put).2
          trace := read }
      else if liveFp ≠ 0 then
        match (vmsMetaCacheGet c a.schema a.table liveFp r.again).1 with
        | .drift =>
          { res := .error (driftText a)
            cache := vmsMetaCacheDrop c a.schema a.table r.drop
            trace := .drop a.source :: read }
        | .corrupt => { res := .error (corruptText a), cache := c, trace := read }
        | _ => { res := .ok (cols, liveFp, 0), cache := c, trace := read }
      else { res := .ok (cols, liveFp, 0), cache := c, trace := read }
    | _ =>
      if cres = .miss ∨ cres = .drift then { res := .error (unavailableText a live.message), cache := c }
      else { res := .ok (cached.getD [], 0, -1), cache := c }

/-- Here the names come from the buffers of the `VmsVtab`, which are a byte too short for the longest. -/
def unsupportedText (m : VmsMetaColumn) : ConnectError :=
  .text (wide "virtualmssql: UNSUPPORTED_TYPE: column '" ++ m.name ++ wide "' of '" ++ a.schema.take 127 ++
    wide "." ++ a.table.take 127 ++ wide "' has SQL Server type '" ++ m.typeName ++ wide "' with no lossless mapping")

/-- The second half: the columns are counted, looked through and declared. -/
def declare (r : ConnectReply) (shape : List VmsMetaColumn × Nat × Int) :
    Except ConnectError Declared :=
  let (cols, schemaFp, capturedUtc) := shape
  if cols.length < 1 ∨ 512 < cols.length then
    .error (.text (wide "virtualmssql: object has " ++ decimal cols.length ++ wide " columns (unsupported)"))
  else if !r.cols then .error .nomem
  else
    match cols.find? (·.vtype = .unsupported) with
    | some m => .error (unsupportedText a m)
    | none =>
      match vtabDecl a.spatialWkt cols with
      | none => .error (.text (wide "virtualmssql: schema too wide"))
      | some decl =>
        if r.declares decl then
          .ok { cols, schemaFp, capturedUtc, rwMode := a.rw, spatialWkt := a.spatialWkt, decl }
        else .error (.text (wide "virtualmssql: declare_vtab failed: " ++ r.errmsg))

/-- `vms_vtab_connect`, for a table source and without a connection key. -/
def vmsVtabConnect (live : LiveRead) (now : Int) (r : ConnectReply) (c : VmsMetaCache) :
    Outcome Declared :=
  if !vmsMetaIdentValid a.schema 128 || !vmsMetaIdentValid a.table 128 then
    { res := .error (.text (wide "virtualmssql: invalid identifier")), cache := c }
  else if vmsVtabShadowName a.table then
    { res := .error (.text (wide "virtualmssql: '" ++ a.table ++ wide "' is a reserved shadow name (module-private)"))
      cache := c }
  else if !r.tab then { res := .error .nomem, cache := c }
  else
    let out := if a.metadataCached then discoverCached a live now r c else discoverLive a live now r c
    { res := out.res >>= declare a r, cache := out.cache, trace := out.trace }

/-! ## Histories -/

/-- The cache, the tables of the server, and what the calls did so far, the last first. -/
structure World where
  cache : VmsMetaCache
  remote : List Nat × List Nat → List VmsMetaColumn
  log : List Event := []

/-- How a call finds the server. -/
inductive Reach
  | up
  | noLease (msg : List Nat)
  | failed (msg : List Nat)

def Reach.live (w : World) (t : List Nat × List Nat) : Reach → LiveRead
  | .up => .cols (w.remote t)
  | .noLease msg => .noLease msg
  | .failed msg => .failed msg

/-- The server's table changes, or xConnect is called. -/
inductive Input
  | change (t : List Nat × List Nat) (cols : List VmsMetaColumn)
  | connect (a : ConnectArgs) (reach : Reach) (now : Int) (r : ConnectReply)

def World.connect (w : World) (a : ConnectArgs) (reach : Reach) (now : Int) (r : ConnectReply) : Outcome Declared :=
  vmsVtabConnect a (reach.live w a.source) now r w.cache

def step (w : World) : Input → World
  | .change t cols => { w with remote := update w.remote t cols }
  | .connect a reach now r =>
    let out := w.connect a reach now r
    { w with cache := out.cache, log := out.trace ++ w.log }

def start (remote : List Nat × List Nat → List VmsMetaColumn) : World := { cache := fun _ => none, remote }

/-- No allocation fails, and the cache's database does its part. -/
structure ConnectReply.Unfailing (r : ConnectReply) : Prop where
  tab : r.tab = true
  lookup : r.lookup = {}
  fingerprint : r.fingerprint = true
  put : r.put = {}
  again : r.again = {}
  drop : r.drop = {}
  cols : r.cols = true

/-- The inputs of a history: lists that can be read, and calls in cached mode in which nothing local fails. -/
def Input.Regular : Input → Prop
  | .change _ cols => TableFits cols
  | .connect a _ _ r => a.metadataCached = true ∧ r.Unfailing

/-- The list was read from the table's columns, and the table's row has not been dropped since. -/
def Captured (log : List Event) (t : List Nat × List Nat) (cols : List VmsMetaColumn) : Prop :=
  ∃ newer older, log = newer ++ .read t cols :: older ∧ Event.drop t ∉ newer

/-- **What a successful call owes.**  It declares the list just read; or, when none was, a list captured
    earlier.  And the fingerprint of a list just read is that of the table's row, if there is one. -/
structure Sound (w : World) (a : ConnectArgs) (reach : Reach) (d : Declared) : Prop where
  live : ∀ cols, reach.live w a.source = .cols cols → d.cols = cols
  stale : (∀ cols, reach.live w a.source ≠ .cols cols) → Captured w.log a.source d.cols
  agrees : ∀ cols, reach.live w a.source = .cols cols → ∀ row, w.cache (makeKey a.schema a.table) = some row →
    row.fp = vmsMetaFingerprint true cols

def SoundInput (w : World) : Input → Prop
  | .change _ _ => True
  | .connect a reach now r => ∀ d, (w.connect a reach now r).res = .ok d → Sound w a reach d

/-- No list whose fingerprint is zero is read where a readable row has another one, unless the call would
    fail with an empty cache as well. -/
def Careful (w : World) : Input → Prop
  | .change _ _ => True
  | .connect a reach now r => ∀ cols, reach.live w a.source = .cols cols → vmsMetaFingerprint true cols = 0 →
      ∀ row, w.cache (makeKey a.schema a.table) = some row → row.fp ≠ 0 → (payloadRead row.payload).isSome = true →
        ∀ d, ({ w with cache := fun _ => none }.connect a reach now r).res ≠ .ok d

/-! ## One call -/

/-- A call that gets as far as the columns. -/
def Admitted (r : ConnectReply) : Prop :=
  Valid a.schema ∧ Valid a.table ∧ vmsVtabShadowName a.table = false ∧ r.tab = true

variable {a} {r : ConnectReply} {cols : List VmsMetaColumn} {c : VmsMetaCache}
  {w : World}

theorem connect_admitted (hmode : a.metadataCached = true) (h : Admitted a r) (w : World)
    (reach : Reach) (now : Int) : w.connect a reach now r =
      let out := discoverCached a (reach.live w a.source) now r w.cache
      { res := out.res >>= declare a r, cache := out.cache, trace := out.trace } := by
  obtain ⟨hs, ht, hshadow, htab⟩ := h
  rw [Valid] at hs ht
  simp [World.connect, vmsVtabConnect, hs, ht, hshadow, htab, hmode]

/-- The others fail, whatever is cached, and do nothing. -/
theorem connect_refused (h : ¬ Admitted a r) (w : World) (reach : Reach) (now : Int) :
    (∀ d, (w.connect a reach now r).res ≠ .ok d) ∧ (w.connect a reach now r).cache = w.cache ∧
      (w.connect a reach now r).trace = [] := by
  rw [World.connect, vmsVtabConnect]
  split
  · exact ⟨by simp, rfl, rfl⟩
  split
  · exact ⟨by simp, rfl, rfl⟩
  split
  · exact ⟨by simp, rfl, rfl⟩
  · rename_i hident hshadow htab
    have hvalid : Valid a.schema ∧ Valid a.table := by simpa [Valid] using hident
    exact absurd ⟨hvalid.1, hvalid.2, by simpa using hshadow, by simpa using htab⟩ h

variable {d : Declared} {shape : List VmsMetaColumn × Nat × Int}

/-- The second half declares the columns it is given. -/
theorem declare_ok (h : declare a r shape = .ok d) :
    d.cols = shape.1 ∧ d.schemaFp = shape.2.1 ∧ ¬ (shape.1.length < 1 ∨ 512 < shape.1.length) ∧
      ∀ c ∈ shape.1, c.vtype ≠ .unsupported := by
  obtain ⟨cols, schemaFp, capturedUtc⟩ := shape
  unfold declare at h
  simp only at h
  split_ifs at h with hcount hmem
  split at h
  · cases h
  · rename_i hfind
    split at h
    · cases h
    · split_ifs at h
      rw [← Except.ok.inj h]
      exact ⟨rfl, rfl, hcount, by simpa using hfind⟩

theorem declare_cols (h : (Except.ok shape >>= declare a r) = .ok d) : d.cols = shape.1 :=
  (declare_ok h).1

/-- The row of a list. -/
def rowOf (cols : List VmsMetaColumn) (utcTs : Int) : CacheRow := ⟨vmsMetaFingerprint true cols, utcTs, payload cols⟩

/-- Is it one that a lookup can read? -/
def Readable (cols : List VmsMetaColumn) : Prop := cols ≠ [] ∧ Supported cols

instance (cols : List VmsMetaColumn) : Decidable (Readable cols) := inferInstanceAs (Decidable (_ ∧ _))

theorem read_rowOf (h : TableFits cols) (utcTs : Int) :
    payloadRead (rowOf cols utcTs).payload = if Readable cols then some cols else none :=
  payloadRead_payload h

/-- A list that can be read is known by its row. -/
theorem rowOf_inj {cols' : List VmsMetaColumn} {utcTs utcTs' : Int} (h : TableFits cols) (h' : TableFits cols')
    (hread : Readable cols) (heq : rowOf cols utcTs = rowOf cols' utcTs') : cols = cols' := by
  have hsome := read_rowOf h utcTs
  rw [heq, read_rowOf h', if_pos hread] at hsome
  split_ifs at hsome
  exact (some.inj hsome).symm

/-- **The ways through cached mode**, with the row of a list or none. -/
inductive Path (a : ConnectArgs) (now : Int) (c : VmsMetaCache) :
    LiveRead → Outcome (List VmsMetaColumn × Nat × Int) → Prop
  | capture {cols : List VmsMetaColumn} (hrow : c (makeKey a.schema a.table) = none) :
      Path a now c (.cols cols)
        ⟨.ok (cols, vmsMetaFingerprint true cols, 0),
          update c (makeKey a.schema a.table) (some (rowOf cols now)), [.read a.source cols]⟩
  | missing {live : LiveRead} {err : ConnectError} (hrow : c (makeKey a.schema a.table) = none)
      (hlive : ∀ cols, live ≠ .cols cols) : Path a now c live ⟨.error err, c, []⟩
  | corrupt {live : LiveRead} {err : ConnectError} {old : List VmsMetaColumn} {utcTs : Int} (hfits : TableFits old)
      (hrow : c (makeKey a.schema a.table) = some (rowOf old utcTs)) (hread : ¬ Readable old) :
      Path a now c live ⟨.error err, c, []⟩
  | compared {cols old : List VmsMetaColumn} {utcTs : Int} (hfits : TableFits old)
      (hrow : c (makeKey a.schema a.table) = some (rowOf old utcTs)) (hread : Readable old)
      (hfp : vmsMetaFingerprint true cols = 0 ∨ vmsMetaFingerprint true cols = vmsMetaFingerprint true old) :
      Path a now c (.cols cols)
        ⟨.ok (cols, vmsMetaFingerprint true cols, 0), c, [.read a.source cols]⟩
  | drift {cols old : List VmsMetaColumn} {utcTs : Int} {err : ConnectError}
      (hrow : c (makeKey a.schema a.table) = some (rowOf old utcTs)) (hzero : vmsMetaFingerprint true cols ≠ 0)
      (hne : vmsMetaFingerprint true cols ≠ vmsMetaFingerprint true old) :
      Path a now c (.cols cols)
        ⟨.error err, update c (makeKey a.schema a.table) none, [.drop a.source, .read a.source cols]⟩
  | stale {live : LiveRead} {old : List VmsMetaColumn} {utcTs : Int} (hfits : TableFits old)
      (hrow : c (makeKey a.schema a.table) = some (rowOf old utcTs)) (hread : Readable old)
      (hlive : ∀ cols, live ≠ .cols cols) :
      Path a now c live ⟨.ok (old, 0, -1), c, []⟩

variable {schema table : List Nat}

theorem get_missing (hrow : c (makeKey schema table) = none) (liveFp : Nat) :
    vmsMetaCacheGet c schema table liveFp {} = (.miss, none) := by
  simp [vmsMetaCacheGet, hrow]

theorem get_row {old : List VmsMetaColumn} {utcTs : Int} (hfits : TableFits old)
    (hrow : c (makeKey schema table) = some (rowOf old utcTs)) (liveFp : Nat) :
    vmsMetaCacheGet c schema table liveFp {} = if Readable old then
        (if liveFp = 0 then .stale else if liveFp = vmsMetaFingerprint true old then .fresh else .drift, some old)
      else (.corrupt, none) := by
  rw [vmsMetaCacheGet_payload hfits hrow]
  by_cases hread : Readable old
  · rw [if_pos hread, if_pos ⟨rfl, hread⟩]
  · rw [if_neg hread, if_neg fun hall => hread hall.2]

variable {now : Int}

/-- **Cached mode takes one of these ways**, when nothing local fails. -/
theorem discoverCached_path {live : LiveRead} (hr : r.Unfailing) (hlive : ∀ cols, live = .cols cols → TableFits cols)
    (hrow : ∀ row, c (makeKey a.schema a.table) = some row → ∃ old utcTs, TableFits old ∧ row = rowOf old utcTs) :
    Path a now c live (discoverCached a live now r c) := by
  rw [discoverCached, hr.lookup, hr.fingerprint, hr.put, hr.again, hr.drop]
  cases hc : c (makeKey a.schema a.table) with
  | none =>
    simp only [get_missing hc]
    cases live with
    | cols cols =>
      have hput : (vmsMetaCachePut c a.schema a.table cols (vmsMetaFingerprint true cols) now {}).2 =
          update c (makeKey a.schema a.table) (some (rowOf cols now)) := by
        rw [vmsMetaCachePut, payloadOf_eq (hlive cols rfl).count]
        rfl
      simp only [hput, reduceCtorEq, if_false, if_true]
      exact .capture hc
    | noLease msg | failed msg => exact .missing hc (by simp)
  | some row =>
    obtain ⟨old, utcTs, hfits, rfl⟩ := hrow row hc
    simp only [get_row hfits hc]
    by_cases hread : Readable old
    · simp only [if_pos hread, if_true, reduceCtorEq, if_false]
      cases live with
      | cols cols =>
        by_cases hzero : vmsMetaFingerprint true cols = 0
        · simp only [hzero, ne_eq, not_true_eq_false, if_false]
          have hpath : Path a now c (.cols cols)
              ⟨.ok (cols, vmsMetaFingerprint true cols, 0), c, [.read a.source cols]⟩ :=
            .compared hfits hc hread (.inl hzero)
          rwa [hzero] at hpath
        · simp only [ne_eq, hzero, not_false_eq_true, if_true, if_false]
          by_cases hsame : vmsMetaFingerprint true cols = vmsMetaFingerprint true old
          · simp only [if_pos hsame]
            exact .compared hfits hc hread (.inr hsame)
          · simp only [if_neg hsame]
            exact .drift hc hzero hsame
      | noLease msg | failed msg => exact .stale hfits hc hread (by simp)
    · simp only [if_neg hread, if_true]
      exact .corrupt hfits hc hread

/-! ## What a history keeps -/

/-- **The invariant**: every row is the row of a list that was captured. -/
structure Inv (w : World) : Prop where
  remote : ∀ t, TableFits (w.remote t)
  rows : ∀ schema table, Valid schema → Valid table → ∀ row, w.cache (makeKey schema table) = some row →
    ∃ cols utcTs, TableFits cols ∧ row = rowOf cols utcTs ∧ Captured w.log (schema, table) cols

theorem inv_start {remote : List Nat × List Nat → List VmsMetaColumn} (h : ∀ t, TableFits (remote t)) :
    Inv (start remote) where
  remote := h
  rows := by simp [start]

variable {t : List Nat × List Nat}

theorem captured_append {log trace : List Event} (h : Captured log t cols)
    (hdrop : Event.drop t ∉ trace) : Captured (trace ++ log) t cols := by
  obtain ⟨newer, older, rfl, hnewer⟩ := h
  refine ⟨trace ++ newer, older, by simp, ?_⟩
  rw [mem_append]
  exact fun hmem => hmem.elim hdrop hnewer

variable {reach : Reach}

theorem Inv.live_fits (h : Inv w) (hlive : reach.live w t = .cols cols) : TableFits cols := by
  cases reach with
  | up =>
    rw [← LiveRead.cols.inj hlive]
    exact h.remote t
  | noLease msg | failed msg => simp [Reach.live] at hlive

/-- An admitted call takes one of the ways, and declares what it has there. -/
theorem connect_path (hmode : a.metadataCached = true) (hr : r.Unfailing) (hadmitted : Admitted a r)
    (hlive : ∀ cols, reach.live w a.source = .cols cols → TableFits cols)
    (hrow : ∀ row, w.cache (makeKey a.schema a.table) = some row → ∃ old utcTs, TableFits old ∧ row = rowOf old utcTs)
    (now : Int) : ∃ live out, reach.live w a.source = live ∧ Path a now w.cache live out ∧
      w.connect a reach now r = ⟨out.res >>= declare a r, out.cache, out.trace⟩ :=
  ⟨_, _, rfl, discoverCached_path hr hlive hrow, connect_admitted hmode hadmitted w reach now⟩

theorem Inv.path (h : Inv w) (hmode : a.metadataCached = true) (hr : r.Unfailing) (hadmitted : Admitted a r)
    (reach : Reach) (now : Int) : ∃ live out, reach.live w a.source = live ∧ Path a now w.cache live out ∧
      w.connect a reach now r = ⟨out.res >>= declare a r, out.cache, out.trace⟩ := by
  refine connect_path hmode hr hadmitted (fun _ => h.live_fits) (fun row hrow => ?_) now
  obtain ⟨cols, utcTs, hfits, heq, _⟩ := h.rows a.schema a.table hadmitted.1 hadmitted.2.1 row hrow
  exact ⟨cols, utcTs, hfits, heq⟩

/-- **A call** keeps the invariant. -/
theorem Inv.connect {w : World} (h : Inv w) {a : ConnectArgs} {r : ConnectReply} (hmode : a.metadataCached = true)
    (hr : r.Unfailing) (reach : Reach) (now : Int) : Inv (step w (.connect a reach now r)) := by
  refine ⟨h.remote, fun schema table hs ht row hrow => ?_⟩
  rw [step] at hrow ⊢
  by_cases hadmitted : Admitted a r
  · obtain ⟨live, out, hlive, hpath, hout⟩ := h.path hmode hr hadmitted reach now
    have hkey : makeKey schema table = makeKey a.schema a.table → (schema, table) = a.source := by
      intro heq
      obtain ⟨hschema, htable⟩ := makeKey_inj hs ht hadmitted.1 hadmitted.2.1 heq
      exact Prod.ext hschema htable
    -- a row that was there stays captured, unless its table is dropped
    have hold (trace : List Event) (hdrop : Event.drop (schema, table) ∉ trace)
        (hwas : w.cache (makeKey schema table) = some row) :
        ∃ cols utcTs, TableFits cols ∧ row = rowOf cols utcTs ∧ Captured (trace ++ w.log) (schema, table) cols := by
      obtain ⟨cols, utcTs, hfits, heq, hcaptured⟩ := h.rows schema table hs ht row hwas
      exact ⟨cols, utcTs, hfits, heq, captured_append hcaptured hdrop⟩
    rw [hout] at hrow ⊢
    cases hpath with
    | @capture cols hnone =>
      simp only at hrow ⊢
      by_cases heq : makeKey schema table = makeKey a.schema a.table
      · rw [heq, update_self] at hrow
        refine ⟨cols, now, h.live_fits hlive, (some.inj hrow).symm, ?_⟩
        rw [hkey heq]
        exact ⟨[], w.log, rfl, by simp⟩
      · rw [update_of_ne heq] at hrow
        exact hold _ (by simp) hrow
    | missing hnone hl | corrupt hfits hc hread | stale hfits hc hread hl => exact hold [] (by simp) hrow
    | compared hfits hc hread hfp => exact hold _ (by simp) hrow
    | drift hc hzero hne =>
      simp only at hrow ⊢
      by_cases heq : makeKey schema table = makeKey a.schema a.table
      · rw [heq, update_self] at hrow
        cases hrow
      · rw [update_of_ne heq] at hrow
        refine hold _ ?_ hrow
        have hne : (schema, table) ≠ a.source := by
          intro hsource
          obtain ⟨hschema, htable⟩ := Prod.mk.inj hsource
          exact heq (by rw [hschema, htable])
        simpa using hne
  · obtain ⟨_, hcache, htrace⟩ := connect_refused hadmitted w reach now
    simp only [hcache, htrace, nil_append] at hrow ⊢
    exact h.rows schema table hs ht row hrow

theorem Inv.step {w : World} (h : Inv w) {i : Input} (hi : i.Regular) : Inv (step w i) := by
  cases i with
  | change t cols =>
    refine ⟨fun u => ?_, h.rows⟩
    show TableFits (update w.remote t cols u)
    by_cases hu : u = t
    · subst hu
      rw [update_self]
      exact hi
    · rw [update_of_ne hu]
      exact h.remote u
  | connect a reach now r => exact h.connect hi.1 hi.2 reach now

/-- With an empty cache the list just read is declared, if it can be. -/
theorem connect_empty (hmode : a.metadataCached = true) (hr : r.Unfailing)
    (hadmitted : Admitted a r) (hlive : reach.live w a.source = .cols cols) (hfits : TableFits cols) (now : Int) :
    ({ w with cache := fun _ => none }.connect a reach now r).res =
      declare a r (cols, vmsMetaFingerprint true cols, 0) := by
  have hlive' : reach.live { w with cache := fun _ => none } a.source = .cols cols := by
    rw [← hlive]
    cases reach <;> rfl
  obtain ⟨live, out, hl, hpath, hout⟩ :=
    connect_path hmode hr hadmitted (fun _ h => LiveRead.cols.inj (hlive'.symm.trans h) ▸ hfits) (by simp) now
  obtain rfl := hlive'.symm.trans hl
  rw [hout]
  cases hpath with
  | capture hrow => rfl
  | missing hrow hl => exact absurd rfl (hl cols)
  | corrupt hold hrow | compared hold hrow | drift hrow | stale hold hrow => cases hrow

/-- What is declared is the list just read, or that of the row. -/
theorem Path.declared {live : LiveRead} {out : Outcome (List VmsMetaColumn × Nat × Int)}
    (h : Path a now c live out) (hd : (out.res >>= declare a r) = .ok d) : live = .cols d.cols ∨
      (∀ cols, live ≠ .cols cols) ∧ TableFits d.cols ∧ Readable d.cols ∧
        ∃ utcTs, c (makeKey a.schema a.table) = some (rowOf d.cols utcTs) := by
  cases h with
  | capture | compared => exact .inl (congrArg _ (declare_cols hd).symm)
  | missing | corrupt | drift => cases hd
  | stale hfits hc hread hl =>
    rw [declare_cols hd]
    exact .inr ⟨hl, hfits, hread, _, hc⟩

/-- **A call is sound exactly if it is careful.** -/
theorem Inv.sound_iff (h : Inv w) (hmode : a.metadataCached = true) (hr : r.Unfailing) (reach : Reach) (now : Int) :
    SoundInput w (.connect a reach now r) ↔ Careful w (.connect a reach now r) := by
  rw [SoundInput, Careful]
  by_cases hadmitted : Admitted a r
  · obtain ⟨live, out, hlive, hpath, hout⟩ := h.path hmode hr hadmitted reach now
    constructor
    · intro hsound cols hcols hzero row hrow hne hsome d hd
      obtain rfl := hlive.symm.trans hcols
      rw [connect_empty hmode hr hadmitted hlive (h.live_fits hlive)] at hd
      cases hpath with
      | capture hnone => simp [hnone] at hrow
      | missing _ hl | stale _ _ _ hl => exact hl cols rfl
      | corrupt hfits hc hread =>
        obtain rfl := some.inj (hc.symm.trans hrow)
        rw [read_rowOf hfits, if_neg hread] at hsome
        cases hsome
      | compared => exact hne (((hsound d (hout ▸ hd)).agrees cols hlive row hrow).trans hzero)
      | drift hc hdiff => exact hdiff hzero
    · intro hcareful d hd
      rw [hout] at hd
      have hshown := hpath.declared hd
      refine ⟨fun cols hcols => ?_, fun hnot => ?_, fun cols hcols row hrow => ?_⟩
      · rcases hshown with hl | ⟨hl, -⟩
        · exact LiveRead.cols.inj (hl.symm.trans (hlive.symm.trans hcols))
        · exact absurd (hlive.symm.trans hcols) (hl cols)
      · rcases hshown with hl | ⟨-, hfits, hread, utcTs, hc⟩
        · exact absurd (hlive.trans hl) (hnot _)
        · obtain ⟨cols, utcTs', hfits', heq, hcaptured⟩ := h.rows a.schema a.table hadmitted.1 hadmitted.2.1 _ hc
          rw [rowOf_inj hfits hfits' hread heq]
          exact hcaptured
      · obtain rfl := hlive.symm.trans hcols
        cases hpath with
        | capture hnone => simp [hnone] at hrow
        | missing | corrupt | drift => cases hd
        | stale _ _ _ hl => exact absurd rfl (hl cols)
        | @compared _ old utcTs hfits hc hread hfp =>
          obtain rfl := some.inj (hc.symm.trans hrow)
          rcases hfp with hzero | hsame
          · by_contra hne
            have hother : (rowOf old utcTs).fp ≠ 0 := fun h0 => hne (h0.trans hzero.symm)
            have hsome : (payloadRead (rowOf old utcTs).payload).isSome = true := by
              rw [read_rowOf hfits, if_pos hread]
              rfl
            exact hcareful cols hlive hzero _ hc hother hsome d
              ((connect_empty hmode hr hadmitted hlive (h.live_fits hlive) now).trans hd)
          · exact hsame.symm
  · refine iff_of_true (fun d hd => absurd hd ((connect_refused hadmitted w reach now).1 d)) ?_
    intro _ _ _ _ _ _ _ d
    exact (connect_refused hadmitted _ reach now).1 d

/-- A lookup that gives columns has checked them against the fingerprint of the row. -/
theorem get_checked {liveFp : Nat} {r : CacheReply} {cres : VmsCacheResult} {cached : Option (List VmsMetaColumn)}
    (h : vmsMetaCacheGet c schema table liveFp r = (cres, cached)) (hmiss : cres ≠ .miss)
    (hcorrupt : cres ≠ .corrupt) :
    ∃ row cols, c (makeKey schema table) = some row ∧ vmsMetaShadowCheck row.payload row.fp = true ∧
      payloadRead row.payload = some cols ∧ cached = some cols := by
  revert h
  fun_cases vmsMetaCacheGet c schema table liveFp r <;> rintro ⟨⟩
  case case1 | case2 | case3 => exact absurd rfl hmiss
  case case4 | case5 | case6 => exact absurd rfl hcorrupt
  all_goals exact ⟨_, _, by assumption, by simp_all, by assumption, rfl⟩

/-- **What is declared without the server** is a row whose bytes match its fingerprint, whatever the cache
    holds and whatever else fails. -/
theorem declared_checked (hmode : a.metadataCached = true)
    (hlive : ∀ cols, reach.live w a.source ≠ .cols cols) (h : (w.connect a reach now r).res = .ok d) :
    ∃ row, w.cache (makeKey a.schema a.table) = some row ∧ vmsMetaShadowCheck row.payload row.fp = true ∧
      payloadRead row.payload = some d.cols := by
  have hadmitted : Admitted a r := by
    by_contra hnot
    exact (connect_refused hnot w reach now).1 d h
  rw [connect_admitted hmode hadmitted] at h
  simp only at h
  generalize reach.live w a.source = live at h hlive
  unfold discoverCached at h
  rcases hget : vmsMetaCacheGet w.cache a.schema a.table 0 r.lookup with ⟨cres, cached⟩
  simp only [hget] at h
  by_cases hcorrupt : cres = .corrupt
  · rw [if_pos hcorrupt] at h
    simp [bind, Except.bind] at h
  rw [if_neg hcorrupt] at h
  have hdown : (if cres = .miss ∨ cres = .drift then
      ({ res := .error (unavailableText a live.message), cache := w.cache } : Outcome (List VmsMetaColumn × Nat × Int))
      else { res := .ok (cached.getD [], 0, -1), cache := w.cache }).res >>= declare a r = .ok d := by
    cases live with
    | cols cols => exact absurd rfl (hlive cols)
    | noLease msg | failed msg => exact h
  split_ifs at hdown with hmiss
  · simp [bind, Except.bind] at hdown
  · obtain ⟨row, cols, hrow, hcheck, hread, rfl⟩ := get_checked hget (fun heq => hmiss (.inl heq)) hcorrupt
    refine ⟨row, hrow, hcheck, ?_⟩
    rw [hread, declare_cols hdown]
    rfl

/-- **Cached metadata is sound.**  For every history of changes of the server's tables and calls in cached
    mode, from an empty cache, in which nothing local fails: every successful call declares the list it has
    read, or else a list captured earlier and not dropped since, and a list it has read has the fingerprint
    of the row, exactly if every call is careful.  Whatever the cache holds, a row is declared only when its
    bytes match its fingerprint. -/
theorem cached_sound_iff {remote : List Nat × List Nat → List VmsMetaColumn} (hremote : ∀ t, TableFits (remote t))
    {inputs : List Input} (hinputs : ∀ i ∈ inputs, i.Regular) :
    (Along step SoundInput (start remote) inputs ↔ Along step Careful (start remote) inputs) ∧
    ∀ (w : World) (a : ConnectArgs) (reach : Reach) (now : Int) (r : ConnectReply) (d : Declared),
      a.metadataCached = true → (∀ cols, reach.live w a.source ≠ .cols cols) → (w.connect a reach now r).res = .ok d →
      ∃ row, w.cache (makeKey a.schema a.table) = some row ∧ vmsMetaShadowCheck row.payload row.fp = true ∧
        payloadRead row.payload = some d.cols := by
  refine ⟨along_congr (fun (w : World) (i : Input) (h : Inv w) (hi : i.Regular) => h.step hi) (fun w i h hi => ?_)
    (inv_start hremote) hinputs, fun w a reach now r d hmode hlive h => declared_checked hmode hlive h⟩
  cases i with
  | change t cols => exact Iff.rfl
  | connect a reach now r => exact h.sound_iff hi.1 hi.2 reach now

/-- `dbo.t` in cached mode. -/
def cachedT : ConnectArgs := { schema := dbo, table := [116], metadataCached := true }

theorem unfailing_default : ConnectReply.Unfailing {} := ⟨rfl, rfl, rfl, rfl, rfl, rfl, rfl⟩

/-- The table is captured, and declared again while the server is away. -/
theorem cached_sound_outage :
    Along step SoundInput (start fun _ => [idColumn])
      [.connect cachedT .up 0 {}, .connect cachedT (.failed []) 1 {}] := by
  refine (cached_sound_iff (fun _ => fits_idColumn) ?_).1.mpr ⟨?_, ?_, trivial⟩
  · intro i hi
    rcases mem_cons.mp hi with rfl | hi
    · exact ⟨rfl, unfailing_default⟩
    · obtain rfl := mem_singleton.mp hi
      exact ⟨rfl, unfailing_default⟩
  · intro cols hcols hzero
    obtain rfl : [idColumn] = cols := LiveRead.cols.inj hcols
    exact absurd hzero (by decide +kernel)
  · intro cols hcols
    simp [Reach.live] at hcols

/-- **A drift that is not seen**: `dbo.t` was captured with the column `id`; its columns are replaced by one
    whose fingerprint is zero, and the next call succeeds. -/
theorem drift_unseen : ¬ SoundInput (run step (start fun _ => [idColumn])
      [.connect cachedT .up 0 {}, .change cachedT.source [zeroColumn]]) (.connect cachedT .up 1 {}) := by
  intro h
  obtain ⟨d, hd⟩ : ∃ d, ((run step (start fun _ => [idColumn])
      [.connect cachedT .up 0 {}, .change cachedT.source [zeroColumn]]).connect cachedT .up 1 {}).res = .ok d :=
    ⟨_, rfl⟩
  have hagrees := (h d hd).agrees [zeroColumn] rfl (rowOf [idColumn] 0) rfl
  exact absurd hagrees (by decide +kernel)

end VirtualMssql.Connect
