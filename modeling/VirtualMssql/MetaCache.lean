/-
  THE METADATA CACHE — `vms_meta_cache.c`: column lists, stored under "schema.table" with a fingerprint.

  A column list is written into a payload, of a size that is computed beforehand; its fingerprint is the
  FNV-1a sum of the payload.  A row of the cache holds a payload and the fingerprint it was put with.  A
  lookup adds up the payload again, reads the columns back, and compares the fingerprint with that of the
  server, where zero stands for "not asked".

  Size, writer and reader agree on every field.  They do not agree on which lists there are: the writer
  takes the empty list and columns of unsupported types, the reader refuses both; and a fingerprint that
  happens to be zero is not recognised (`put_get_iff`).
-/
import VirtualMssql.Meta
import VirtualMssql.Lib.Bytes
import VirtualMssql.Lib.Run
import Mathlib.Logic.Function.Basic

namespace VirtualMssql.MetaCache

open Bytes Run List Function

/-! ## The payload -/

def vmsMetaMaxColumns : Nat := 512

def vmsMetaMaxName : Nat := 128

/-- The room for a type name. -/
def maxTypeName : Nat := 64

/-- `VMSC`. -/
def vmsMcMagic : Nat := 0x43534D56

def vmsMcSchemaVersion : Nat := 1

def vmsMcFlagNullable : Nat := 1

def vmsMcFlagIdentity : Nat := 2

def vmsMcFlagComputed : Nat := 4

/-- The numbers of `VmsColType`. -/
def colTypeCode : VmsColType → Nat
  | .int64 => 0
  | .float64 => 1
  | .text => 2
  | .bigtext => 3
  | .blob => 4
  | .decimal => 5
  | .datetime => 6
  | .guid => 7
  | .spatial => 8
  | .unsupported => 9

/-- `get_u32`: all ones, and nothing is taken, when there are not four bytes. -/
def getU32 (p : List Nat) : Nat × List Nat := (readLe32 p).getD (0xFFFFFFFF, p)

def flagsOf (m : VmsMetaColumn) : Nat :=
  (if m.isNullable then vmsMcFlagNullable else 0) ||| (if m.isIdentity then vmsMcFlagIdentity else 0) |||
    (if m.isComputed then vmsMcFlagComputed else 0)

/-- `payload_size`. -/
def payloadSize (cols : List VmsMetaColumn) : Option Nat :=
  if vmsMetaMaxColumns < cols.length then none
  else some (cols.foldl (fun sz m => sz + (m.name.length + 1) + (m.typeName.length + 1) + (4 + 4 + 4 + 1 + 1)) 12)

/-- The numbers of a column. -/
def numberBytes (m : VmsMetaColumn) : List Nat :=
  le32 (colTypeCode m.vtype) ++ le32 (flagsOf m) ++ le32 m.maxLength ++ [m.precision % 256, m.scale % 256]

/-- The loop of `payload_write`, behind what is in the buffer; before the numbers of a column it looks for
    ten bytes of room and writes fourteen. -/
def writeCols (cap : Nat) : List Nat → List VmsMetaColumn → Option (List Nat)
  | buf, [] => some buf
  | buf, m :: ms =>
    if cap < buf.length + (m.name.length + 1) then none
    else
      let buf := buf ++ (m.name ++ [0])
      if cap < buf.length + (m.typeName.length + 1) then none
      else
        let buf := buf ++ (m.typeName ++ [0])
        if cap < buf.length + 10 then none else writeCols cap (buf ++ numberBytes m) ms

/-- What stands before the columns. -/
def header (count : Nat) : List Nat := le32 vmsMcMagic ++ le32 vmsMcSchemaVersion ++ le32 count

/-- `payload_write`. -/
def payloadWrite (cap : Nat) (cols : List VmsMetaColumn) : Option (List Nat) :=
  if cap < 12 then none else writeCols cap (header cols.length) cols

/-- A text of `payload_read`: closed, not empty, and short enough for its buffer. -/
def readString (cap : Nat) (p : List Nat) : Option (List Nat × List Nat) :=
  match readText p with
  | none => none
  | some (s, p) => if s.length = 0 ∨ cap ≤ s.length then none else some (s, p)

/-- The types that `payload_read` takes: up to SPATIAL. -/
def colTypeOf : Nat → Option VmsColType
  | 0 => some .int64
  | 1 => some .float64
  | 2 => some .text
  | 3 => some .bigtext
  | 4 => some .blob
  | 5 => some .decimal
  | 6 => some .datetime
  | 7 => some .guid
  | 8 => some .spatial
  | _ => none

/-- One turn of the loop of `payload_read`. -/
def readCol (p : List Nat) : Option (VmsMetaColumn × List Nat) :=
  match readString vmsMetaMaxName p with
  | none => none
  | some (name, p) =>
    match readString maxTypeName p with
    | none => none
    | some (typeName, p) =>
      let (vtype, p) := getU32 p
      let (flags, p) := getU32 p
      let (maxLength, p) := getU32 p
      match p with
      | precision :: scale :: p =>
        match colTypeOf vtype with
        | none => none
        | some vtype => some
            ({ name, typeName, vtype
               isNullable := flags &&& vmsMcFlagNullable != 0
               isIdentity := flags &&& vmsMcFlagIdentity != 0
               isComputed := flags &&& vmsMcFlagComputed != 0
               maxLength, precision, scale }, p)
      | _ => none

def readCols : Nat → List Nat → Option (List VmsMetaColumn)
  | 0, _ => some []
  | n + 1, p =>
    match readCol p with
    | none => none
    | some (m, p) => (readCols n p).map (m :: ·)

/-- `payload_read`. -/
def payloadRead (buf : List Nat) : Option (List VmsMetaColumn) :=
  if buf.length < 12 then none
  else
    let (magic, p) := getU32 buf
    let (version, p) := getU32 p
    let (count, p) := getU32 p
    if magic ≠ vmsMcMagic ∨ version ≠ vmsMcSchemaVersion then none
    else if count = 0 ∨ vmsMetaMaxColumns < count then none
    else readCols count p

/-- A payload up to this size needs no memory from the heap. -/
def stackBytes : Nat := 16384

/-- A payload, when there is memory for it; `none` is the failure of `payload_size`, of malloc or of
    `payload_write`. -/
def payloadOf (malloc : Bool) (cols : List VmsMetaColumn) : Option (List Nat) :=
  match payloadSize cols with
  | none => none
  | some sz => if stackBytes < sz && !malloc then none else payloadWrite sz cols

/-- `vms_meta_fingerprint`. -/
def vmsMetaFingerprint (malloc : Bool) (cols : List VmsMetaColumn) : Nat :=
  match payloadOf malloc cols with
  | none => 0
  | some buf => fnv1a buf

/-- `vms_meta_shadow_check`. -/
def vmsMetaShadowCheck (payload : List Nat) (storedFp : Nat) : Bool :=
  if payload.length < 12 then false else fnv1a payload == storedFp

/-! ## The cache -/

/-- A row of the table `vms_meta_cache`. -/
structure CacheRow where
  fp : Nat
  capturedUtc : Int
  payload : List Nat
  deriving DecidableEq

/-- `VmsMetaCache`: the rows by their key. -/
abbrev VmsMetaCache := List Nat → Option CacheRow

inductive VmsCacheResult
  | miss
  | fresh
  | stale
  | drift
  | corrupt
  deriving DecidableEq, Repr

/-- `make_key`, into 300 bytes. -/
def makeKey (schema table : List Nat) : List Nat := (schema ++ 46 :: table).take 299

/-- Does the database do its part, and is there memory? -/
structure CacheReply where
  db : Bool := true
  malloc : Bool := true
  deriving DecidableEq

/-- `vms_meta_cache_get`, and the columns when they were read. -/
def vmsMetaCacheGet (c : VmsMetaCache) (schema table : List Nat) (liveFp : Nat) (r : CacheReply) :
    VmsCacheResult × Option (List VmsMetaColumn) :=
  if !r.db then (.miss, none)
  else
    match c (makeKey schema table) with
    | none => (.miss, none)
    | some row =>
      if row.payload.length = 0 then (.miss, none)
      else if !r.malloc then (.corrupt, none)
      else if !vmsMetaShadowCheck row.payload row.fp then (.corrupt, none)
      else
        match payloadRead row.payload with
        | none => (.corrupt, none)
        | some cols =>
          if liveFp = 0 then (.stale, some cols)
          else if liveFp = row.fp then (.fresh, some cols)
          else (.drift, some cols)

/-- `vms_meta_cache_put`. -/
def vmsMetaCachePut (c : VmsMetaCache) (schema table : List Nat) (cols : List VmsMetaColumn) (fp : Nat)
    (utcTs : Int) (r : CacheReply) : Bool × VmsMetaCache :=
  match payloadOf r.malloc cols with
  | none => (false, c)
  | some buf =>
    if r.db then (true, update c (makeKey schema table) (some ⟨fp, utcTs, buf⟩)) else (false, c)

/-- `vms_meta_cache_drop`. -/
def vmsMetaCacheDrop (c : VmsMetaCache) (schema table : List Nat) (r : CacheReply) : VmsMetaCache :=
  if r.db then update c (makeKey schema table) none else c

/-! ## The payload is read back -/

variable (m : VmsMetaColumn)

/-- A column that the buffers of `VmsMetaColumn` can hold, with a name and a type name. -/
structure Fits : Prop where
  name : 0 ∉ m.name ∧ m.name ≠ [] ∧ m.name.length < vmsMetaMaxName
  typeName : 0 ∉ m.typeName ∧ m.typeName ≠ [] ∧ m.typeName.length < maxTypeName
  maxLength : m.maxLength < 2 ^ 32
  precision : m.precision < 256
  scale : m.scale < 256

/-- A list that `vms_meta_columns` can return. -/
structure TableFits (cols : List VmsMetaColumn) : Prop where
  count : cols.length ≤ vmsMetaMaxColumns
  fits : ∀ m ∈ cols, Fits m

/-- The bytes of a column. -/
def columnBytes : List Nat :=
  m.name ++ 0 :: (m.typeName ++ 0 :: numberBytes m)

/-- The bytes of a list. -/
def payload (cols : List VmsMetaColumn) : List Nat := header cols.length ++ cols.flatMap columnBytes

theorem length_columnBytes :
    (columnBytes m).length = (m.name.length + 1) + (m.typeName.length + 1) + (4 + 4 + 4 + 1 + 1) := by
  simp [columnBytes, numberBytes]
  omega

theorem columnBytes_append (rest : List Nat) :
    columnBytes m ++ rest = m.name ++ 0 :: (m.typeName ++ 0 :: (numberBytes m ++ rest)) := by
  simp [columnBytes]

theorem append_columnBytes (buf : List Nat) (m : VmsMetaColumn) :
    buf ++ (m.name ++ [0]) ++ (m.typeName ++ [0]) ++ numberBytes m = buf ++ columnBytes m := by
  simp [columnBytes]

theorem length_payload (cols : List VmsMetaColumn) : 12 ≤ (payload cols).length := by
  simp only [payload, header, length_append, length_le32]
  omega

theorem foldl_size (cols : List VmsMetaColumn) : ∀ sz : Nat,
    cols.foldl (fun sz m => sz + (m.name.length + 1) + (m.typeName.length + 1) + (4 + 4 + 4 + 1 + 1)) sz =
      sz + (cols.flatMap columnBytes).length := by
  induction cols with
  | nil => simp
  | cons m ms ih =>
    intro sz
    rw [foldl_cons, ih, flatMap_cons, length_append, length_columnBytes]
    omega

variable {cols : List VmsMetaColumn}

/-- **`payload_size`** is the length of the bytes. -/
theorem payloadSize_eq (h : cols.length ≤ vmsMetaMaxColumns) : payloadSize cols = some (payload cols).length := by
  rw [payloadSize, if_neg (by omega), foldl_size, payload, length_append]
  rfl

/-- The loop never runs out of a buffer that holds everything. -/
theorem writeCols_eq {cap : Nat} : ∀ (cols : List VmsMetaColumn) (buf : List Nat),
    (buf ++ cols.flatMap columnBytes).length ≤ cap → writeCols cap buf cols = some (buf ++ cols.flatMap columnBytes)
  | [], buf, _ => by simp [writeCols]
  | m :: ms, buf, h => by
    have hlen := length_columnBytes m
    simp only [flatMap_cons, length_append] at h
    have hfit : (buf ++ columnBytes m ++ ms.flatMap columnBytes).length ≤ cap := by
      simp only [length_append]
      omega
    have hrest := writeCols_eq ms (buf ++ columnBytes m) hfit
    rw [writeCols, if_neg (by omega)]
    simp only [length_append, length_cons, length_nil]
    rw [if_neg (by omega), if_neg (by omega), append_columnBytes, hrest]
    simp

/-- **The writer** gives the bytes, for every list that has a size. -/
theorem payloadOf_eq (h : cols.length ≤ vmsMetaMaxColumns) : payloadOf true cols = some (payload cols) := by
  have hcap : ¬ (payload cols).length < 12 := not_lt.mpr (length_payload cols)
  rw [payloadOf, payloadSize_eq h]
  simp only [Bool.not_true, Bool.and_false, Bool.false_eq_true, if_false]
  rw [payloadWrite, if_neg hcap]
  exact writeCols_eq cols (header cols.length) le_rfl

theorem vmsMetaFingerprint_eq (h : cols.length ≤ vmsMetaMaxColumns) :
    vmsMetaFingerprint true cols = fnv1a (payload cols) := by
  rw [vmsMetaFingerprint, payloadOf_eq h]

theorem getU32_le32 {v : Nat} (hv : v < 2 ^ 32) (rest : List Nat) : getU32 (le32 v ++ rest) = (v, rest) := by
  rw [getU32, readLe32_le32 hv]
  rfl

theorem readString_append {cap : Nat} {s : List Nat} (h : 0 ∉ s ∧ s ≠ [] ∧ s.length < cap) (rest : List Nat) :
    readString cap (s ++ 0 :: rest) = some (s, rest) := by
  have hlen : s.length ≠ 0 := by simpa using h.2.1
  rw [readString, readText_append h.1]
  simp only
  rw [if_neg (by omega)]

theorem flagsOf_lt : flagsOf m < 8 := by
  unfold flagsOf
  cases m.isNullable <;> cases m.isIdentity <;> cases m.isComputed <;> decide

/-- The flags can be told apart. -/
theorem flagsOf_bits :
    (flagsOf m &&& vmsMcFlagNullable != 0) = m.isNullable ∧ (flagsOf m &&& vmsMcFlagIdentity != 0) = m.isIdentity ∧
      (flagsOf m &&& vmsMcFlagComputed != 0) = m.isComputed := by
  unfold flagsOf
  cases m.isNullable <;> cases m.isIdentity <;> cases m.isComputed <;> decide

theorem colTypeCode_lt (v : VmsColType) : colTypeCode v < 2 ^ 32 := by cases v <;> decide

/-- Every number is taken back but the last one. -/
theorem colTypeOf_code (v : VmsColType) : colTypeOf (colTypeCode v) = if v = .unsupported then none else some v := by
  cases v <;> rfl

/-- **A column** is read back, unless its type is unsupported. -/
theorem readCol_columnBytes {m : VmsMetaColumn} (h : Fits m) (rest : List Nat) :
    readCol (columnBytes m ++ rest) = if m.vtype = .unsupported then none else some (m, rest) := by
  obtain ⟨hnullable, hidentity, hcomputed⟩ := flagsOf_bits m
  have hbytes : numberBytes m ++ rest = le32 (colTypeCode m.vtype) ++ (le32 (flagsOf m) ++
      (le32 m.maxLength ++ m.precision % 256 :: m.scale % 256 :: rest)) := by
    simp [numberBytes]
  rw [columnBytes_append, hbytes, readCol, readString_append h.name]
  simp only
  rw [readString_append h.typeName]
  simp only [getU32_le32 (colTypeCode_lt m.vtype), getU32_le32 ((flagsOf_lt m).trans (by decide)),
    getU32_le32 h.maxLength,
    colTypeOf_code, hnullable, hidentity, hcomputed, Nat.mod_eq_of_lt h.precision, Nat.mod_eq_of_lt h.scale]
  by_cases hv : m.vtype = .unsupported <;> simp [hv]

/-- A list whose columns all have a decode plan. -/
def Supported (cols : List VmsMetaColumn) : Prop := ∀ m ∈ cols, m.vtype ≠ .unsupported

instance (cols : List VmsMetaColumn) : Decidable (Supported cols) :=
  inferInstanceAs (Decidable (∀ m ∈ cols, m.vtype ≠ .unsupported))

theorem readCols_write (h : ∀ m ∈ cols, Fits m) :
    readCols cols.length (cols.flatMap columnBytes) = if Supported cols then some cols else none := by
  induction cols with
  | nil => rfl
  | cons m ms ih =>
    have ihms := ih fun m' hm' => h m' (mem_cons_of_mem m hm')
    have hcons : Supported (m :: ms) ↔ m.vtype ≠ .unsupported ∧ Supported ms := forall_mem_cons
    rw [length_cons, flatMap_cons, readCols, readCol_columnBytes (h m mem_cons_self)]
    by_cases hv : m.vtype = .unsupported
    · simp [hcons, hv]
    · by_cases hms : Supported ms <;> simp [hcons, hv, hms, ihms]

/-- **The payload is read back**, unless the list is empty or has an unsupported type. -/
theorem payloadRead_payload (h : TableFits cols) :
    payloadRead (payload cols) = if cols ≠ [] ∧ Supported cols then some cols else none := by
  have hcount : cols.length < 2 ^ 32 := lt_of_le_of_lt h.count (by decide)
  have hlong : ¬ (payload cols).length < 12 := not_lt.mpr (length_payload cols)
  have hbytes : payload cols = le32 vmsMcMagic ++ (le32 vmsMcSchemaVersion ++ (le32 cols.length ++
      cols.flatMap columnBytes)) := by
    simp [payload, header]
  rw [payloadRead, if_neg hlong, hbytes]
  simp only [getU32_le32 (show vmsMcMagic < 2 ^ 32 by decide),
    getU32_le32 (show vmsMcSchemaVersion < 2 ^ 32 by decide), getU32_le32 hcount, ne_eq, not_true_eq_false,
    or_self, if_false, readCols_write h.fits]
  by_cases hempty : cols = []
  · simp [hempty]
  · have hpos : cols.length ≠ 0 := by simpa using hempty
    have hmax := h.count
    rw [if_neg (by omega)]
    simp [hempty]

/-- The row of a list passes its check exactly with the list's fingerprint. -/
theorem vmsMetaShadowCheck_payload (h : TableFits cols) (fp : Nat) :
    vmsMetaShadowCheck (payload cols) fp = true ↔ fp = vmsMetaFingerprint true cols := by
  rw [vmsMetaShadowCheck, if_neg (not_lt.mpr (length_payload cols)), vmsMetaFingerprint_eq h.count, beq_iff_eq]
  exact eq_comm

/-! ## The keys -/

theorem identScan_length {maxChars : Nat} : ∀ (cs : List Nat) (n : Nat), n ≤ maxChars →
    identScan maxChars n cs = true → n + cs.length ≤ maxChars
  | [], n, hn, _ => by simpa using hn
  | d :: cs, n, hn, h => by
    rw [identScan] at h
    split_ifs at h with hd hmax
    have hcs := identScan_length cs (n + 1) (by omega) h
    rw [length_cons]
    omega

/-- An identifier that `vms_vtab_connect` takes. -/
def Valid (name : List Nat) : Prop := vmsMetaIdentValid name 128 = true

instance (name : List Nat) : Decidable (Valid name) := inferInstanceAs (Decidable (_ = true))

theorem Valid.length {name : List Nat} (h : Valid name) : name.length ≤ 128 := by
  rw [Valid, vmsMetaIdentValid, Bool.and_eq_true] at h
  simpa using identScan_length name 0 (by omega) h.2

/-- There is no point in it. -/
theorem Valid.no_dot {name : List Nat} (h : Valid name) : 46 ∉ name := by
  intro hmem
  exact absurd (identChar_of_valid h 46 hmem) (by decide)

theorem makeKey_eq {schema table : List Nat} (hs : Valid schema) (ht : Valid table) :
    makeKey schema table = schema ++ 46 :: table := by
  have hslen := hs.length
  have htlen := ht.length
  apply take_of_length_le
  simp only [length_append, length_cons]
  omega

/-- **The keys tell the tables apart.** -/
theorem makeKey_inj {schema table schema' table' : List Nat} (hs : Valid schema) (ht : Valid table)
    (hs' : Valid schema') (ht' : Valid table') (h : makeKey schema table = makeKey schema' table') :
    schema = schema' ∧ table = table' := by
  rw [makeKey_eq hs ht, makeKey_eq hs' ht'] at h
  obtain ⟨hschema, _, htable⟩ := (append_cons_inj_of_notMem hs.no_dot ht.no_dot).mp h
  exact ⟨hschema, htable⟩

/-! ## Put and get -/

/-- The calls that change the cache. -/
inductive CacheCall
  | put (schema table : List Nat) (cols : List VmsMetaColumn) (fp : Nat) (utcTs : Int) (r : CacheReply)
  | drop (schema table : List Nat) (r : CacheReply)

def CacheCall.step (c : VmsMetaCache) : CacheCall → VmsMetaCache
  | .put schema table cols fp utcTs r => (vmsMetaCachePut c schema table cols fp utcTs r).2
  | .drop schema table r => vmsMetaCacheDrop c schema table r

def CacheCall.table : CacheCall → List Nat × List Nat
  | .put schema table _ _ _ _ => (schema, table)
  | .drop schema table _ => (schema, table)

/-- The call is for some other table. -/
def CacheCall.Elsewhere (schema table : List Nat) (i : CacheCall) : Prop :=
  Valid i.table.1 ∧ Valid i.table.2 ∧ i.table ≠ (schema, table)

/-- A call touches the row of its own table only. -/
theorem CacheCall.step_other (c : VmsMetaCache) (i : CacheCall) {key : List Nat}
    (h : key ≠ makeKey i.table.1 i.table.2) : i.step c key = c key := by
  cases i with
  | put schema table cols fp utcTs r =>
    rw [CacheCall.step, vmsMetaCachePut]
    cases payloadOf r.malloc cols with
    | none => rfl
    | some buf =>
      cases r.db with
      | false => rfl
      | true => exact update_of_ne h _ _
  | drop schema table r =>
    rw [CacheCall.step, vmsMetaCacheDrop]
    cases r.db with
    | false => rfl
    | true => exact update_of_ne h _ _

/-- **Calls for other tables** leave a row as it is. -/
theorem run_elsewhere {schema table : List Nat} (hs : Valid schema) (ht : Valid table) (calls : List CacheCall)
    (hcalls : ∀ i ∈ calls, i.Elsewhere schema table) (c : VmsMetaCache) :
    run CacheCall.step c calls (makeKey schema table) = c (makeKey schema table) := by
  induction calls generalizing c with
  | nil => rfl
  | cons i calls ih =>
    obtain ⟨hs', ht', hne⟩ := hcalls i mem_cons_self
    rw [run_cons, ih fun j hj => hcalls j (mem_cons_of_mem i hj)]
    apply CacheCall.step_other
    intro hkey
    obtain ⟨hschema, htable⟩ := makeKey_inj hs ht hs' ht' hkey
    exact hne (Prod.ext hschema.symm htable.symm)

/-- A successful put stores the bytes of the list. -/
theorem vmsMetaCachePut_row {c : VmsMetaCache} {schema table : List Nat} {fp : Nat} {utcTs : Int}
    {r : CacheReply} (h : cols.length ≤ vmsMetaMaxColumns)
    (hput : (vmsMetaCachePut c schema table cols fp utcTs r).1 = true) :
    (vmsMetaCachePut c schema table cols fp utcTs r).2 (makeKey schema table) = some ⟨fp, utcTs, payload cols⟩ := by
  revert hput
  fun_cases vmsMetaCachePut c schema table cols fp utcTs r <;> intro hput
  case case2 buf hbuf _ =>
    -- with less memory there is no other payload
    have hpayload : buf = payload cols := by
      have heq := payloadOf_eq h
      unfold payloadOf at hbuf heq
      cases hsize : payloadSize cols with
      | none => simp [hsize] at hbuf
      | some sz =>
        simp only [hsize, Bool.not_true, Bool.and_false, Bool.false_eq_true, if_false] at hbuf heq
        split_ifs at hbuf
        exact Option.some.inj (hbuf.symm.trans heq)
    simp [hpayload]
  all_goals cases hput

/-- What a lookup says about the row of a list. -/
theorem vmsMetaCacheGet_payload {c : VmsMetaCache} {schema table : List Nat} {fp : Nat}
    {utcTs : Int} (h : TableFits cols)
    (hrow : c (makeKey schema table) = some ⟨fp, utcTs, payload cols⟩) (liveFp : Nat) :
    vmsMetaCacheGet c schema table liveFp {} = if fp = vmsMetaFingerprint true cols ∧ cols ≠ [] ∧ Supported cols then
        (if liveFp = 0 then .stale else if liveFp = fp then .fresh else .drift, some cols) else (.corrupt, none) := by
  have hlen : (payload cols).length ≠ 0 := by
    have := length_payload cols
    omega
  have hcheck := vmsMetaShadowCheck_payload h fp
  rw [vmsMetaCacheGet]
  simp only [hrow, hlen, Bool.not_true, Bool.false_eq_true, if_false, payloadRead_payload h]
  by_cases hfp : fp = vmsMetaFingerprint true cols
  · simp only [hcheck.mpr hfp, Bool.not_true, Bool.false_eq_true, if_false]
    simp only [hfp, true_and]
    split_ifs <;> rfl
  · have hfail : vmsMetaShadowCheck (payload cols) fp = false := by
      simpa using fun hok => hfp (hcheck.mp hok)
    simp [hfail, hfp]

/-- **Put, then get.**  For every list that `vms_meta_columns` can return, after a successful put and any
    calls for other tables, a lookup with the fingerprint of the list is FRESH and gives the list exactly
    if it was put with that fingerprint, it is not empty, none of its types is unsupported, and its
    fingerprint is not zero. -/
theorem put_get_iff (c : VmsMetaCache) {schema table : List Nat} (hs : Valid schema)
    (ht : Valid table) (h : TableFits cols) (fp : Nat) (utcTs : Int) (r : CacheReply)
    (hput : (vmsMetaCachePut c schema table cols fp utcTs r).1 = true) (calls : List CacheCall)
    (hcalls : ∀ i ∈ calls, i.Elsewhere schema table) :
    vmsMetaCacheGet (run CacheCall.step (vmsMetaCachePut c schema table cols fp utcTs r).2 calls) schema table
        (vmsMetaFingerprint true cols) {} = (.fresh, some cols) ↔
      fp = vmsMetaFingerprint true cols ∧ cols ≠ [] ∧ Supported cols ∧ vmsMetaFingerprint true cols ≠ 0 := by
  have hrow : run CacheCall.step (vmsMetaCachePut c schema table cols fp utcTs r).2 calls (makeKey schema table) =
      some ⟨fp, utcTs, payload cols⟩ := by
    rw [run_elsewhere hs ht calls hcalls, vmsMetaCachePut_row h.count hput]
  rw [vmsMetaCacheGet_payload h hrow]
  by_cases hgood : fp = vmsMetaFingerprint true cols ∧ cols ≠ [] ∧ Supported cols
  · rw [if_pos hgood]
    by_cases hzero : vmsMetaFingerprint true cols = 0
    · simp [hzero]
    · rw [if_neg hzero, if_pos hgood.1.symm]
      exact iff_of_true rfl ⟨hgood.1, hgood.2.1, hgood.2.2, hzero⟩
  · rw [if_neg hgood]
    refine iff_of_false (by simp) fun hall => hgood ⟨hall.1, hall.2.1, hall.2.2.1⟩

/-- `dbo`. -/
def dbo : List Nat := [100, 98, 111]

def idColumn : VmsMetaColumn :=
  { name := [105, 100], typeName := [105, 110, 116], vtype := .int64, maxLength := 4, precision := 10 }

theorem fits_idColumn : TableFits [idColumn] where
  count := by decide
  fits := by
    intro m hm
    obtain rfl := mem_singleton.mp hm
    exact ⟨by decide, by decide, by decide, by decide, by decide⟩

/-- The table `dbo.t` with one column, after `dbo.u` was put and dropped. -/
theorem put_get_id :
    vmsMetaCacheGet
      (run CacheCall.step
        (vmsMetaCachePut (fun _ => none) dbo [116] [idColumn] (vmsMetaFingerprint true [idColumn]) 0 {}).2
        [.put dbo [117] [] 1 0 {}, .drop dbo [117] {}]) dbo [116]
      (vmsMetaFingerprint true [idColumn]) {} = (.fresh, some [idColumn]) := by
  refine (put_get_iff (fun _ => none) (by decide) (by decide) fits_idColumn _ 0 {} rfl _ ?_).mpr
    ⟨rfl, by decide, by decide, by decide +kernel⟩
  intro i hi
  have hcases := mem_cons.mp hi
  rcases hcases with rfl | hi
  · exact ⟨by decide, by decide, by decide⟩
  · obtain rfl := mem_singleton.mp hi
    exact ⟨by decide, by decide, by decide⟩

/-- `sql_variant`. -/
def variantColumn : VmsMetaColumn :=
  { name := [118], typeName := [115, 113, 108, 95, 118, 97, 114, 105, 97, 110, 116], vtype := .unsupported,
    maxLength := 8016 }

/-- A column `rlqodsqakmj nchar` that alone has the fingerprint zero. -/
def zeroColumn : VmsMetaColumn :=
  { name := [114, 108, 113, 111, 100, 115, 113, 97, 107, 109, 106], typeName := [110, 99, 104, 97, 114],
    vtype := .text, isNullable := true, maxLength := 146 }

/-- **What is put is not always got back**: no columns, an unsupported type, a fingerprint of zero. -/
theorem put_get_fails :
    (∀ cols ∈ [[], [idColumn, variantColumn], [zeroColumn]],
      (vmsMetaCachePut (fun _ => none) dbo [116] cols (vmsMetaFingerprint true cols) 0 {}).1 = true) ∧
    (∀ cols ∈ [[], [idColumn, variantColumn]],
      vmsMetaCacheGet (vmsMetaCachePut (fun _ => none) dbo [116] cols (vmsMetaFingerprint true cols) 0 {}).2
        dbo [116] (vmsMetaFingerprint true cols) {} = (.corrupt, none)) ∧
    vmsMetaCacheGet (vmsMetaCachePut (fun _ => none) dbo [116] [zeroColumn] (vmsMetaFingerprint true [zeroColumn]) 0
      {}).2 dbo [116] (vmsMetaFingerprint true [zeroColumn]) {} = (.stale, some [zeroColumn]) := by
  decide +kernel

end VirtualMssql.MetaCache
