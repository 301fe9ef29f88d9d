/-
  LONG VALUES — a text or a blob, fetched in pieces of 64 KiB and handed to SQLite.

  `SQLGetData` is asked again and again for the same column.  Each answer fills the buffer and sets an
  indicator: the bytes that were LEFT before the call (which may be more than the buffer holds), SQL_NULL_DATA,
  or SQL_NO_TOTAL when the driver does not know how much is left.  The loop appends
  `min indicator 65536` bytes if the indicator is positive, and stops at SQL_SUCCESS or SQL_NO_DATA.

  `Conforms` lists the answers a driver may give for some stored bytes, and `taken` is what the loop keeps of
  them (`collect_conforms`).  Against the stored bytes (`taken_spec`):

  * every indicator is a length — exactly the stored bytes are kept, however many pieces;
  * an indicator is SQL_NO_TOTAL — it is NEGATIVE, so that piece, 65536 bytes of it, is dropped.

  A blob of which nothing was kept has no buffer, and `sqlite3_result_blob` makes SQL NULL of that: the empty
  blob too.  `long_value_iff` says exactly when SQLite sees the stored value, and when it sees NULL.
-/
import VirtualMssql.Lib.Utf16
import VirtualMssql.Meta
import VirtualMssql.Sqlite

namespace VirtualMssql.LongValues

open Utf List Option

/-! ## The answers of the driver -/

/-- `VMS_GETDATA_CHUNK`. -/
def chunkSize : Nat := 65536

/-- `SQL_NULL_DATA`. -/
def sqlNullData : Int := -1

/-- `SQL_NO_TOTAL`. -/
def sqlNoTotal : Int := -4

/-- `INT_MAX`. -/
def intMax : Nat := 2147483647

/-- `chunk`, as a call left it. -/
structure Chunk where
  bytes : List Nat
  size : bytes.length = chunkSize

/-- An answer of `SQLGetData`: SQL_NO_DATA, an error, or — `last` for SQL_SUCCESS, otherwise
    SQL_SUCCESS_WITH_INFO — the buffer and the indicator. -/
inductive Answer
  | noData
  | error
  | data (last : Bool) (chunk : Chunk) (got : Int)

/-! ## The loop of `getdata_text` and `getdata_blob` -/

/-- `acc`, `acc_cap` and `wchars`.  There is a buffer exactly when something was appended, and it has a byte
    to spare for the zero behind the data. -/
structure Acc where
  bytes : List Nat
  cap : Nat
  wchars : Nat
  held : cap = 0 ↔ bytes = []
  room : cap = 0 ∨ bytes.length < cap

def Acc.empty : Acc where
  bytes := []
  cap := 0
  wchars := 0
  held := by simp
  room := .inl rfl

/-- `memcpy(acc + acc_len, chunk, bytes)` into a buffer that is large enough. -/
def Acc.put (a : Acc) (c : Chunk) (n cap : Nat) (hn : 0 < n ∧ n ≤ chunkSize) (hcap : a.bytes.length + n + 1 ≤ cap) :
    Acc where
  bytes := a.bytes ++ c.bytes.take n
  cap := cap
  wchars := a.wchars + n / 2
  held := by
    have hlen : (c.bytes.take n).length = n := by rw [length_take, c.size]; omega
    refine ⟨fun h => by omega, fun h => ?_⟩
    have hnil : c.bytes.take n = [] := (append_eq_nil_iff.mp h).2
    rw [hnil, length_nil] at hlen
    omega
  room := by
    rw [length_append, length_take, c.size]
    omega

/-- The capacity asked for: twice the old one, or what is needed. -/
def Acc.newCap (a : Acc) (n : Nat) : Nat := max (if a.cap = 0 then 65536 else a.cap * 2) (a.bytes.length + n + 1)

variable (granted : Nat → Bool)

/-- Appending `n` bytes of the chunk; `granted` says which requests `realloc` grants. -/
def Acc.add (a : Acc) (c : Chunk) (n : Nat) (hn : 0 < n ∧ n ≤ chunkSize) : Option Acc :=
  if h : a.bytes.length + n + 1 ≤ a.cap then some (a.put c n a.cap hn h)
  else if granted (a.newCap n) then some (a.put c n (a.newCap n) hn (Nat.le_max_right ..)) else none

/-- How the loop ends. -/
inductive Collected
  | failed
  | null
  | value (acc : Acc)

/-- **The loop.**  A driver always answers; a list that ends is one that had nothing more. -/
def collect (granted : Nat → Bool) : List Answer → Acc → Collected
  | [], a => .value a
  | .noData :: _, a => .value a
  | .error :: _, _ => .failed
  | .data last c got :: rest, a =>
    if got = sqlNullData then .null
    else if h : 0 < got then
      match a.add granted c (min got.toNat chunkSize) ⟨by rw [chunkSize]; omega, Nat.min_le_right ..⟩ with
      | none => .failed
      | some a' => if last then .value a' else collect granted rest a'
    else if last then .value a else collect granted rest a

/-- What `getdata_text` and `getdata_blob` leave in a `VmsValue`; `blob none` is the null pointer. -/
inductive Decoded
  | null
  | text (t : List Nat)
  | blob (b : Option (List Nat))
  deriving DecidableEq

/-- `vms_utf16_to_utf8`: `WideCharToMultiByte` with no flags, whose result is an `int`. -/
def vmsUtf16ToUtf8 (us : List Nat) (dstBytes : Nat) : Option (List Nat) :=
  let out := (points us).flatMap utf8Of
  if intMax < us.length then none
  else if out.length = 0 ∨ intMax < out.length then none
  else if dstBytes < out.length then none
  else some out

/-- `getdata_text`; none is a failure, which fails the row. -/
def getdataText (answers : List Answer) : Option Decoded :=
  match collect granted answers .empty with
  | .failed => none
  | .null => some .null
  | .value a =>
    if a.wchars = 0 then (if granted 1 then some (.text []) else none)
    else if a.bytes.length % 2 ≠ 0 then none
    else if granted (a.wchars * 3 + 1) then
      (vmsUtf16ToUtf8 ((wides a.bytes).take a.wchars) (a.wchars * 3 + 1)).map .text
    else none

/-- `getdata_blob`. -/
def getdataBlob (answers : List Answer) : Option Decoded :=
  match collect granted answers .empty with
  | .failed => none
  | .null => some .null
  | .value a => some (.blob (if a.cap = 0 then none else some a.bytes))

/-! ## `vms_vtab_column` -/

/-- The cast `(int)` of a length. -/
def cInt (n : Nat) : Int := ((n + 2147483648) % 4294967296 : Nat) - 2147483648

/-- `sqlite3_result_text`: a negative length stands for a C string; a text past SQLite's length limit is the
    error "string or blob too big" (none). -/
def sqlite3ResultText (limit : Nat) (z : List Nat) (n : Int) : Option SqliteValue :=
  let t := if n < 0 then cstr z else z.take n.toNat
  if limit < t.length then none else some (.text t)

/-- `sqlite3_result_blob`: a null pointer gives NULL; for a negative length it gives no value. -/
def sqlite3ResultBlob (limit : Nat) (z : Option (List Nat)) (n : Int) : Option SqliteValue :=
  match z with
  | none => some .null
  | some b => if n < 0 ∨ limit < n.toNat then none else some (.blob (b.take n.toNat))

/-- The switch of `vms_vtab_column` for these three types; `limit` is SQLite's length limit. -/
def vmsVtabColumn (limit : Nat) : Decoded → Option SqliteValue
  | .null => some .null
  | .text t => sqlite3ResultText limit t (cInt t.length)
  | .blob b => sqlite3ResultBlob limit b (cInt (b.getD []).length)

/-! ## What is stored, and how a driver may deliver it -/

/-- Well-formed Unicode text. -/
structure Text where
  points : List Nat
  scalar : ∀ cp ∈ points, Scalar cp

def Text.units (t : Text) : List Nat := t.points.flatMap Utf.units

/-- The column's two readers. -/
inductive Reader
  | text
  | blob
  deriving DecidableEq

/-- A value of the server, in a column read by one of the two. -/
inductive Stored
  | null (r : Reader)
  | text (t : Text)
  | blob (b : List Nat)

def Stored.reader : Stored → Reader
  | .null r => r
  | .text _ => .text
  | .blob _ => .blob

/-- The value SQLite should see; its text is UTF-8. -/
def Stored.value : Stored → SqliteValue
  | .null _ => .null
  | .text t => .text (t.points.flatMap utf8Of)
  | .blob b => .blob b

/-- **The answers a driver may give** for some bytes: SQL_SUCCESS when the rest fits, or a warning and then
    SQL_NO_DATA; otherwise the buffer is filled and the indicator is what was left, or SQL_NO_TOTAL.  A driver
    that does not know the total may also find nothing behind a full buffer. -/
inductive Conforms : List Nat → List Answer → Prop
  | whole {v : List Nat} {c : Chunk} (hfits : v.length ≤ chunkSize) (hc : c.bytes.take v.length = v) :
      Conforms v [.data true c v.length]
  | warned {v : List Nat} {c : Chunk} (hfits : v.length ≤ chunkSize) (hc : c.bytes.take v.length = v) :
      Conforms v [.data false c v.length, .noData]
  | more {rest : List Nat} {answers : List Answer} (c : Chunk) (hrest : rest ≠ []) (h : Conforms rest answers) :
      Conforms (c.bytes ++ rest) (.data false c (chunkSize + rest.length : Nat) :: answers)
  | unknown {rest : List Nat} {answers : List Answer} (c : Chunk) (h : Conforms rest answers) :
      Conforms (c.bytes ++ rest) (.data false c sqlNoTotal :: answers)
  | unknownEnd (c : Chunk) : Conforms c.bytes [.data false c sqlNoTotal, .noData]

/-- The answers for a value: text goes over the wire as UTF-16, low byte first. -/
def Stored.Answers : Stored → List Answer → Prop
  | .null _, answers => ∃ last c, answers = [.data last c sqlNullData]
  | .text t, answers => Conforms (leBytes t.units) answers
  | .blob b, answers => Conforms b answers

/-- The reader of the column, and `vms_vtab_column` on what it leaves. -/
def returned (limit : Nat) (answers : List Answer) : Reader → Option SqliteValue
  | .text => (getdataText granted answers).bind (vmsVtabColumn limit)
  | .blob => (getdataBlob granted answers).bind (vmsVtabColumn limit)

/-- The indicator is not SQL_NO_TOTAL. -/
def Answer.Known : Answer → Prop
  | .data _ _ got => got ≠ sqlNoTotal
  | _ => True

/-- A value that SQLite can hold and that is not the empty blob. -/
def Stored.Fits (limit : Nat) : Stored → Prop
  | .null _ => True
  | .text t => (t.points.flatMap utf8Of).length ≤ limit
  | .blob b => b ≠ [] ∧ b.length ≤ limit

/-! ## What the loop keeps -/

/-- What is appended for one answer. -/
def Answer.taken : Answer → List Nat
  | .data _ c got => if 0 < got then c.bytes.take (min got.toNat chunkSize) else []
  | _ => []

def taken (answers : List Answer) : List Nat := answers.flatMap Answer.taken

variable {granted} {v b : List Nat} {answers : List Answer} {limit : Nat}

theorem Acc.add_spec (hgranted : ∀ n, granted n = true) (a : Acc) (c : Chunk) (n : Nat) (hn : 0 < n ∧ n ≤ chunkSize) :
    ∃ a', a.add granted c n hn = some a' ∧ a'.bytes = a.bytes ++ c.bytes.take n ∧ a'.wchars = a.wchars + n / 2 := by
  rw [Acc.add]
  split_ifs with h hg
  · exact ⟨_, rfl, rfl, rfl⟩
  · exact ⟨_, rfl, rfl, rfl⟩
  · exact absurd (hgranted _) hg

/-- **One round** of the loop: the bytes of the answer are appended, and a last answer ends it. -/
theorem collect_data (hgranted : ∀ n, granted n = true) (last : Bool) (c : Chunk) (got : Int)
    (hgot : got ≠ sqlNullData) (rest : List Answer) (a : Acc) :
    ∃ a' : Acc, a'.bytes = a.bytes ++ (Answer.data last c got).taken ∧
      a'.wchars = a.wchars + (Answer.data last c got).taken.length / 2 ∧
      collect granted (.data last c got :: rest) a = if last then .value a' else collect granted rest a' := by
  rw [collect, if_neg hgot, Answer.taken]
  by_cases hpos : 0 < got
  · obtain ⟨a', hadd, hbytes, hwchars⟩ :=
      a.add_spec hgranted c (min got.toNat chunkSize) ⟨by rw [chunkSize]; omega, Nat.min_le_right ..⟩
    rw [dif_pos hpos, if_pos hpos, hadd]
    refine ⟨a', hbytes, ?_, rfl⟩
    rw [hwchars, length_take, c.size, Nat.min_eq_left (Nat.min_le_right ..)]
  · rw [dif_neg hpos, if_neg hpos]
    exact ⟨a, (append_nil _).symm, rfl, rfl⟩

theorem taken_cons (a : Answer) (answers : List Answer) : taken (a :: answers) = a.taken ++ taken answers :=
  flatMap_cons

theorem taken_noTotal (last : Bool) (c : Chunk) : (Answer.data last c sqlNoTotal).taken = [] := rfl

theorem taken_whole {c : Chunk} (hfits : v.length ≤ chunkSize) (hc : c.bytes.take v.length = v)
    (last : Bool) : (Answer.data last c v.length).taken = v := by
  rw [Answer.taken]
  split_ifs with h
  · rw [Int.toNat_natCast, Nat.min_eq_left hfits, hc]
  · exact (length_eq_zero_iff.mp (by omega)).symm

theorem taken_full (c : Chunk) (n : Nat) : (Answer.data false c (chunkSize + n : Nat)).taken = c.bytes := by
  have hpos : (0 : Int) < (chunkSize + n : Nat) := by rw [chunkSize]; omega
  rw [Answer.taken, if_pos hpos, Int.toNat_natCast, Nat.min_eq_right (by omega), ← c.size, take_length]

theorem known_natCast (last : Bool) (c : Chunk) (n : Nat) : (Answer.data last c n).Known := by
  rw [Answer.Known, sqlNoTotal]
  omega

/-- **Kept against stored**: the same bytes, unless an indicator was SQL_NO_TOTAL; then fewer, by whole
    chunks. -/
theorem taken_spec (h : Conforms v answers) :
    (∀ b ∈ taken answers, b ∈ v) ∧ (taken answers).length % 2 = v.length % 2 ∧
      ((∀ a ∈ answers, a.Known) ∧ taken answers = v ∨
        (¬∀ a ∈ answers, a.Known) ∧ (taken answers).length < v.length) := by
  induction h with
  | whole hfits hc | warned hfits hc =>
    have hnone : Answer.noData.taken = [] ∧ Answer.noData.Known := ⟨rfl, trivial⟩
    simp [taken, taken_whole hfits hc, known_natCast, hnone]
  | @more rest answers c hrest h ih =>
    obtain ⟨hmem, hpar, hsame⟩ := ih
    rw [taken_cons, taken_full, length_append, length_append]
    refine ⟨?_, by omega, ?_⟩
    · intro b hb
      rcases mem_append.mp hb with hb | hb
      · exact mem_append_left rest hb
      · exact mem_append_right c.bytes (hmem b hb)
    · rcases hsame with ⟨hknown, heq⟩ | ⟨hknown, hlt⟩
      · exact .inl ⟨forall_mem_cons.mpr ⟨known_natCast _ c _, hknown⟩, by rw [heq]⟩
      · exact .inr ⟨fun hall => hknown (forall_mem_cons.mp hall).2, by omega⟩
  | @unknown rest answers c h ih =>
    obtain ⟨hmem, hpar, hsame⟩ := ih
    have hsize : c.bytes.length = 65536 := c.size
    rw [taken_cons, taken_noTotal, nil_append, length_append]
    refine ⟨fun b hb => mem_append_right c.bytes (hmem b hb), by omega, .inr ⟨?_, ?_⟩⟩
    · exact fun hall => (forall_mem_cons.mp hall).1 rfl
    · rcases hsame with ⟨-, heq⟩ | ⟨-, hlt⟩
      · rw [heq]
        omega
      · omega
  | unknownEnd c =>
    have hnone : taken [.data false c sqlNoTotal, .noData] = [] := rfl
    have hsize : c.bytes.length = 65536 := c.size
    rw [hnone, hsize]
    exact ⟨nofun, rfl, .inr ⟨fun hall => (forall_mem_cons.mp hall).1 rfl, by simp⟩⟩

/-- The loop appends what is taken of every answer, and counts its wide characters. -/
def Gathers (granted : Nat → Bool) (answers : List Answer) : Prop := ∀ a : Acc, ∃ a' : Acc,
  collect granted answers a = .value a' ∧ a'.bytes = a.bytes ++ taken answers ∧
    a'.wchars = a.wchars + (taken answers).length / 2

theorem gathers_more {c : Chunk} {got : Int} (hgranted : ∀ n, granted n = true) (hgot : got ≠ sqlNullData)
    (hsplit : (Answer.data false c got).taken.length % 2 = 0 ∨ taken answers = []) (ih : Gathers granted answers) :
    Gathers granted (.data false c got :: answers) := by
  intro a
  obtain ⟨a', hbytes, hwchars, hcollect⟩ := collect_data hgranted false c got hgot answers a
  obtain ⟨a'', hrest, hbytes', hwchars'⟩ := ih a'
  refine ⟨a'', hcollect.trans hrest, ?_, ?_⟩
  · rw [hbytes', hbytes, taken_cons, append_assoc]
  · rw [hwchars', hwchars, taken_cons, length_append]
    rcases hsplit with heven | hnil
    · omega
    · rw [hnil, length_nil]
      omega

/-- **The whole loop**: wide characters are counted in pairs, since every piece but the last is a whole chunk. -/
theorem collect_conforms (hgranted : ∀ n, granted n = true) (h : Conforms v answers) : Gathers granted answers := by
  have hnone : Gathers granted [.noData] := fun a => ⟨a, rfl, (append_nil _).symm, rfl⟩
  induction h with
  | @whole v c hfits hc =>
    intro a
    obtain ⟨a', hbytes, hwchars, hcollect⟩ := collect_data hgranted true c v.length (by rw [sqlNullData]; omega) [] a
    have hone : taken [.data true c v.length] = (Answer.data true c v.length).taken := append_nil _
    rw [hone]
    exact ⟨a', hcollect, hbytes, hwchars⟩
  | warned => exact gathers_more hgranted (by rw [sqlNullData]; omega) (.inr rfl) hnone
  | more c _ _ ih =>
    have hsize : c.bytes.length = 65536 := c.size
    exact gathers_more hgranted (by rw [sqlNullData]; omega) (.inl (by rw [taken_full, hsize])) ih
  | unknown c _ ih => exact gathers_more hgranted (by decide) (.inl rfl) ih
  | unknownEnd c => exact gathers_more hgranted (by decide) (.inr rfl) hnone

/-! ## The two readers -/

theorem text_units_lt (t : Text) {u : Nat} (hu : u ∈ t.units) : u < 0x10000 := by
  obtain ⟨cp, hcp, hu⟩ := mem_flatMap.mp hu
  exact units_lt (t.scalar cp hcp) hu

/-- **`getdata_text`** converts what was taken in one pass, if the result has an `int` for its length. -/
theorem getdataText_conforms (hgranted : ∀ n, granted n = true) {t : Text} (h : Conforms (leBytes t.units) answers) :
    getdataText granted answers = (if intMax < ((points (wides (taken answers))).flatMap utf8Of).length then none
        else some (.text ((points (wides (taken answers))).flatMap utf8Of))) := by
  obtain ⟨a, hcollect, hbytes, hwchars⟩ := collect_conforms hgranted h .empty
  obtain ⟨hmem, hpar, -⟩ := taken_spec h
  replace hbytes : a.bytes = taken answers := hbytes
  replace hwchars : a.wchars = (taken answers).length / 2 := hwchars.trans (Nat.zero_add _)
  have heven : (taken answers).length % 2 = 0 := by
    rw [hpar, length_leBytes]
    omega
  have hwide : ∀ u ∈ wides (taken answers), u < 0x10000 :=
    mem_wides fun b hb => mem_leBytes (fun u hu => text_units_lt t hu) (hmem b hb)
  have hlen := length_wides (taken answers)
  obtain ⟨hge, hle⟩ := length_utf8_points hwide
  rw [getdataText, hcollect]
  simp only [hbytes, hwchars]
  by_cases hzero : (taken answers).length / 2 = 0
  · have hnil : taken answers = [] := length_eq_zero_iff.mp (by omega)
    rw [if_pos hzero, if_pos (hgranted 1), hnil]
    rfl
  · rw [if_neg hzero, if_neg (by omega), if_pos (hgranted _), take_of_length_le (by omega), vmsUtf16ToUtf8]
    by_cases hbig : intMax < ((points (wides (taken answers))).flatMap utf8Of).length
    · rw [if_pos hbig]
      simp only [hbig, or_true, if_true]
      split_ifs <;> rfl
    · rw [if_neg hbig, if_neg (by omega), if_neg (by omega), if_neg (by omega)]
      rfl

/-- **`getdata_blob`** leaves what was taken, or no buffer at all. -/
theorem getdataBlob_conforms (hgranted : ∀ n, granted n = true) (h : Conforms b answers) :
    getdataBlob granted answers = some (.blob (if taken answers = [] then none else some (taken answers))) := by
  obtain ⟨a, hcollect, hbytes, -⟩ := collect_conforms hgranted h .empty
  replace hbytes : a.bytes = taken answers := hbytes
  rw [getdataBlob, hcollect]
  simp [a.held, hbytes]

/-! ## `vms_vtab_column` on them -/

theorem cInt_of_le {n : Nat} (h : n ≤ intMax) : cInt n = n := by
  rw [intMax] at h
  rw [cInt]
  omega

/-- A text is passed on whole or refused. -/
theorem vmsVtabColumn_text {t : List Nat} (h : t.length ≤ intMax) :
    vmsVtabColumn limit (.text t) = if limit < t.length then none else some (.text t) := by
  have hpos : ¬(t.length : Int) < 0 := by omega
  rw [vmsVtabColumn, sqlite3ResultText, cInt_of_le h]
  simp [if_neg hpos]

/-- A blob that comes through is at most what was passed, and at most the limit. -/
theorem vmsVtabColumn_blob (h : vmsVtabColumn limit (.blob (some b)) = some (.blob v)) :
    v.length ≤ b.length ∧ v.length ≤ limit := by
  rw [vmsVtabColumn, sqlite3ResultBlob] at h
  split_ifs at h with hbad
  obtain rfl : b.take _ = v := SqliteValue.blob.inj (some.inj h)
  rw [length_take]
  omega

/-- Every blob within the limit comes through. -/
theorem vmsVtabColumn_blob_fits (hlimit : limit ≤ intMax) (h : b.length ≤ limit) :
    vmsVtabColumn limit (.blob (some b)) = some (.blob b) := by
  rw [vmsVtabColumn, sqlite3ResultBlob, getD_some, cInt_of_le (by omega)]
  simp only [Int.toNat_natCast, take_length]
  rw [if_neg (by omega)]

theorem vmsVtabColumn_blob_ne_null : vmsVtabColumn limit (.blob (some b)) ≠ some .null := by
  rw [vmsVtabColumn, sqlite3ResultBlob]
  split_ifs <;> simp

/-! ## Texts -/

section

variable (hgranted : ∀ n, granted n = true) (hlimit : limit ≤ intMax)
include hgranted hlimit

/-- What SQLite gets for a text column. -/
theorem returned_text {t : Text} (h : Conforms (leBytes t.units) answers) : returned granted limit answers .text =
      (if limit < ((points (wides (taken answers))).flatMap utf8Of).length then none
        else some (.text ((points (wides (taken answers))).flatMap utf8Of))) := by
  rw [returned, getdataText_conforms hgranted h]
  split_ifs with hbig hlim hlim
  · rfl
  · omega
  · rw [bind_some, vmsVtabColumn_text (by omega), if_pos hlim]
  · rw [bind_some, vmsVtabColumn_text (by omega), if_neg hlim]

/-- **A text is the stored one exactly when every indicator was a length** and SQLite can hold it.  With
    fewer units taken the bytes differ: their UTF-8 is read back as wide text of that many units. -/
theorem returned_text_iff {t : Text} (h : Conforms (leBytes t.units) answers) :
    returned granted limit answers .text = some (.text (t.points.flatMap utf8Of)) ↔
      (∀ a ∈ answers, a.Known) ∧ (t.points.flatMap utf8Of).length ≤ limit := by
  obtain ⟨hmem, hpar, hsame⟩ := taken_spec h
  rw [returned_text hgranted hlimit h]
  have hwide : ∀ u ∈ wides (taken answers), u < 0x10000 :=
    mem_wides fun b hb => mem_leBytes (fun u hu => text_units_lt t hu) (hmem b hb)
  constructor
  · intro heq
    split_ifs at heq with hlim
    have hbytes : (points (wides (taken answers))).flatMap utf8Of = t.points.flatMap utf8Of :=
      SqliteValue.text.inj (some.inj heq)
    rcases hsame with ⟨hknown, -⟩ | ⟨-, hlt⟩
    · exact ⟨hknown, by rw [← hbytes]; omega⟩
    · have hunits := congrArg List.length (utf16_eq_of_utf8_eq (scalar_points hwide) t.scalar hbytes)
      have hstored : t.units.length = (t.points.flatMap Utf.units).length := rfl
      rw [length_points hwide, length_wides] at hunits
      rw [length_leBytes] at hpar hlt
      omega
  · rintro ⟨hknown, hfits⟩
    rcases hsame with ⟨-, heq⟩ | ⟨hbad, -⟩
    · have hpoints : points (wides (taken answers)) = t.points := by
        rw [heq, wides_leBytes, Text.units, points_utf16 t.scalar]
      rw [hpoints, if_neg (by omega)]
    · exact absurd hknown hbad

/-! ## Blobs -/

/-- **A blob is the stored one exactly when every indicator was a length**, it is not empty and SQLite can
    hold it. -/
theorem returned_blob_iff (h : Conforms b answers) : returned granted limit answers .blob = some (.blob b) ↔
      (∀ a ∈ answers, a.Known) ∧ b ≠ [] ∧ b.length ≤ limit := by
  obtain ⟨-, -, hsame⟩ := taken_spec h
  rw [returned, getdataBlob_conforms hgranted h, bind_some]
  constructor
  · intro heq
    split_ifs at heq with hnil
    · cases heq
    · obtain ⟨hle, hfits⟩ := vmsVtabColumn_blob heq
      rcases hsame with ⟨hknown, hb⟩ | ⟨-, hlt⟩
      · exact ⟨hknown, fun h0 => hnil (hb.trans h0), hfits⟩
      · omega
  · rintro ⟨hknown, hne, hfits⟩
    rcases hsame with ⟨-, heq⟩ | ⟨hbad, -⟩
    · rw [heq, if_neg hne, vmsVtabColumn_blob_fits hlimit hfits]
    · exact absurd hknown hbad

omit hlimit in
/-- **A blob is NULL exactly when nothing of it was taken.** -/
theorem returned_blob_null (h : Conforms b answers) :
    returned granted limit answers .blob = some .null ↔ taken answers = [] := by
  rw [returned, getdataBlob_conforms hgranted h, bind_some]
  split_ifs with hnil
  · exact ⟨fun _ => hnil, fun _ => rfl⟩
  · exact ⟨fun heq => absurd heq vmsVtabColumn_blob_ne_null, fun h0 => absurd h0 hnil⟩

/-! ## Values -/

/-- **Long values, exactly.**  For every stored value and every conforming sequence of answers: SQLite sees
    the stored value exactly when no indicator was SQL_NO_TOTAL, the value is not the empty blob and it is
    within SQLite's length limit; it sees NULL exactly for NULL and for a blob of which no byte was taken. -/
theorem long_value_iff {s : Stored} (h : s.Answers answers) :
    (returned granted limit answers s.reader = some s.value ↔ (∀ a ∈ answers, a.Known) ∧ s.Fits limit) ∧
      (returned granted limit answers s.reader = some .null ↔
        (∃ r, s = .null r) ∨ (∃ b, s = .blob b) ∧ taken answers = []) := by
  match s with
  | .null r =>
    obtain ⟨last, c, rfl⟩ := h
    have hnull : returned granted limit [.data last c sqlNullData] r = some .null := by cases r <;> rfl
    have hknown : ∀ a ∈ [Answer.data last c sqlNullData], a.Known := by
      intro a ha
      rw [mem_singleton.mp ha]
      exact (by decide : sqlNullData ≠ sqlNoTotal)
    exact ⟨⟨fun _ => ⟨hknown, trivial⟩, fun _ => hnull⟩, ⟨fun _ => .inl ⟨r, rfl⟩, fun _ => hnull⟩⟩
  | .text t =>
    refine ⟨returned_text_iff hgranted hlimit h, ⟨fun heq => ?_, ?_⟩⟩
    · rw [Stored.reader, returned_text hgranted hlimit h] at heq
      split_ifs at heq
      cases heq
    · rintro (⟨r, hr⟩ | ⟨⟨b, hb⟩, -⟩)
      · cases hr
      · cases hb
  | .blob b =>
    refine ⟨returned_blob_iff hgranted hlimit h, (returned_blob_null hgranted h).trans ⟨fun h0 => ?_, ?_⟩⟩
    · exact .inr ⟨⟨b, rfl⟩, h0⟩
    · rintro (⟨r, hr⟩ | ⟨-, h0⟩)
      · cases hr
      · exact h0

end

/-- A chunk of zero bytes. -/
def zeros : Chunk := ⟨List.replicate chunkSize 0, length_replicate ..⟩

/-- A blob of a chunk and one byte, with lengths for indicators. -/
theorem long_value_two_chunks :
    returned (fun _ => true) 1000000000 [.data false zeros 65537, .data true zeros 1] .blob =
      some (.blob (zeros.bytes ++ [0])) := by
  have hone : Conforms [0] [.data true zeros 1] := .whole (by decide) rfl
  have htwo : (Stored.blob (zeros.bytes ++ [0])).Answers [.data false zeros 65537, .data true zeros 1] :=
    Conforms.more zeros (cons_ne_nil 0 []) hone
  have hknown : ∀ a ∈ [Answer.data false zeros 65537, .data true zeros 1], a.Known := by
    intro a ha
    simp only [mem_cons, not_mem_nil, or_false] at ha
    rcases ha with rfl | rfl
    · exact (by decide : (65537 : Int) ≠ sqlNoTotal)
    · exact (by decide : (1 : Int) ≠ sqlNoTotal)
  have hfits : (zeros.bytes ++ [0]).length ≤ 1000000000 := by
    rw [length_append, zeros.size, chunkSize]
    decide
  exact (long_value_iff (fun _ => rfl) (by decide) htwo).1.mpr ⟨hknown, by simp, hfits⟩

/-- The letter A, 32768 times: one chunk of wide text. -/
def letters : Chunk := ⟨leBytes (List.replicate 32768 65), by rw [length_leBytes, length_replicate]; rfl⟩

/-- These letters and a B. -/
def lettersText : Text where
  points := List.replicate 32768 65 ++ [66]
  scalar := by
    intro cp hcp
    rcases mem_append.mp hcp with h | h
    · rw [(mem_replicate.mp h).2]
      decide
    · rw [mem_singleton.mp h]
      decide

/-- A chunk that begins with the letter B. -/
def letterB : Chunk := ⟨66 :: 0 :: List.replicate 65534 0, by rw [length_cons, length_cons, length_replicate]; rfl⟩

theorem flatMap_units_replicate : ∀ n : Nat, (List.replicate n 65).flatMap Utf.units = List.replicate n 65
  | 0 => rfl
  | n + 1 => by
    rw [replicate_succ, flatMap_cons, flatMap_units_replicate n]
    rfl

theorem lettersText_answers :
    (Stored.text lettersText).Answers [.data false letters sqlNoTotal, .data true letterB 2] := by
  have hlast : Conforms (leBytes [66]) [.data true letterB 2] := .whole (by decide) rfl
  have hbytes : leBytes lettersText.units = letters.bytes ++ leBytes [66] := by
    rw [Text.units, lettersText, flatMap_append, flatMap_units_replicate]
    exact flatMap_append
  rw [Stored.Answers, hbytes]
  exact Conforms.unknown letters hlast

/-- **Lost values.**  The empty blob is NULL; of a blob and of a text whose first chunk came with SQL_NO_TOTAL
    only what stands behind it is left. -/
theorem long_values_lost :
    ((Stored.blob []).Answers [.data true zeros 0] ∧
      returned (fun _ => true) 1000000000 [.data true zeros 0] .blob = some .null) ∧
    ((Stored.blob (zeros.bytes ++ [66])).Answers [.data false zeros sqlNoTotal, .data true letterB 1] ∧
      returned (fun _ => true) 1000000000 [.data false zeros sqlNoTotal, .data true letterB 1] .blob =
        some (.blob [66])) ∧
    (Stored.text lettersText).Answers [.data false letters sqlNoTotal, .data true letterB 2] ∧
      returned (fun _ => true) 1000000000 [.data false letters sqlNoTotal, .data true letterB 2] .text =
        some (.text [66]) := by
  have hempty : Conforms [] [.data true zeros 0] := .whole (Nat.zero_le _) rfl
  have hone : Conforms [66] [.data true letterB 1] := .whole (by decide) rfl
  have hblob : Conforms (zeros.bytes ++ [66]) [.data false zeros sqlNoTotal, .data true letterB 1] :=
    Conforms.unknown zeros hone
  have hkept : taken [.data false zeros sqlNoTotal, .data true letterB 1] = [66] := rfl
  have hkept' : taken [.data false letters sqlNoTotal, .data true letterB 2] = [66, 0] := rfl
  refine ⟨⟨hempty, rfl⟩, ⟨hblob, ?_⟩, lettersText_answers, ?_⟩
  · rw [returned, getdataBlob_conforms (fun _ => rfl) hblob, hkept]
    rfl
  · rw [returned_text (fun _ => rfl) (by decide) lettersText_answers, hkept']
    rfl

end VirtualMssql.LongValues
