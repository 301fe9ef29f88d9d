/-
  STABLE KEYS — which index `vms_meta_stable_key` takes the key of a table from.

  The catalog is asked for the columns of all unique indexes, ordered by index and key ordinal.  `key_row` collects the
  key of the index whose rows are coming; a row of another index, or the end, closes it, and `key_finish_current` keeps
  the better one: the first suitable index, or the first suitable primary key.

  Names are cut to the 127 bytes of their buffers.  A row with an ordinal outside 1..16 makes the index unsuitable.
  That is meant for keys that are too wide; but the INCLUDE columns of an index have the ordinal 0, and their rows
  come first.

  The induction is over the indexes (`stream_best`): behind each of them the state is `Closed`, with the best of those
  so far.  `stable_key_iff` says which index is taken and when that is the one the header promises.
-/
import VirtualMssql.Registry

namespace VirtualMssql.StableKey

open Registry List Option
open TSql (wide)

/-! ## `vms_meta_stable_key` -/

/-- A slot of `parts[]` after `memset`. -/
def noPart : VmsKeyColumn := ⟨[], .int64⟩

/-- `VmsStableKey`, with the index it was taken from and all its slots. -/
structure VmsStableKey where
  indexName : List Nat := []
  isPrimaryKey : Bool := false
  partCount : Nat := 0
  parts : List VmsKeyColumn := replicate vmsMetaMaxKeyParts noPart
  deriving DecidableEq

/-- `KeyCtx`. -/
structure KeyCtx where
  best : VmsStableKey := {}
  current : VmsStableKey := {}
  currentIndexId : Int := 0
  currentSuitable : Bool := false
  haveBest : Bool := false

/-- A row of the catalog query. -/
structure KeyRow where
  indexId : Int
  isPk : Int
  suitable : Int
  ordinal : Int
  colName : List Nat
  typeName : List Nat
  maxLength : Int
  indexName : List Nat

/-- `key_finish_current`. -/
def keyFinishCurrent (k : KeyCtx) : KeyCtx :=
  if k.currentIndexId = 0 then k
  else
    let better := !k.haveBest || (k.current.isPrimaryKey && !k.best.isPrimaryKey)
    let k :=
      if k.currentSuitable && decide (0 < k.current.partCount) && better then
        { k with best := k.current, haveBest := true }
      else k
    { k with currentIndexId := 0, currentSuitable := false, current := {} }

/-- The first row of an index. -/
def keyBegin (k : KeyCtx) (r : KeyRow) : KeyCtx :=
  { k with
    currentIndexId := r.indexId
    currentSuitable := r.suitable = 1
    current := { k.current with isPrimaryKey := r.isPk = 1, indexName := copyText 128 r.indexName } }

/-- The column of a row goes into its slot. -/
def keyPart (k : KeyCtx) (r : KeyRow) : KeyCtx :=
  if !k.currentSuitable then k
  else if r.ordinal < 1 ∨ (vmsMetaMaxKeyParts : Int) < r.ordinal then { k with currentSuitable := false }
  else
    { k with
      current := { k.current with
        parts := k.current.parts.set (r.ordinal - 1).toNat
          ⟨copyText 128 r.colName, vtypeFromSqlType (copyText 64 r.typeName) (ulong r.maxLength)⟩
        partCount := max k.current.partCount r.ordinal.toNat } }

/-- `key_row`. -/
def keyRow (k : KeyCtx) (r : KeyRow) : KeyCtx :=
  keyPart (if r.indexId ≠ k.currentIndexId then keyBegin (keyFinishCurrent k) r else k) r

/-- `vms_meta_stable_key`, on the rows that come, to their end or to a failed fetch. -/
def vmsMetaStableKey (schema name : List Nat) (rows : List KeyRow) (ok : Bool) : Option VmsStableKey :=
  if !vmsMetaIdentValid schema 128 || !vmsMetaIdentValid name 128 then none
  else
    let k := keyFinishCurrent (rows.foldl keyRow {})
    if !ok then none
    else if !k.haveBest then none
    else some k.best

/-! ## The catalog -/

structure IndexColumn where
  name : List Nat
  typeName : List Nat
  maxLength : Int := 4
  isNullable : Bool := false
  isComputed : Bool := false
  deriving DecidableEq

/-- A unique index. -/
structure Index where
  id : Int
  name : List Nat
  keys : List IndexColumn
  included : List IndexColumn := []
  isPrimaryKey : Bool := false
  isDisabled : Bool := false
  isHypothetical : Bool := false
  hasFilter : Bool := false
  id_pos : 0 < id
  keys_ne : keys ≠ []
  deriving DecidableEq

variable (i : Index)

/-- The CASE of the query. -/
def Index.passes : Bool :=
  !i.isDisabled && !i.isHypothetical && !i.hasFilter && i.keys.all fun c => !c.isNullable && !c.isComputed

def Index.row (ordinal : Nat) (c : IndexColumn) : KeyRow where
  indexId := i.id
  isPk := if i.isPrimaryKey then 1 else 0
  suitable := if i.passes then 1 else 0
  ordinal := ordinal
  colName := c.name
  typeName := c.typeName
  maxLength := c.maxLength
  indexName := i.name

/-- The rows of an index in the order of their ordinals. -/
def Index.rows : List KeyRow :=
  i.included.map (i.row 0) ++ (i.keys.zipIdx 1).map fun c => i.row c.2 c.1

/-- The rows of a table. -/
def stream (is : List Index) : List KeyRow := is.flatMap Index.rows

/-! ## What the header promises -/

/-- No nullable or computed key column, not filtered, disabled or hypothetical, and not too wide. -/
def Index.suitable : Bool := i.passes && decide (i.keys.length ≤ vmsMetaMaxKeyParts)

/-- The primary key if it is suitable, else the first suitable index. -/
def firstOf (p : Index → Bool) (is : List Index) : Option Index :=
  (is.find? fun i => i.isPrimaryKey && p i).or (is.find? p)

def expected (is : List Index) : Option Index := firstOf Index.suitable is

def keyColumn (c : IndexColumn) : VmsKeyColumn :=
  ⟨copyText 128 c.name, vtypeFromSqlType (copyText 64 c.typeName) (ulong c.maxLength)⟩

/-- The key of an index, its columns in key order. -/
def Index.stored : VmsStableKey where
  indexName := copyText 128 i.name
  isPrimaryKey := i.isPrimaryKey
  partCount := i.keys.length
  parts := i.keys.map keyColumn ++ replicate (vmsMetaMaxKeyParts - i.keys.length) noPart

/-! ## The rows of one index -/

/-- The indexes that `key_row` takes: none with INCLUDE columns. -/
def Index.taken : Bool := i.suitable && i.included.isEmpty

variable {k : KeyCtx} {i} {p : Index → Bool} {is : List Index}

theorem keyRow_same {r : KeyRow} (h : r.indexId = k.currentIndexId) : keyRow k r = keyPart k r := by
  rw [keyRow, if_neg (not_not.mpr h)]

/-- What a column leaves alone. -/
theorem keyPart_frame (k : KeyCtx) (r : KeyRow) : (keyPart k r).currentIndexId = k.currentIndexId ∧
    (keyPart k r).best = k.best ∧ (keyPart k r).haveBest = k.haveBest := by
  unfold keyPart
  split_ifs <;> exact ⟨rfl, rfl, rfl⟩

/-- Rows of the index that is open. -/
theorem foldl_same {id : Int} : ∀ {rs : List KeyRow} {k : KeyCtx}, (∀ r ∈ rs, r.indexId = id) → k.currentIndexId = id →
    rs.foldl keyRow k = rs.foldl keyPart k
  | [], _, _, _ => rfl
  | r :: rs, k, hrs, hk => by
    have hr := hrs r mem_cons_self
    rw [foldl_cons, foldl_cons, keyRow_same (hr.trans hk.symm)]
    exact foldl_same (fun q hq => hrs q (mem_cons_of_mem r hq)) ((keyPart_frame k r).1.trans hk)

/-- An index that is found unsuitable stays so. -/
theorem foldl_unsuitable : ∀ (rs : List KeyRow) {k : KeyCtx}, k.currentSuitable = false → rs.foldl keyPart k = k
  | [], _, _ => rfl
  | r :: rs, k, hk => by
    rw [foldl_cons, keyPart, hk, Bool.not_false, if_pos rfl]
    exact foldl_unsuitable rs hk

/-- The state with `n` parts in their slots. -/
def withParts (k : KeyCtx) (ps : List VmsKeyColumn) : KeyCtx :=
  { k with
    current := { k.current with
      partCount := ps.length
      parts := ps ++ replicate (vmsMetaMaxKeyParts - ps.length) noPart } }

/-- One key column more. -/
theorem keyPart_next (hk : k.currentSuitable = true) (i : Index) {ps : List VmsKeyColumn}
    (hps : ps.length < vmsMetaMaxKeyParts) (c : IndexColumn) :
    keyPart (withParts k ps) (i.row (ps.length + 1) c) = withParts k (ps ++ [keyColumn c]) := by
  have hroom : vmsMetaMaxKeyParts - ps.length = (vmsMetaMaxKeyParts - (ps.length + 1)) + 1 := by omega
  have hin : ¬ (((ps.length + 1 : Nat) : Int) < 1 ∨
      (vmsMetaMaxKeyParts : Int) < ((ps.length + 1 : Nat) : Int)) := by omega
  have hslot : (((ps.length + 1 : Nat) : Int) - 1).toNat = ps.length := by omega
  have hcount : max ps.length (((ps.length + 1 : Nat) : Int)).toNat = ps.length + 1 := by omega
  have hset : (ps ++ replicate (vmsMetaMaxKeyParts - ps.length) noPart).set ps.length (keyColumn c) =
      ps ++ [keyColumn c] ++ replicate (vmsMetaMaxKeyParts - (ps.length + 1)) noPart := by
    rw [hroom, replicate_succ, set_append_right _ _ (Nat.le_refl _), Nat.sub_self, set_cons_zero, append_assoc]
    rfl
  simp only [keyPart, withParts, hk, Bool.not_true, Bool.false_eq_true, if_false, Index.row, hin, hslot, hcount,
    length_append, length_singleton]
  rw [← hset]
  rfl

/-- A key that is too wide. -/
theorem keyPart_wide (k : KeyCtx) (i : Index) {n : Nat} (hn : vmsMetaMaxKeyParts ≤ n) (c : IndexColumn) :
    (keyPart k (i.row (n + 1) c)).currentSuitable = false := by
  have hout : ((n + 1 : Nat) : Int) < 1 ∨ (vmsMetaMaxKeyParts : Int) < ((n + 1 : Nat) : Int) := by omega
  unfold keyPart
  split_ifs with hk hrange
  · simpa using hk
  · rfl
  · exact absurd hout hrange

/-- **The key columns of an index**, with `ps` in their slots already. -/
theorem foldl_keys {k : KeyCtx} (hk : k.currentSuitable = true) (i : Index) : ∀ (cs : List IndexColumn)
    (ps : List VmsKeyColumn), ps.length + cs.length ≤ vmsMetaMaxKeyParts →
    ((cs.zipIdx (ps.length + 1)).map fun c => i.row c.2 c.1).foldl keyPart (withParts k ps) =
      withParts k (ps ++ cs.map keyColumn)
  | [], ps, _ => by simp
  | c :: cs, ps, hlen => by
    rw [length_cons] at hlen
    have hnext := foldl_keys hk i cs (ps ++ [keyColumn c]) (by rw [length_append, length_singleton]; omega)
    rw [length_append, length_singleton, append_assoc] at hnext
    rw [zipIdx_cons, map_cons, foldl_cons, keyPart_next hk i (by omega) c]
    exact hnext

/-- The same of a key that is too wide. -/
theorem foldl_wide {k : KeyCtx} (hk : k.currentSuitable = true) (i : Index) : ∀ (cs : List IndexColumn)
    (ps : List VmsKeyColumn), ps.length ≤ vmsMetaMaxKeyParts → vmsMetaMaxKeyParts < ps.length + cs.length →
    (((cs.zipIdx (ps.length + 1)).map fun c => i.row c.2 c.1).foldl keyPart (withParts k ps)).currentSuitable = false
  | [], ps, hps, hlen => by
    rw [length_nil] at hlen
    omega
  | c :: cs, ps, hps, hlen => by
    rw [zipIdx_cons, map_cons, foldl_cons]
    by_cases hfull : vmsMetaMaxKeyParts ≤ ps.length
    · have hcut := keyPart_wide (withParts k ps) i hfull c
      rw [foldl_unsuitable _ hcut]
      exact hcut
    · rw [length_cons] at hlen
      have hnext := foldl_wide hk i cs (ps ++ [keyColumn c]) (by rw [length_append, length_singleton]; omega)
        (by rw [length_append, length_singleton]; omega)
      rw [length_append, length_singleton] at hnext
      rw [keyPart_next hk i (by omega) c]
      exact hnext

theorem foldl_keyPart_frame : ∀ (rs : List KeyRow) (k : KeyCtx),
    (rs.foldl keyPart k).currentIndexId = k.currentIndexId ∧ (rs.foldl keyPart k).best = k.best ∧
      (rs.foldl keyPart k).haveBest = k.haveBest
  | [], _ => ⟨rfl, rfl, rfl⟩
  | r :: rs, k => by
    obtain ⟨hid, hbest, hhave⟩ := foldl_keyPart_frame rs (keyPart k r)
    obtain ⟨hid', hbest', hhave'⟩ := keyPart_frame k r
    rw [foldl_cons]
    exact ⟨hid.trans hid', hbest.trans hbest', hhave.trans hhave'⟩

/-- The state with an index begun. -/
def opened (k : KeyCtx) (i : Index) : KeyCtx :=
  { k with
    currentIndexId := i.id
    currentSuitable := i.passes
    current := { isPrimaryKey := i.isPrimaryKey, indexName := copyText 128 i.name } }

theorem suitable_rows (i : Index) (k : KeyCtx) : (i.rows.foldl keyPart (opened k i)).currentSuitable = i.taken := by
  rw [Index.taken, Index.suitable]
  cases hpass : i.passes with
  | false => rw [foldl_unsuitable i.rows (k := opened k i) hpass, opened, hpass]; rfl
  | true =>
    rw [Index.rows, foldl_append]
    cases hinc : i.included with
    | cons c cs =>
      -- an INCLUDE column, its ordinal is 0
      have hcut : keyPart (opened k i) (i.row 0 c) = { opened k i with currentSuitable := false } := by
        rw [keyPart, if_neg (by simp [opened, hpass]), if_pos (.inl (by simp [Index.row]))]
      rw [map_cons, foldl_cons, hcut, foldl_unsuitable (cs.map (i.row 0)) rfl, foldl_unsuitable _ rfl]
      simp
    | nil =>
      rw [map_nil, foldl_nil, isEmpty_nil, Bool.and_true, Bool.true_and]
      by_cases hlen : i.keys.length ≤ vmsMetaMaxKeyParts
      · have hkeys := foldl_keys (k := opened k i) hpass i i.keys [] (by rw [length_nil]; omega)
        rw [decide_eq_true hlen]
        exact (congrArg KeyCtx.currentSuitable hkeys).trans hpass
      · have hkeys := foldl_wide (k := opened k i) hpass i i.keys [] (Nat.zero_le _) (by rw [length_nil]; omega)
        rw [decide_eq_false hlen]
        exact hkeys

theorem current_rows (htaken : i.taken = true) (k : KeyCtx) :
    (i.rows.foldl keyPart (opened k i)).current = i.stored := by
  simp only [Index.taken, Index.suitable, Bool.and_eq_true, decide_eq_true_eq, List.isEmpty_iff] at htaken
  obtain ⟨⟨hpass, hlen⟩, hinc⟩ := htaken
  have hkeys := foldl_keys (k := opened k i) hpass i i.keys [] (by rw [length_nil]; omega)
  rw [Index.rows, hinc, List.map_nil, List.nil_append]
  refine (congrArg KeyCtx.current hkeys).trans ?_
  simp [withParts, opened, Index.stored]

/-! ## The rows of a table -/

/-- No index is open, and `b` is the best so far. -/
structure Closed (k : KeyCtx) (b : Option Index) : Prop where
  id : k.currentIndexId = 0
  current : k.current = {}
  have_best : k.haveBest = b.isSome
  best : ∀ i ∈ b, k.best = i.stored

/-- What `key_finish_current` keeps. -/
def better (b : Option Index) (i : Index) : Option Index :=
  if i.taken && (b.isNone || (i.isPrimaryKey && b.all fun j => !j.isPrimaryKey)) then some i else b

/-- **One index**, from a closed state to a closed state. -/
theorem closed_index {b : Option Index} (hk : Closed k b) (i : Index) :
    Closed (keyFinishCurrent (i.rows.foldl keyPart (opened k i))) (better b i) := by
  obtain ⟨hid, hbest, hhave⟩ := foldl_keyPart_frame i.rows (opened k i)
  have hsuit := suitable_rows i k
  have hopen : (i.rows.foldl keyPart (opened k i)).currentIndexId ≠ 0 := by
    rw [hid]
    exact (Int.ne_of_lt i.id_pos).symm
  have hcount : 0 < i.stored.partCount := length_pos_iff.mpr i.keys_ne
  rw [keyFinishCurrent, if_neg hopen, hsuit, better]
  cases htaken : i.taken with
  | false =>
    simp only [Bool.false_and, Bool.false_eq_true, if_false]
    exact ⟨rfl, rfl, hhave.trans hk.have_best, fun j hj => hbest.trans (hk.best j hj)⟩
  | true =>
    rw [current_rows htaken k, hhave, hbest]
    simp only [hcount, decide_true, Bool.true_and]
    have hsame : (!(opened k i).haveBest || (i.stored.isPrimaryKey && !(opened k i).best.isPrimaryKey)) =
        (b.isNone || (i.isPrimaryKey && b.all fun j => !j.isPrimaryKey)) := by
      show (!k.haveBest || (i.isPrimaryKey && !k.best.isPrimaryKey)) = _
      rw [hk.have_best]
      cases b with
      | none => rfl
      | some j => rw [hk.best j rfl]; rfl
    rw [hsame]
    split_ifs
    · exact ⟨rfl, rfl, rfl, fun j hj => by rw [← some.inj hj]⟩
    · exact ⟨rfl, rfl, hhave.trans hk.have_best, fun j hj => hbest.trans (hk.best j hj)⟩

/-- The first row of an index closes the one before. -/
theorem rows_from {b : Option Index} (hk : Closed (keyFinishCurrent k) b) (hi : k.currentIndexId ≠ i.id) :
    i.rows.foldl keyRow k = i.rows.foldl keyPart (opened (keyFinishCurrent k) i) := by
  have hof : ∀ r ∈ i.rows, ∃ n c, r = i.row n c := by
    intro r hr
    simp only [Index.rows, List.mem_append, List.mem_map] at hr
    obtain ⟨c, -, rfl⟩ | ⟨c, -, rfl⟩ := hr
    · exact ⟨0, c, rfl⟩
    · exact ⟨c.2, c.1, rfl⟩
  have hne : i.rows ≠ [] := by
    obtain ⟨c, cs, hcs⟩ := exists_cons_of_ne_nil i.keys_ne
    simp [Index.rows, hcs]
  obtain ⟨r, rs, hrows⟩ := exists_cons_of_ne_nil hne
  rw [hrows] at hof ⊢
  obtain ⟨n, c, rfl⟩ := hof r mem_cons_self
  have hbegin : keyBegin (keyFinishCurrent k) (i.row n c) = opened (keyFinishCurrent k) i := by
    have hpass : decide ((i.row n c).suitable = 1) = i.passes := by simp [Index.row]
    have hpk : decide ((i.row n c).isPk = 1) = i.isPrimaryKey := by simp [Index.row]
    simp only [keyBegin, opened, hk.current, hpass, hpk]
    rfl
  rw [foldl_cons, foldl_cons, keyRow, if_pos (show (i.row n c).indexId ≠ k.currentIndexId from hi.symm), hbegin]
  refine @foldl_same i.id _ _ (fun q hq => ?_) (keyPart_frame _ _).1
  obtain ⟨m, d, rfl⟩ := hof q (mem_cons_of_mem _ hq)
  rfl

/-- **The indexes of a table**: behind each of them the best so far is kept. -/
theorem stream_best : ∀ (is : List Index) {k : KeyCtx} {b : Option Index}, Closed (keyFinishCurrent k) b →
    (∀ i ∈ is, k.currentIndexId < i.id) → is.Pairwise (fun i j => i.id < j.id) →
    Closed (keyFinishCurrent ((stream is).foldl keyRow k)) (is.foldl better b)
  | [], _, _, hk, _, _ => hk
  | i :: is, k, b, hk, hid, hord => by
    rw [pairwise_cons] at hord
    rw [stream, flatMap_cons, foldl_append, rows_from hk (Int.ne_of_lt (hid i mem_cons_self))]
    refine stream_best is (closed_index hk i) (fun j hj => ?_) hord.2
    rw [(foldl_keyPart_frame i.rows _).1]
    exact hord.1 j hj

/-! ## The index that is taken -/

/-- The best of the indexes is the first of its kind. -/
theorem foldl_better : ∀ (is : List Index) (b : Option Index), is.foldl better b = if b.any Index.isPrimaryKey then b
      else (is.find? fun i => i.isPrimaryKey && i.taken).or (b.or (is.find? Index.taken))
  | [], b => by cases b <;> simp
  | i :: is, b => by
    rw [foldl_cons, foldl_better is, better, find?_cons, find?_cons]
    cases b with
    | none => cases htaken : i.taken <;> cases hpk : i.isPrimaryKey <;> simp [hpk]
    | some j =>
      cases htaken : i.taken <;> cases hpk : i.isPrimaryKey <;> cases hj : j.isPrimaryKey <;> simp [hpk, hj]

theorem foldl_better_none (is : List Index) : is.foldl better none = firstOf Index.taken is := by
  rw [foldl_better, firstOf]
  simp

variable {q : Index → Bool}

/-- The first with `p`, if it has `q` as well, is the first with `q`. -/
theorem find?_imp (hqp : ∀ i, q i = true → p i = true) (h : is.find? p = some i) (hq : q i = true) :
    is.find? q = some i := by
  obtain ⟨-, before, after, his, hbefore⟩ := find?_eq_some_iff_append.mp h
  refine find?_eq_some_iff_append.mpr ⟨hq, before, after, his, fun j hj => ?_⟩
  have hp := hbefore j hj
  rw [Bool.not_eq_true'] at hp ⊢
  exact Bool.eq_false_iff.mpr fun hqj => Bool.eq_false_iff.mp hp (hqp j hqj)

theorem find?_none_imp (hqp : ∀ i, q i = true → p i = true) (h : is.find? p = none) : is.find? q = none := by
  rw [find?_eq_none] at h ⊢
  exact fun i hi hq => h i hi (hqp i hq)

theorem firstOf_imp (hqp : ∀ i, q i = true → p i = true) (h : ∀ i ∈ firstOf p is, q i = true) :
    firstOf q is = firstOf p is := by
  have hpk : ∀ i : Index, (i.isPrimaryKey && q i) = true → (i.isPrimaryKey && p i) = true := by
    intro i hi
    rw [Bool.and_eq_true] at hi ⊢
    exact ⟨hi.1, hqp i hi.2⟩
  unfold firstOf at h ⊢
  cases hfirst : is.find? fun i => i.isPrimaryKey && p i with
  | some i =>
    rw [hfirst, some_or] at h
    have hi := find?_some hfirst
    rw [Bool.and_eq_true] at hi
    rw [find?_imp hpk hfirst (by rw [hi.1, h i rfl]; rfl), some_or, some_or]
  | none =>
    rw [hfirst, none_or] at h
    rw [find?_none_imp hpk hfirst, none_or, none_or]
    cases hany : is.find? p with
    | some i => exact find?_imp hqp hany (h i hany)
    | none => exact find?_none_imp hqp hany

theorem of_mem_firstOf (h : i ∈ firstOf p is) : p i = true := by
  rcases or_eq_some_iff.mp h with hpk | ⟨-, hany⟩
  · have hi := find?_some hpk
    rw [Bool.and_eq_true] at hi
    exact hi.2
  · exact find?_some hany

/-- The index that is taken is the promised one unless that one has INCLUDE columns. -/
theorem taken_eq_expected_iff (is : List Index) :
    firstOf Index.taken is = expected is ↔ ∀ i ∈ expected is, i.included = [] := by
  have himp : ∀ i : Index, i.taken = true → i.suitable = true := fun i hi => (Bool.and_eq_true_iff.mp hi).1
  constructor
  · intro h i hi
    rw [← h] at hi
    exact isEmpty_iff.mp (Bool.and_eq_true_iff.mp (of_mem_firstOf hi)).2
  · intro h
    refine firstOf_imp himp fun i hi => ?_
    rw [Index.taken, of_mem_firstOf hi, h i hi]
    rfl

theorem stableKey_stream {schema name : List Nat} (hschema : vmsMetaIdentValid schema 128 = true)
    (hname : vmsMetaIdentValid name 128 = true) (hord : is.Pairwise fun i j => i.id < j.id) :
    vmsMetaStableKey schema name (stream is) true = (firstOf Index.taken is).map Index.stored := by
  have hstart : Closed (keyFinishCurrent {}) none := ⟨rfl, rfl, rfl, fun _ hi => by cases hi⟩
  have hend := stream_best is hstart (fun i _ => i.id_pos) hord
  rw [foldl_better_none] at hend
  simp only [vmsMetaStableKey, hschema, hname, Bool.not_true, Bool.or_self, Bool.false_eq_true, if_false,
    hend.have_best]
  cases hfirst : firstOf Index.taken is with
  | none => simp
  | some i =>
    rw [hfirst] at hend
    simp [hend.best i rfl]

/-- **The stable key of a table.**  It is taken from the first suitable primary key, or the first suitable unique
    index, among those without INCLUDE columns.  So it is the promised one exactly when that one has none; and its
    columns have their own names when these fit. -/
theorem stable_key_iff {schema name : List Nat} (hschema : vmsMetaIdentValid schema 128 = true)
    (hname : vmsMetaIdentValid name 128 = true) (hord : is.Pairwise fun i j => i.id < j.id) :
    vmsMetaStableKey schema name (stream is) true = (firstOf Index.taken is).map Index.stored ∧
      (firstOf Index.taken is = expected is ↔ ∀ i ∈ expected is, i.included = []) ∧
      ∀ i ∈ is, ((i.stored.parts.take i.stored.partCount).map (·.name) = i.keys.map (·.name) ↔
        ∀ c ∈ i.keys, 0 ∉ c.name ∧ c.name.length < 128) := by
  refine ⟨stableKey_stream hschema hname hord, taken_eq_expected_iff is, fun i _ => ?_⟩
  have hparts : i.stored.parts.take i.stored.partCount = i.keys.map keyColumn := by
    rw [Index.stored, take_append_of_le_length (by simp), take_of_length_le (by simp)]
  rw [hparts, List.map_map, List.map_inj_left]
  exact forall₂_congr fun c _ => copyText_eq_self_iff (by decide)

/-- A table with a unique index that carries a column along, and no other. -/
def coveringIndex : Index where
  id := 2
  name := wide "ux_code"
  keys := [⟨wide "code", wide "int", 4, false, false⟩]
  included := [⟨wide "note", wide "nvarchar", 80, true, false⟩]
  id_pos := by decide
  keys_ne := by decide

/-- A primary key. -/
def primaryIndex : Index where
  id := 1
  name := wide "pk"
  keys := [⟨wide "id", wide "bigint", 8, false, false⟩]
  isPrimaryKey := true
  id_pos := by decide
  keys_ne := by decide

theorem stable_key_primary :
    vmsMetaStableKey (wide "dbo") (wide "t") (stream [primaryIndex, coveringIndex]) true = some primaryIndex.stored :=
  (stable_key_iff (by decide) (by decide) (by decide)).1

/-- The header promises the key `code`; the code finds none. -/
theorem covering_index_skipped :
    expected [coveringIndex] = some coveringIndex ∧
      vmsMetaStableKey (wide "dbo") (wide "t") (stream [coveringIndex]) true = none := by
  refine ⟨by decide, ?_⟩
  rw [stableKey_stream (by decide) (by decide) (by decide)]
  decide

end VirtualMssql.StableKey
