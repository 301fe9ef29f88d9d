/-
  XUPDATE — which row does a DELETE or an UPDATE name?

  xUpdate is told a rowid and does not look at it: the WHERE clause is made from texts that the LAST xRowid
  call of the table left in it, and the way from a key column to its text goes through `key_part_col`,
  which only `vtab_dml_ctx` outside a transaction fills.  So the row that is named depends on what happened
  since the row was scanned, and on the transaction.

  `Hist` is the module along any sequence of calls, with the xRowid calls it has seen; `Inv` says what the
  texts and the lookup are in every state that is reached.  From it `update_names_iff` tells exactly when
  the WHERE clause names a row scanned earlier, and `key_exact_iff` when it names the row of an xRowid call
  directly before.  `lost_update_iff` adds another client: nothing in the WHERE clause or in the result
  shows that the row has changed.
-/
import VirtualMssql.Rowid
import VirtualMssql.Txn

namespace VirtualMssql.Update

open TSql Utf DmlSql Txn Run Outcome Function
open Rowid (Row firstMapped cursorValue keyCol FirstOf firstMapped_iff firstMapped_some cursorValue_eq
  rowidValue)
open Projection (maxColMap projects)

/-! ## The stash -/

/-- `struct VmsVtab`, what xRowid leaves for xUpdate; -1 is none. -/
structure Stash where
  keyText : Nat → List Nat := fun _ => []
  keyPartCol : Nat → Option Nat := fun _ => some 0
  keyHave : Bool := false

section Stash

variable {F : Type} (dt : DoubleText F)

/-- `sizeof(key_text[k]) - 1`. -/
def keyTextCap : Nat := 159

/-- The text of a key value; NULL and blobs have none. -/
def stashText : VmsValue F → Option (List Nat)
  | .int i => some ((lldText i.val).take keyTextCap)
  | .float f => some ((dt.print f).take keyTextCap)
  | .text t => some (cstr (t.take keyTextCap))
  | .null => none
  | .blob _ => none

/-- The text of a key part: from the first column of the result that has its name. -/
def partText (cols : List VmsMetaColumn) (mask : Nat) (row : Row F) (p : VmsKeyColumn) : Option (List Nat) :=
  (firstMapped cols mask fun c => stricmp c.name p.name).bind fun j =>
    (cursorValue cols mask row j).bind (stashText dt)

/-- The loop over the key parts; the first one without a text ends it. -/
def stashKeys (cols : List VmsMetaColumn) (mask : Nat) (row : Row F) :
    List VmsKeyColumn → Nat → (Nat → List Nat) → Bool × (Nat → List Nat)
  | [], _, text => (true, text)
  | p :: ps, k, text =>
    match partText dt cols mask row p with
    | none => (false, text)
    | some t => stashKeys cols mask row ps (k + 1) (update text k t)

/-- `upd_key_stash_get`: the first part that is looked up in the column. -/
def updKeyStashGet (ncols : Nat) (st : Stash) : ValueGet := fun col =>
  if st.keyHave && decide (col < ncols) then
    ((List.range vmsMetaMaxKeyParts).find? fun k => st.keyPartCol k = some col).map st.keyText
  else none

/-- The loop of `vtab_dml_ctx` that fills the lookup. -/
def fillParts (d : VmsDmlContext) (old : Nat → Option Nat) : Nat → Option Nat := fun k =>
  match d.key.parts[k]? with
  | some p => keyPartCol d.cols p
  | none => old k

end Stash

/-! ## The calls -/

/-- The module: the transaction with its tables, what was written being the texts of the statements, and
    the stash of each table. -/
structure State (T : Type) where
  env : VmsVtabEnv T (List Nat)
  stash : T → Stash := fun _ => {}

/-- What xUpdate is asked for; `get` gives the new values. -/
inductive Change
  | delete
  | insert (get : ValueGet)
  | update (get : ValueGet)

/-- The row is named by the stash. -/
def Change.request (ncols : Nat) (st : Stash) : Change → Request
  | .delete => .delete (updKeyStashGet ncols st)
  | .insert get => .insert get
  | .update get => .update (updKeyStashGet ncols st) get

/-- What xUpdate returns, and the text that it had executed. -/
structure Updated (T : Type) where
  rc : SqliteRc
  sent : Option (List Nat)
  state : State T

section Calls

variable {T F : Type} [DecidableEq T] (dt : DoubleText F) (d : T → VmsDmlContext)

/-- `vtab_dml_ctx`: making the context with its own connection fills the lookup. -/
def State.dmlCtx (t : T) (r : CtxReply) (s : State T) : Option Route × State T :=
  let out := vtabDmlCtx t r s.env
  let made := !(s.env.tabs t).dml && (out.2.tabs t).dml
  (out.1,
    { env := out.2
      stash := if made then
          update s.stash t
            { s.stash t with keyPartCol := fillParts (d t) (s.stash t).keyPartCol }
        else s.stash })

/-- `vms_vtab_best_index`, besides the plan. -/
def State.bestIndex (t : T) (r : CtxReply) (s : State T) : State T :=
  if (s.env.tabs t).isQuerySource || !(s.env.tabs t).rwMode then s else (s.dmlCtx d t r).2

/-- Is there a context that xRowid can take the key from? -/
def State.known (s : State T) (t : T) : Bool :=
  (s.env.tabs t).rwMode && ((s.env.tabs t).dml || (s.env.tabs t).dmlTxn.isSome)

/-- `vms_vtab_rowid`, on a row. -/
def State.rowid (t : T) (mask : Nat) (counter : Int) (row : Row F) (s : State T) : Int × State T :=
  let st := s.stash t
  let st :=
    if s.known t then
      let (have_, text) := stashKeys dt (d t).cols mask row (d t).key.parts 0 st.keyText
      { st with keyText := text, keyHave := have_ }
    else { st with keyHave := false }
  (rowidValue (d t).cols mask counter row, { s with stash := update s.stash t st })

/-- `vms_vtab_update`: a context, the text, and the text executed as the transaction has it. -/
def State.update (t : T) (c : Change) (r : UpdateReply) (s : State T) : Updated T :=
  if !(s.env.tabs t).rwMode || (s.env.tabs t).isQuerySource then ⟨.readonly, none, s⟩
  else
    let ctx := s.dmlCtx d t r.ctx
    let stmt := vmsDml dt (d t) (c.request (d t).cols.length (ctx.2.stash t))
    let out := vmsVtabUpdate t (stmt.toOption.getD []) { r with built := stmt.toOption.isSome } s.env
    ⟨out.1, if ctx.1.isSome then stmt.toOption else none, { ctx.2 with env := out.2 }⟩

/-- The calls of a transaction. -/
inductive TxnCall
  | begin_ (a : Option Nat)
  | sync (r : Reply)
  | commit (r : EndReply)
  | rollback (r : EndReply)
  | savepoint (n : Nat) (r : SavepointReply)
  | release
  | rollbackTo (n : Nat) (r : Reply)

def TxnCall.run {W : Type} (e : VmsVtabEnv T W) : TxnCall → VmsVtabEnv T W
  | .begin_ a => (vmsVtabBegin a e).2
  | .sync r => (vmsVtabSync r e).2
  | .commit r => (vmsVtabCommit r e).2
  | .rollback r => (vmsVtabRollback r e).2
  | .savepoint n r => (vmsVtabSavepoint n r e).2
  | .release => (vmsVtabRelease e).2
  | .rollbackTo n r => (vmsVtabRollbackTo n r e).2

/-- Any call of the module. -/
inductive Call (T F : Type)
  | bestIndex (t : T) (r : CtxReply)
  | rowid (t : T) (mask : Nat) (counter : Int) (row : Row F)
  | update (t : T) (c : Change) (r : UpdateReply)
  | txn (c : TxnCall)

/-- An xRowid call that was made: the projection, the row, and whether a context was there. -/
structure Position (F : Type) where
  mask : Nat
  row : Row F
  known : Bool

/-- The module, and the xRowid calls of each table so far, the last one first. -/
structure Hist (T F : Type) where
  state : State T
  positions : T → List (Position F) := fun _ => []

def step (h : Hist T F) : Call T F → Hist T F
  | .bestIndex t r => { h with state := h.state.bestIndex d t r }
  | .rowid t mask counter row =>
    { state := (h.state.rowid dt d t mask counter row).2
      positions := update h.positions t (⟨mask, row, h.state.known t⟩ :: h.positions t) }
  | .update t c r => { h with state := (h.state.update dt d t c r).state }
  | .txn c => { h with state := { h.state with env := c.run h.state.env } }

/-- Tables that were just connected, in rw mode or not. -/
def start (F : Type) (rw : T → Bool) : Hist T F where
  state := { env := { tabs := fun t => { rwMode := rw t } } }

end Calls

open List

/-! ## What the stash holds -/

section Keys

variable {F : Type} {dt : DoubleText F}

/-- **The loop of xRowid**: it ends well when every part has a text, and then each text stands in its
    place. -/
theorem stashKeys_spec (dt : DoubleText F) (cols : List VmsMetaColumn) (mask : Nat) (row : Row F) :
    ∀ (ps : List VmsKeyColumn) (k : Nat) (text : Nat → List Nat),
      ((stashKeys dt cols mask row ps k text).1 = true ↔ ∀ p ∈ ps, (partText dt cols mask row p).isSome = true) ∧
      (∀ i < k, (stashKeys dt cols mask row ps k text).2 i = text i) ∧
      ((stashKeys dt cols mask row ps k text).1 = true → ∀ i p, ps[i]? = some p →
        partText dt cols mask row p = some ((stashKeys dt cols mask row ps k text).2 (k + i)))
  | [], k, text => by simp [stashKeys]
  | p :: ps, k, text => by
    cases hp : partText dt cols mask row p with
    | none => simp [stashKeys, hp]
    | some t =>
      obtain ⟨hall, hbelow, htexts⟩ := stashKeys_spec dt cols mask row ps (k + 1) (update text k t)
      have hstep : stashKeys dt cols mask row (p :: ps) k text =
          stashKeys dt cols mask row ps (k + 1) (update text k t) := by simp [stashKeys, hp]
      rw [hstep, hall]
      refine ⟨by simp [hp], fun i hi => ?_, fun hok i q hq => ?_⟩
      · rw [hbelow i (by omega), update_of_ne (by omega)]
      · cases i with
        | zero =>
          obtain rfl : p = q := by simpa using hq
          have hk := hbelow k (by omega)
          rw [update_self] at hk
          exact hp.trans (congrArg some hk.symm)
        | succ i =>
          have hnext := htexts (hall.mpr hok) i q (by simpa using hq)
          rwa [show k + 1 + i = k + (i + 1) by omega] at hnext

/-- The stash is what this xRowid call left. -/
structure Stashed (dt : DoubleText F) (d : VmsDmlContext) (pos : Position F) (st : Stash) : Prop where
  have_iff : st.keyHave = true ↔
    pos.known = true ∧ ∀ p ∈ d.key.parts, (partText dt d.cols pos.mask pos.row p).isSome = true
  texts : st.keyHave = true → ∀ k p, d.key.parts[k]? = some p →
    partText dt d.cols pos.mask pos.row p = some (st.keyText k)

/-! ## Naming a row -/

/-- **The key of a row**: for each part the name of its column and the row's value there. -/
def rowKey (d : VmsDmlContext) (row : Row F) : List (List Nat × VmsValue F) :=
  d.key.parts.map fun p => (utf8ToWide p.name, serverValue (row (keyCol d.cols p)))

/-- **The statement names the row**: its WHERE compares each key column with a literal that stands for the row's
    value. -/
def Names (d : VmsDmlContext) (stmt : Dml (VmsValue F)) (row : Row F) : Prop :=
  (stmt.keyCells.map fun c => (c.1, denoted c.2)) = rowKey d row

/-- Of the columns named like a key part in any case, the first is the one with its very name. -/
def NamedExactly (d : VmsDmlContext) : Prop :=
  ∀ p ∈ d.key.parts, ∀ j c, keyPartCol d.cols p = some j → d.cols[j]? = some c → c.name = p.name

/-- The text of the one value, read as this type, has a literal that stands for the other value. -/
def Carries (dt : DoubleText F) (ty : VmsColType) (v w : VmsValue F) : Prop :=
  ∃ t x, stashText dt v = some t ∧ textToValue dt (some t) ty = some x ∧ denoted x = serverValue w

/-- For every key part, what xRowid found under its name carries the row's value. -/
def CarriesKey (dt : DoubleText F) (d : VmsDmlContext) (pos : Position F) (row : Row F) : Prop :=
  ∀ p ∈ d.key.parts, ∀ j c, keyPartCol d.cols p = some j → d.cols[j]? = some c →
    ∃ i, FirstOf d.cols pos.mask (fun c => stricmp c.name p.name) i ∧ Carries dt c.vtype (pos.row i) (row j)

/-- Integers and doubles survive the stash, and texts that fit it and have no backslash before a newline. -/
theorem carries_self_iff {ty : VmsColType} {v : VmsValue F} (hty : Rowid.decodes ty v = true) : Carries dt ty v v ↔
      match v with
      | .int _ => True
      | .float _ => True
      | .text t => joined (utf8ToWide (cstr (t.take keyTextCap))) = utf8ToWide t
      | .null => False
      | .blob _ => False := by
  cases v with
  | null | blob b => simp [Carries, stashText]
  | int i =>
    have htake : (lldText i.val).take keyTextCap = lldText i.val :=
      take_of_length_le (le_trans (lldText_length i) (by decide))
    obtain rfl : ty = .int64 := by cases ty <;> first | rfl | exact Bool.noConfusion hty
    simp [Carries, stashText, htake, textToValue, strtoi64_lldText, denoted, serverValue]
  | float f =>
    have htake : (dt.print f).take keyTextCap = dt.print f :=
      take_of_length_le (le_trans (Nat.le_of_lt (dt.print_length f)) (by decide))
    obtain rfl : ty = .float64 := by cases ty <;> first | rfl | exact Bool.noConfusion hty
    simp [Carries, stashText, htake, textToValue, dt.strtod_print, denoted, serverValue]
  | text t =>
    have hcstr : cstr (cstr (t.take keyTextCap)) = cstr (t.take keyTextCap) :=
      cstr_eq_self_iff.mpr (zero_notMem_cstr _)
    have hread : textToValue dt (some (cstr (t.take keyTextCap))) ty = some (.text (cstr (t.take keyTextCap))) := by
      cases ty <;> first | exact Bool.noConfusion hty | simp [textToValue, hcstr]
    simp [Carries, stashText, hread, denoted, serverValue]

/-- Names that differ only in the case of letters differ on the server too. -/
theorem eq_of_stricmp {a b : List Nat} (hcmp : stricmp a b = true) (hwide : utf8ToWide a = utf8ToWide b) : a = b := by
  have hgen : ∀ (a b pre : List Nat), a.map asciiLower = b.map asciiLower →
      utf8ToWide (pre ++ a) = utf8ToWide (pre ++ b) → a = b := by
    intro a
    induction a with
    | nil => intro b pre h _; simpa using h.symm
    | cons x a ih =>
      intro b pre h hw
      cases b with
      | nil => simp at h
      | cons y b =>
        rw [map_cons, map_cons, cons.injEq] at h
        by_cases hxy : x = y
        · subst hxy
          rw [ih b (pre ++ [x]) h.2 (by simpa using hw)]
        · -- two letters; ASCII stays as it is
          have hletters : x < 0x80 ∧ y < 0x80 := by
            have hlow := h.1
            unfold asciiLower at hlow
            split_ifs at hlow <;> omega
          rw [utf8ToWide_ascii hletters.1, utf8ToWide_ascii hletters.2] at hw
          exact absurd (cons.inj (append_cancel_left hw)).1 hxy
  exact hgen a b [] (by simpa [stricmp] using hcmp) hwide

variable {cols : List VmsMetaColumn} {p : VmsKeyColumn} {j : Nat}

theorem keyPartCol_some (h : keyPartCol cols p = some j) : ∃ c, cols[j]? = some c ∧ stricmp c.name p.name = true := by
  obtain ⟨hj, hcmp, _⟩ := findIdx?_eq_some_iff_getElem.mp h
  exact ⟨_, getElem?_eq_getElem hj, hcmp⟩

/-- The column found in any case is the key column when it has the very name. -/
theorem keyCol_of_exact {c : VmsMetaColumn} (h : keyPartCol cols p = some j)
    (hc : cols[j]? = some c) (hname : c.name = p.name) : keyCol cols p = j := by
  obtain ⟨hj, _, hbefore⟩ := findIdx?_eq_some_iff_getElem.mp h
  refine (findIdx_eq hj).mpr ⟨?_, fun i hi => ?_⟩
  · rw [getElem?_eq_getElem hj] at hc
    simpa [Option.some.inj hc] using hname
  · have hno := hbefore i hi
    rw [decide_eq_false_iff_not]
    intro heq
    rw [heq, stricmp_refl] at hno
    simp at hno

/-- A value of the WHERE clause: the column found in any case, and what the stash has for it. -/
theorem keyValue_some {d : VmsDmlContext} {get : ValueGet} {x : List Nat × VmsValue F} :
    keyValue dt d get p = some x ↔ ∃ j, keyPartCol d.cols p = some j ∧ ∃ c, d.cols[j]? = some c ∧
      ∃ v, textToValue dt (get j) c.vtype = some v ∧ (c.name, v) = x := by
  simp [keyValue, cellValue, Option.bind_eq_some_iff]

/-- The lookup is filled, or was never touched. -/
def Lookup (d : VmsDmlContext) (st : Stash) (filled : Bool) : Prop :=
  st.keyPartCol = if filled then fillParts d fun _ => some 0 else fun _ => some 0

/-- In a filled lookup the column of a part leads to a part of that column. -/
theorem find_filled {d : VmsDmlContext} {st : Stash} (hlook : Lookup d st true)
    (hparts : d.key.parts.length ≤ vmsMetaMaxKeyParts) (hp : p ∈ d.key.parts) (hj : keyPartCol d.cols p = some j) :
    ∃ k q, (range vmsMetaMaxKeyParts).find? (fun k => st.keyPartCol k = some j) = some k ∧
      d.key.parts[k]? = some q ∧ keyPartCol d.cols q = some j := by
  obtain ⟨n, hn⟩ := mem_iff_getElem?.mp hp
  have hlt : n < d.key.parts.length := (List.getElem?_eq_some_iff.mp hn).1
  have hcol : ∀ k, st.keyPartCol k = (d.key.parts[k]?).elim (some 0) (keyPartCol d.cols) := by
    intro k
    rw [hlook, if_pos rfl, fillParts]
    cases d.key.parts[k]? <;> rfl
  have hself : st.keyPartCol n = some j := by rw [hcol, hn]; exact hj
  cases hfind : (range vmsMetaMaxKeyParts).find? (fun k => st.keyPartCol k = some j) with
  | none =>
    have hno := find?_eq_none.mp hfind n (mem_range.mpr (by omega))
    exact absurd (decide_eq_true hself) hno
  | some k =>
    -- the first hit comes no later than the part itself
    obtain ⟨hk, _, hbefore⟩ := find?_range_eq_some.mp hfind
    have hle : k ≤ n := by
      by_contra hlt
      have hno := hbefore n (by omega)
      rw [decide_eq_true hself] at hno
      cases hno
    have hq := getElem?_eq_getElem (show k < d.key.parts.length by omega)
    refine ⟨k, _, rfl, hq, ?_⟩
    have hcolk := hcol k
    rw [hq, of_decide_eq_true hk] at hcolk
    exact hcolk.symm

variable {row : Row F}

/-- A text depends on the part's name only. -/
theorem partText_congr {mask : Nat} {q : VmsKeyColumn} (h : p.name = q.name) :
    partText dt cols mask row p = partText dt cols mask row q := by
  unfold partText
  rw [h]

theorem partText_some_iff (hn : cols.length ≤ maxColMap) {mask : Nat} {t : List Nat} :
    partText dt cols mask row p = some t ↔
      ∃ i, FirstOf cols mask (fun c => stricmp c.name p.name) i ∧ stashText dt (row i) = some t := by
  simp only [partText, Option.bind_eq_some_iff, ← firstMapped_iff hn]
  refine exists_congr fun i => and_congr_right fun hi => ?_
  obtain ⟨c, hc, hmapped, _⟩ := firstMapped_some hi
  rw [cursorValue_eq hn (List.getElem?_eq_some_iff.mp hc).1 hmapped]
  simp

section Core

variable {d : VmsDmlContext} {pos : Position F} {st : Stash} {filled : Bool}
  (hst : Stashed dt d pos st) (hlook : Lookup d st filled) (hparts : d.key.parts.length ≤ vmsMetaMaxKeyParts)
include hst hlook hparts

/-- **What the WHERE clause gets for a key column**: the text of the part, when names are exact, xRowid had
    them all and the lookup leads there. -/
theorem stashGet_some (hnames : NamedExactly d) (hhave : st.keyHave = true)
    (hled : filled = true ∨ ∀ q ∈ d.key.parts, keyPartCol d.cols q = some 0) (hp : p ∈ d.key.parts)
    (hj : keyPartCol d.cols p = some j) :
    updKeyStashGet d.cols.length st j = partText dt d.cols pos.mask pos.row p := by
  obtain ⟨c, hc, _⟩ := keyPartCol_some hj
  have hlt : j < d.cols.length := (List.getElem?_eq_some_iff.mp hc).1
  have hsame : ∀ {k q}, d.key.parts[k]? = some q → keyPartCol d.cols q = some j →
      some (st.keyText k) = partText dt d.cols pos.mask pos.row p := by
    intro k q hq hqj
    have hname : q.name = p.name := (hnames q (mem_of_getElem? hq) j c hqj hc).symm.trans (hnames p hp j c hj hc)
    rw [← partText_congr hname]
    exact (hst.texts hhave k q hq).symm
  unfold updKeyStashGet
  rw [if_pos (by simp [hhave, hlt])]
  cases filled with
  | true =>
    obtain ⟨k, q, hfind, hq, hqj⟩ := find_filled hlook hparts hp hj
    rw [hfind]
    exact hsame hq hqj
  | false =>
    -- every entry is 0, so the first part is taken
    have hall := hled.resolve_left (by simp)
    obtain rfl : j = 0 := Option.some.inj (hj.symm.trans (hall p hp))
    have hfirst := getElem?_eq_getElem (length_pos_of_mem hp)
    have hfind : (range vmsMetaMaxKeyParts).find? (fun k => st.keyPartCol k = some 0) = some 0 := by
      rw [hlook, if_neg (by simp)]
      decide
    rw [hfind]
    exact hsame hfirst (hall _ (mem_of_getElem? hfirst))

omit hst hparts in
/-- It gets nothing when xRowid had not all of them, or when the lookup leads nowhere. -/
theorem stashGet_isSome (h : (updKeyStashGet d.cols.length st j).isSome = true) :
    st.keyHave = true ∧ (filled = true ∨ j = 0) := by
  unfold updKeyStashGet at h
  split_ifs at h with hhave
  · rw [Bool.and_eq_true] at hhave
    refine ⟨hhave.1, ?_⟩
    by_contra hno
    push Not at hno
    have hnone : (range vmsMetaMaxKeyParts).find? (fun k => st.keyPartCol k = some j) = none := by
      refine find?_eq_none.mpr fun k _ => ?_
      rw [hlook, if_neg hno.1]
      simpa using Ne.symm hno.2
    rw [hnone] at h
    cases h
  · cases h

/-- **When the WHERE clause names a row**: names are exact, a context was there at the last xRowid call, the
    lookup leads to the texts, and what they carry is the row's key. -/
theorem keyCells_iff (hn : d.cols.length ≤ maxColMap)
    (hrow : ∀ p ∈ d.key.parts, row (keyCol d.cols p) ≠ .null) {keys : List (List Nat × VmsValue F)}
    (hkeys : d.key.parts.mapM (keyValue dt d (updKeyStashGet d.cols.length st)) = some keys) :
    (keys.map fun c => (utf8ToWide c.1, denoted c.2)) = rowKey d row ↔
      NamedExactly d ∧ pos.known = true ∧ (filled = true ∨ ∀ q ∈ d.key.parts, keyPartCol d.cols q = some 0) ∧
        CarriesKey dt d pos row := by
  -- every part has a column, and the column a value
  have hpart : ∀ p ∈ d.key.parts, ∃ j c, keyPartCol d.cols p = some j ∧ d.cols[j]? = some c := by
    intro p hp
    obtain ⟨x, -, hx⟩ := mapM_each hkeys p hp
    obtain ⟨j, hj, c, hc, _⟩ := keyValue_some.mp hx.symm
    exact ⟨j, c, hj, hc⟩
  have hcell : ∀ p ∈ d.key.parts, ∀ j c, keyPartCol d.cols p = some j → d.cols[j]? = some c →
      ∃ v, textToValue dt (updKeyStashGet d.cols.length st j) c.vtype = some v ∧
        keyValue dt d (updKeyStashGet d.cols.length st) p = some (c.name, v) := by
    intro p hp j c hj hc
    obtain ⟨x, -, hx⟩ := mapM_each hkeys p hp
    obtain ⟨j', hj', c', hc', v, hv, rfl⟩ := keyValue_some.mp hx.symm
    cases hj.symm.trans hj'
    cases hc.symm.trans hc'
    exact ⟨v, hv, hx.symm⟩
  rw [rowKey, mapM_map_iff hkeys]
  constructor
  · intro h
    have hnames : NamedExactly d := by
      intro p hp j c hj hc
      obtain ⟨v, _, hx⟩ := hcell p hp j c hj hc
      obtain ⟨c', hc', hcmp⟩ := keyPartCol_some hj
      cases hc.symm.trans hc'
      exact eq_of_stricmp hcmp (Prod.mk.inj (h p hp _ hx)).1
    -- the row's value is not NULL, so the stash had something for the column
    have hget : ∀ p ∈ d.key.parts, ∀ j c, keyPartCol d.cols p = some j → d.cols[j]? = some c →
        ∃ t v, updKeyStashGet d.cols.length st j = some t ∧ textToValue dt (some t) c.vtype = some v ∧
          denoted v = serverValue (row j) := by
      intro p hp j c hj hc
      obtain ⟨v, hv, hx⟩ := hcell p hp j c hj hc
      have hcol := keyCol_of_exact hj hc (hnames p hp j c hj hc)
      have hvalue := (Prod.mk.inj (h p hp _ hx)).2
      rw [hcol] at hvalue
      cases hg : updKeyStashGet d.cols.length st j with
      | none =>
        rw [hg] at hv
        obtain rfl : .null = v := Option.some.inj hv
        have hnull : row j = .null := by
          revert hvalue
          cases row j <;> simp [denoted, serverValue]
        exact absurd (hcol ▸ hnull) (hrow p hp)
      | some t => exact ⟨t, v, rfl, hg ▸ hv, hvalue⟩
    have hled : ∀ p ∈ d.key.parts, st.keyHave = true ∧ (filled = true ∨ keyPartCol d.cols p = some 0) := by
      intro p hp
      obtain ⟨j, c, hj, hc⟩ := hpart p hp
      obtain ⟨t, v, hg, _⟩ := hget p hp j c hj hc
      obtain ⟨hhave, hj0⟩ := stashGet_isSome hlook (by rw [hg]; rfl)
      exact ⟨hhave, hj0.imp_right fun h0 : j = 0 => h0 ▸ hj⟩
    obtain ⟨p₀, hp₀⟩ := exists_mem_of_ne_nil _ d.key_ne
    have hhave := (hled p₀ hp₀).1
    have hled' : filled = true ∨ ∀ q ∈ d.key.parts, keyPartCol d.cols q = some 0 := by
      by_cases hf : filled = true
      · exact .inl hf
      · exact .inr fun q hq => (hled q hq).2.resolve_left hf
    refine ⟨hnames, (hst.have_iff.mp hhave).1, hled', fun p hp j c hj hc => ?_⟩
    obtain ⟨t, v, hg, hv, hvalue⟩ := hget p hp j c hj hc
    rw [stashGet_some hst hlook hparts hnames hhave hled' hp hj] at hg
    obtain ⟨i, hi, ht⟩ := (partText_some_iff hn).mp hg
    exact ⟨i, hi, t, v, ht, hv, hvalue⟩
  · rintro ⟨hnames, hknown, hled, hcarries⟩ p hp x hx
    have hhave : st.keyHave = true := by
      refine hst.have_iff.mpr ⟨hknown, fun q hq => ?_⟩
      obtain ⟨j, c, hj, hc⟩ := hpart q hq
      obtain ⟨i, hi, t, _, ht, _⟩ := hcarries q hq j c hj hc
      rw [(partText_some_iff hn).mpr ⟨i, hi, ht⟩]
      rfl
    obtain ⟨j, hj, c, hc, v, hv, rfl⟩ := keyValue_some.mp hx
    obtain ⟨i, hi, t, v', ht, hv', hvalue⟩ := hcarries p hp j c hj hc
    rw [stashGet_some hst hlook hparts hnames hhave hled hp hj, (partText_some_iff hn).mpr ⟨i, hi, ht⟩, hv'] at hv
    cases hv
    have hname := hnames p hp j c hj hc
    rw [keyCol_of_exact hj hc hname, ← hvalue, hname]

end Core

end Keys

/-! ## What a run keeps -/

section Tables

variable {T W : Type}

/-- **The calls of a transaction** do not touch the tables. -/
theorem TxnCall.run_tabs (e : VmsVtabEnv T W) (c : TxnCall) : (c.run e).tabs = e.tabs := by
  cases c with
  | begin_ a => rw [TxnCall.run, vmsVtabBegin_env, txnPinShared_tabs]
  | sync r =>
    rcases h : vmsVtabSync r e with ⟨rc, e'⟩
    rcases vmsVtabSync_cases h with rfl | ⟨_, rfl⟩ <;> rw [TxnCall.run, h]
  | commit r =>
    rw [TxnCall.run]
    cases hcn : e.txnCn with
    | none => rw [vmsVtabCommit, hcn]
    | some cn => rw [vmsVtabCommit_env hcn, txnUnpin_tabs, txnFinalize_tabs]
  | rollback r =>
    rw [TxnCall.run]
    cases hcn : e.txnCn with
    | none => rw [vmsVtabRollback, hcn]
    | some cn => rw [vmsVtabRollback_env hcn, txnUnpin_tabs, txnFinalize_tabs]
  | savepoint n r =>
    rw [TxnCall.run, vmsVtabSavepoint]
    have hpin := txnPinShared_tabs r.opened e
    split <;> rename_i e₁ hp <;> rw [hp] at hpin
    · exact hpin
    have hbegin := txnBeginLazy_tabs r.ctx e₁
    split <;> rename_i e₂ hb <;> rw [hb] at hbegin
    · exact hbegin.trans hpin
    have hsave := send_tabs e₂ r.save (Savepoint.Server.save (svName n))
    split <;> rename_i hs <;> rw [← txnSave, hs] at hsave <;> exact hsave.trans (hbegin.trans hpin)
  | release => rfl
  | rollbackTo n r =>
    rw [TxnCall.run, vmsVtabRollbackTo]
    have hback := send_tabs e r (Savepoint.Server.rollbackTo (svName n))
    split
    · rfl
    · split <;> rename_i hs <;> rw [← txnRollbackTo, hs] at hback <;> exact hback

end Tables

section Reach

variable {T F : Type} [DecidableEq T] {dt : DoubleText F} {d : T → VmsDmlContext}

/-- **In every state that is reached** the lookup of a table is filled exactly when it has a context with
    its own connection, and its texts are those of its last xRowid call. -/
structure Inv (dt : DoubleText F) (d : T → VmsDmlContext) (h : Hist T F) : Prop where
  lookup : ∀ t, Lookup (d t) (h.state.stash t) (h.state.env.tabs t).dml
  last : ∀ t pos rest, h.positions t = pos :: rest → Stashed dt (d t) pos (h.state.stash t)

omit [DecidableEq T] in
theorem inv_start (rw : T → Bool) : Inv dt d (start F rw) := ⟨fun _ => rfl, fun _ _ _ h => by simp [start] at h⟩

/-- The texts do not depend on the lookup. -/
theorem Stashed.congr {d : VmsDmlContext} {pos : Position F} {st st' : Stash} (h : Stashed dt d pos st)
    (htext : st'.keyText = st.keyText) (hhave : st'.keyHave = st.keyHave) : Stashed dt d pos st' :=
  ⟨by rw [hhave]; exact h.have_iff, by rw [hhave, htext]; exact h.texts⟩

/-- A context keeps the texts, and fills the lookup when it is made. -/
theorem dmlCtx_stash (t : T) (r : CtxReply) (s : State T) :
    (∀ u, ((s.dmlCtx d t r).2.stash u).keyText = (s.stash u).keyText ∧
      ((s.dmlCtx d t r).2.stash u).keyHave = (s.stash u).keyHave) ∧
    ((∀ u, Lookup (d u) (s.stash u) (s.env.tabs u).dml) →
      ∀ u, Lookup (d u) ((s.dmlCtx d t r).2.stash u) ((s.dmlCtx d t r).2.env.tabs u).dml) := by
  obtain ⟨hothers, hkept, _, _⟩ := vtabDmlCtx_tabs t r s.env
  unfold State.dmlCtx
  refine ⟨fun u => ?_, fun hlook u => ?_⟩
  · by_cases hu : u = t
    · subst hu
      dsimp only
      split_ifs <;> simp
    · dsimp only
      split_ifs <;> simp [update_of_ne hu]
  have hbefore := hlook u
  by_cases hu : u = t
  · subst hu
    dsimp only
    split_ifs with hmade
    · rw [Bool.and_eq_true, Bool.not_eq_true'] at hmade
      rw [Lookup, hmade.1, if_neg (by simp)] at hbefore
      rw [Lookup, update_self, hmade.2, if_pos rfl, hbefore]
    · have hsame : ((vtabDmlCtx u r s.env).2.tabs u).dml = (s.env.tabs u).dml := by
        cases hdml : (s.env.tabs u).dml with
        | true => exact hkept hdml
        | false => simpa [hdml] using hmade
      rwa [hsame]
  · dsimp only
    rw [hothers u hu]
    split_ifs
    · rwa [update_of_ne hu]
    · exact hbefore

variable {h : Hist T F}

theorem Inv.dmlCtx (hinv : Inv dt d h) (t : T) (r : CtxReply) :
    Inv dt d { h with state := (h.state.dmlCtx d t r).2 } := by
  obtain ⟨htexts, hlook⟩ := dmlCtx_stash (d := d) t r h.state
  exact ⟨hlook hinv.lookup, fun u pos rest hpos => (hinv.last u pos rest hpos).congr (htexts u).1 (htexts u).2⟩

theorem Inv.rowid (hinv : Inv dt d h) (t : T) (mask : Nat) (counter : Int) (row : Row F) :
    Inv dt d (step dt d h (.rowid t mask counter row)) := by
  refine ⟨fun u => ?_, fun u pos rest hpos => ?_⟩
  · have hbefore := hinv.lookup u
    by_cases hu : u = t
    · subst hu
      simp only [step, State.rowid, update_self]
      split_ifs <;> exact hbefore
    · simpa only [step, State.rowid, update_of_ne hu] using hbefore
  · by_cases hu : u = t
    · subst hu
      simp only [step, update_self, cons.injEq] at hpos
      obtain ⟨rfl, -⟩ := hpos
      simp only [step, State.rowid, update_self]
      split_ifs with hknown
      · obtain ⟨hall, _, htexts⟩ := stashKeys_spec dt (d u).cols mask row (d u).key.parts 0 (h.state.stash u).keyText
        refine ⟨?_, fun hhave k p hp => ?_⟩
        · simp [hall, hknown]
        · have htext := htexts hhave k p hp
          rwa [Nat.zero_add] at htext
      · exact ⟨by simp [hknown], by simp⟩
    · simp only [step, update_of_ne hu] at hpos
      simpa only [step, State.rowid, update_of_ne hu] using hinv.last u pos rest hpos

/-- After xUpdate the tables and the stash are as its search for a context left them. -/
theorem update_state (dt : DoubleText F) (d : T → VmsDmlContext) (t : T) (c : Change) (r : UpdateReply) (s : State T) :
    (s.update dt d t c r).state = s ∨ ((s.update dt d t c r).state.stash = (s.dmlCtx d t r.ctx).2.stash ∧
        (s.update dt d t c r).state.env.tabs = (s.dmlCtx d t r.ctx).2.env.tabs) := by
  unfold State.update
  by_cases hmode : (!(s.env.tabs t).rwMode || (s.env.tabs t).isQuerySource) = true
  · rw [if_pos hmode]
    exact .inl rfl
  · rw [if_neg hmode]
    rw [Bool.or_eq_true, not_or, Bool.not_eq_true', Bool.not_eq_false, Bool.not_eq_true] at hmode
    exact .inr ⟨rfl, vmsVtabUpdate_tabs t _ _ hmode.1 hmode.2⟩

/-- **A step keeps the invariant.** -/
theorem Inv.step (hinv : Inv dt d h) (c : Call T F) : Inv dt d (step dt d h c) := by
  cases c with
  | bestIndex t r =>
    simp only [Update.step, State.bestIndex]
    split_ifs
    · exact hinv
    · exact hinv.dmlCtx t r
  | rowid t mask counter row => exact hinv.rowid t mask counter row
  | update t c r =>
    rcases update_state dt d t c r h.state with hsame | ⟨hstash, htabs⟩
    · rw [Update.step, hsame]
      exact hinv
    · have hctx := hinv.dmlCtx t r.ctx
      refine ⟨fun u => ?_, fun u pos rest hpos => ?_⟩
      · rw [Update.step, hstash, htabs]
        exact hctx.lookup u
      · rw [Update.step, hstash]
        exact hctx.last u pos rest hpos
  | txn c =>
    refine ⟨fun u => ?_, hinv.last⟩
    have hlook := hinv.lookup u
    rwa [← TxnCall.run_tabs h.state.env c] at hlook

theorem inv_run (rw : T → Bool) (calls : List (Call T F)) : Inv dt d (run (Update.step dt d) (start F rw) calls) :=
  run_keeps (fun _ c h => h.step c) calls (inv_start rw)

/-! ## The row that is named -/

/-- The lookup will lead to the texts: the table has a context with its own connection, or will get one, or
    all the key is in the first column. -/
def LookedUp (d : VmsDmlContext) (s : State T) (t : T) : Prop :=
  (s.env.tabs t).dml = true ∨ s.env.txnCn = none ∨ ∀ p ∈ d.key.parts, keyPartCol d.cols p = some 0

/-- **xUpdate sends a statement that names the row.** -/
def SentNames (dt : DoubleText F) (d : T → VmsDmlContext) (t : T) (c : Change) (r : UpdateReply) (s : State T)
    (row : Row F) : Prop :=
  ∃ stmt, intended dt (d t) (c.request (d t).cols.length ((s.dmlCtx d t r.ctx).2.stash t)) = some stmt ∧
    (s.update dt d t c r).sent = some (stmt.render (valueText dt)) ∧ Names (d t) stmt row

variable {t : T} {c : Change} {r : UpdateReply}

theorem update_sent {s : State T} {sql : List Nat} (h : (s.update dt d t c r).sent = some sql) :
    (s.dmlCtx d t r.ctx).1.isSome = true ∧
      vmsDml dt (d t) (c.request (d t).cols.length ((s.dmlCtx d t r.ctx).2.stash t)) = .ok sql := by
  unfold State.update at h
  split_ifs at h with hmode
  simp only at h
  split_ifs at h with hroute
  refine ⟨hroute, ?_⟩
  revert h
  cases vmsDml dt (d t) (c.request (d t).cols.length ((s.dmlCtx d t r.ctx).2.stash t)) <;> simp [Except.toOption]

/-- The WHERE clause of a DELETE or an UPDATE has a value from the stash for every key part. -/
theorem intended_keyCells {d : VmsDmlContext} (hc : ∀ get, c ≠ .insert get) {n : Nat} {st : Stash}
    {stmt : Dml (VmsValue F)} (h : intended dt d (c.request n st) = some stmt) :
    ∃ keys, d.key.parts.mapM (keyValue dt d (updKeyStashGet n st)) = some keys ∧
      stmt.keyCells = keys.map serverCell := by
  cases c with
  | delete =>
    obtain ⟨keys, hkeys, rfl⟩ := Option.map_eq_some_iff.mp h
    exact ⟨keys, hkeys, rfl⟩
  | insert get => exact absurd rfl (hc get)
  | update get =>
    obtain ⟨sets, _, h⟩ := Option.bind_eq_some_iff.mp h
    obtain ⟨keys, hkeys, rfl⟩ := Option.map_eq_some_iff.mp h
    exact ⟨keys, hkeys, rfl⟩

/-- The lookup after the search for a context. -/
theorem dmlCtx_dml_iff {r : CtxReply} {s : State T} (hroute : (s.dmlCtx d t r).1.isSome = true) :
    ((s.dmlCtx d t r).2.env.tabs t).dml = true ↔ (s.env.tabs t).dml = true ∨ s.env.txnCn = none := by
  obtain ⟨_, hkept, hpinned, hmade⟩ := vtabDmlCtx_tabs t r s.env
  show ((vtabDmlCtx t r s.env).2.tabs t).dml = true ↔ _
  cases hcn : s.env.txnCn with
  | none => simp [hmade hcn hroute]
  | some cn => simp [hpinned (by rw [hcn]; rfl)]

/-- **The row that is named**, in a state that is reached. -/
theorem sentNames_iff (hinv : Inv dt d h) {last : Position F}
    {rest : List (Position F)} (hpos : h.positions t = last :: rest)
    (hparts : (d t).key.parts.length ≤ vmsMetaMaxKeyParts) (hn : (d t).cols.length ≤ maxColMap)
    {row : Row F} (hrow : ∀ p ∈ (d t).key.parts, row (keyCol (d t).cols p) ≠ .null)
    (hc : ∀ get, c ≠ .insert get) (hsent : (h.state.update dt d t c r).sent.isSome = true) :
    SentNames dt d t c r h.state row ↔
      NamedExactly (d t) ∧ last.known = true ∧ LookedUp (d t) h.state t ∧ CarriesKey dt (d t) last row := by
  obtain ⟨sql, hsql⟩ := Option.isSome_iff_exists.mp hsent
  obtain ⟨hroute, hdml⟩ := update_sent hsql
  obtain ⟨stmt, hstmt, rfl, _⟩ := vmsDml_text hdml
  obtain ⟨keys, hkeys, hcells⟩ := intended_keyCells hc hstmt
  have hctx := hinv.dmlCtx t r.ctx
  have hiff := keyCells_iff (hctx.last t last rest hpos) (hctx.lookup t) hparts hn hrow hkeys
  have hnames : Names (d t) stmt row ↔ (keys.map fun c => (utf8ToWide c.1, denoted c.2)) = rowKey (d t) row := by
    rw [Names, hcells, map_map]
    rfl
  have hsent' : SentNames dt d t c r h.state row ↔ Names (d t) stmt row := by
    constructor
    · rintro ⟨stmt', hstmt', _, hnamed⟩
      rwa [Option.some.inj (hstmt.symm.trans hstmt')]
    · exact fun hnamed => ⟨stmt, hstmt, hsql, hnamed⟩
  rw [hsent', hnames, hiff, dmlCtx_dml_iff hroute, LookedUp, or_assoc]

/-- **The row an update names**, after any calls: it is the given one, whichever row the rowid stood for,
    exactly when names are exact, a context was there at the LAST xRowid call of the table, the lookup leads
    to the texts, and what that call left carries the row's key. -/
theorem update_names_iff (rw : T → Bool) (calls : List (Call T F))
    (hparts : (d t).key.parts.length ≤ vmsMetaMaxKeyParts) (hn : (d t).cols.length ≤ maxColMap)
    {last : Position F} {rest : List (Position F)}
    (hpos : (run (Update.step dt d) (start F rw) calls).positions t = last :: rest) {row : Row F}
    (hrow : ∀ p ∈ (d t).key.parts, row (keyCol (d t).cols p) ≠ .null) (hc : ∀ get, c ≠ .insert get)
    (hsent : ((run (Update.step dt d) (start F rw) calls).state.update dt d t c r).sent.isSome = true) :
    SentNames dt d t c r (run (Update.step dt d) (start F rw) calls).state row ↔
      NamedExactly (d t) ∧ last.known = true ∧
        LookedUp (d t) (run (Update.step dt d) (start F rw) calls).state t ∧ CarriesKey dt (d t) last row :=
  sentNames_iff (inv_run rw calls) hpos hparts hn hrow hc hsent

end Reach

/-- A note under its number. -/
def noteRow (n : Int) : Row Bool := fun j => if j = 0 then .int (I64.clamp n) else .text (wide "x")

/-- The calls of a DELETE that collects two rows first; `0xFFFFFFFF` is the mask of all columns. -/
def twoRows : List (Call Unit Bool) :=
  [.bestIndex () {}, .rowid () 0xFFFFFFFF 1 (noteRow 1), .rowid () 0xFFFFFFFF 2 (noteRow 2)]

theorem namedExactly_notes : NamedExactly notes := by
  intro p hp j c hj hc
  obtain rfl := mem_singleton.mp hp
  obtain rfl : 0 = j := Option.some.inj hj
  cases hc
  rfl

/-- A number fits the stash. -/
theorem carriesKey_notes (n : Int) (known : Bool) :
    CarriesKey twoDoubles notes ⟨0xFFFFFFFF, noteRow n, known⟩ (noteRow n) := by
  intro p hp j c hj hc
  obtain rfl := mem_singleton.mp hp
  obtain rfl : 0 = j := Option.some.inj hj
  cases hc
  have hfirst : FirstOf notes.cols 0xFFFFFFFF (fun c => stricmp c.name (wide "id")) 0 :=
    (firstMapped_iff (by decide)).mp (by decide)
  exact ⟨0, hfirst, (carries_self_iff rfl).mpr trivial⟩

/-- The second of the two rows is deleted as it should be. -/
theorem update_names_second :
    SentNames twoDoubles (fun _ => notes) () .delete {}
      (run (step twoDoubles fun _ => notes) (start Bool fun _ => true) twoRows).state (noteRow 2) := by
  exact (update_names_iff (fun _ => true) twoRows (by decide) (by decide) rfl (by decide) (by simp)
    (by decide +kernel)).mpr ⟨namedExactly_notes, rfl, .inl rfl, carriesKey_notes 2 true⟩

/-- **The first of the two rows**: its DELETE names the second, and is OK. -/
theorem delete_names_other :
    (run (step twoDoubles fun _ => notes) (start Bool fun _ => true) twoRows).positions () =
        [⟨0xFFFFFFFF, noteRow 2, true⟩, ⟨0xFFFFFFFF, noteRow 1, true⟩] ∧
      rowKey notes (noteRow 1) = [(wide "id", .int (I64.clamp 1))] ∧
      ((run (step twoDoubles fun _ => notes) (start Bool fun _ => true) twoRows).state.update twoDoubles
        (fun _ => notes) () .delete {}).sent = some (wide "DELETE FROM [dbo].[notes] WHERE [id] = 2") ∧
      ((run (step twoDoubles fun _ => notes) (start Bool fun _ => true) twoRows).state.update twoDoubles
        (fun _ => notes) () .delete {}).rc = .ok := by
  refine ⟨rfl, by decide +kernel, by decide +kernel, by decide +kernel⟩

section Direct

variable {T F : Type} [DecidableEq T] {dt : DoubleText F} {d : T → VmsDmlContext}

/-- **The key of the row directly before**: it is in the WHERE clause exactly when names are exact, a
    context was there at the xRowid call, the lookup leads to the texts, and the columns of the result carry
    the key. -/
theorem key_exact_iff (rw : T → Bool) (calls : List (Call T F)) {t : T}
    (hparts : (d t).key.parts.length ≤ vmsMetaMaxKeyParts) (hn : (d t).cols.length ≤ maxColMap)
    {s : State T} (hs : s = (run (Update.step dt d) (start F rw) calls).state)
    {mask : Nat} {counter : Int} {row : Row F} (hrow : ∀ p ∈ (d t).key.parts, row (keyCol (d t).cols p) ≠ .null)
    {c : Change} (hc : ∀ get, c ≠ .insert get) {r : UpdateReply}
    (hsent : ((s.rowid dt d t mask counter row).2.update dt d t c r).sent.isSome = true) :
    SentNames dt d t c r (s.rowid dt d t mask counter row).2 row ↔
      NamedExactly (d t) ∧ s.known t = true ∧ LookedUp (d t) s t ∧ CarriesKey dt (d t) ⟨mask, row, s.known t⟩ row := by
  subst hs
  have hinv : Inv dt d (run (Update.step dt d) (start F rw) calls) := inv_run rw calls
  revert hsent
  generalize run (Update.step dt d) (start F rw) calls = h at hinv
  intro hsent
  have hpos : (Update.step dt d h (.rowid t mask counter row)).positions t =
      ⟨mask, row, h.state.known t⟩ :: h.positions t := by simp [Update.step]
  exact sentNames_iff (hinv.step _) hpos hparts hn hrow hc hsent

end Direct

/-- A row of the table of pairs. -/
def pairRow (n id : Int) : Row Bool := fun j => .int (I64.clamp (if j = 0 then n else id))

/-- The table of pairs: its key is its second column. -/
def pairs : VmsDmlContext :=
  { notes with
    table := wide "pairs"
    cols := Rowid.pairTab.cols
    key := Rowid.idKey
    table_ident := by decide
    key_ne := by decide }

theorem key_exact_note :
    SentNames twoDoubles (fun _ => notes) () .delete {}
      ((run (step twoDoubles fun _ => notes) (start Bool fun _ => true) [.bestIndex () {}]).state.rowid twoDoubles
        (fun _ => notes) () 0xFFFFFFFF 1 (noteRow 7)).2 (noteRow 7) := by
  exact (key_exact_iff (fun _ => true) [.bestIndex () {}] (by decide) (by decide) rfl (by decide) (by simp)
    (by decide +kernel)).mpr ⟨namedExactly_notes, rfl, .inl rfl, carriesKey_notes 7 true⟩

/-- **The first use inside a transaction**: the lookup is empty, the key is not in the first column, and a
    DELETE that names no row is sent and is OK. -/
theorem delete_names_null :
    (((run (step twoDoubles fun _ => pairs) (start Bool fun _ => true)
        [.txn (.begin_ (some 1)), .bestIndex () {}]).state.rowid twoDoubles (fun _ => pairs) () 0xFFFFFFFF 1
          (pairRow 5 7)).2.update twoDoubles (fun _ => pairs) () .delete {}).sent =
        some (wide "DELETE FROM [dbo].[pairs] WHERE [id] = NULL") ∧
      (((run (step twoDoubles fun _ => pairs) (start Bool fun _ => true)
        [.txn (.begin_ (some 1)), .bestIndex () {}]).state.rowid twoDoubles (fun _ => pairs) () 0xFFFFFFFF 1
          (pairRow 5 7)).2.update twoDoubles (fun _ => pairs) () .delete {}).rc = .ok ∧
      rowKey pairs (pairRow 5 7) = [(wide "id", .int (I64.clamp 7))] :=
  ⟨by decide +kernel, by decide +kernel, by decide +kernel⟩

/-! ## Another client -/

/-- A row on the server: its values by column, and its rowversion. -/
structure SrvRow (F : Type) where
  values : List (List Nat × VmsValue F)
  version : Nat
  deriving DecidableEq

section Server

variable {F : Type} [DecidableEq F]

def SrvRow.value (r : SrvRow F) (name : List Nat) : Option (VmsValue F) :=
  (r.values.find? (·.1 = name)).map Prod.snd

/-- The WHERE clause holds of the row; NULL equals nothing. -/
def SrvRow.meets (keys : List (List Nat × VmsValue F)) (r : SrvRow F) : Bool :=
  keys.all fun c => c.2 ≠ .null && r.value c.1 = some (denoted c.2)

variable {dt : DoubleText F}

/-- The row with the assignments, each converted to its column, and a new rowversion. -/
def SrvRow.assign (st : Storing dt) (sets : List (List Nat × VmsValue F)) (next : Nat) (r : SrvRow F) : SrvRow F where
  values := r.values.map fun c => (c.1, ((sets.find? (·.1 = c.1)).map fun s => st.store c.1 (denoted s.2)).getD c.2)
  version := next

/-- **What a statement does to the rows**, in one piece. -/
def execRows (st : Storing dt) (next : Nat) (rows : List (SrvRow F)) : Dml (VmsValue F) → List (SrvRow F)
  | .insert _ _ row => rows ++ [⟨row.map fun c => (c.1, st.store c.1 (denoted c.2)), next⟩]
  | .update _ _ sets keys => rows.map fun r => if r.meets keys then r.assign st sets next else r
  | .delete _ _ keys => rows.filter fun r => !r.meets keys

/-- The row that was scanned has been changed or deleted since. -/
def Stale (d : VmsDmlContext) (scanned : SrvRow F) (rows : List (SrvRow F)) : Prop :=
  ¬ ∃ r ∈ rows, r.version = scanned.version ∧
    ∀ p ∈ d.key.parts, r.value (utf8ToWide p.name) = scanned.value (utf8ToWide p.name)

instance (d : VmsDmlContext) (scanned : SrvRow F) (rows : List (SrvRow F)) : Decidable (Stale d scanned rows) :=
  inferInstanceAs (Decidable (¬ _))

variable {T : Type} [DecidableEq T] (st : Storing dt) (d : T → VmsDmlContext)

/-- The server executes the statement: the connection is good for it, and nothing fails. -/
def executes (r : UpdateReply) (s : State T) : Bool := r.exec = .ok && !s.env.txnCn.any (·.quarantined)

/-- The rows after xUpdate. -/
def rowsAfter (t : T) (c : Change) (r : UpdateReply) (s : State T) (next : Nat) (rows : List (SrvRow F)) :
    List (SrvRow F) :=
  match intended dt (d t) (c.request (d t).cols.length ((s.dmlCtx d t r.ctx).2.stash t)) with
  | some stmt =>
    if (s.update dt d t c r).sent.isSome && executes r s then execRows st next rows stmt else rows
  | none => rows

/-- **No update is lost silently**: on a stale row nothing changes, and xUpdate does not say OK. -/
def Guarded (t : T) (c : Change) (r : UpdateReply) (s : State T) (scanned : SrvRow F) (next : Nat)
    (rows : List (SrvRow F)) : Prop :=
  Stale (d t) scanned rows →
    rowsAfter st d t c r s next rows = rows ∧ (s.update dt d t c r).rc ≠ .ok

variable {d} {t : T} {c : Change} {r : UpdateReply} {s : State T}

omit [DecidableEq F] in
/-- xUpdate is OK exactly when a statement is sent and executed, whatever it did. -/
theorem rc_ok_iff : (s.update dt d t c r).rc = .ok ↔
    (s.update dt d t c r).sent.isSome = true ∧ executes r s = true := by
  unfold State.update
  split_ifs with hmode
  · simp
  rw [Bool.or_eq_true, not_or, Bool.not_eq_true', Bool.not_eq_false, Bool.not_eq_true] at hmode
  refine (vmsVtabUpdate_ok_iff hmode.1 hmode.2).trans (and_congr ?_ (by simp [executes]))
  change (s.dmlCtx d t r.ctx).1.isSome = true ∧ _ ↔ _
  by_cases hroute : (s.dmlCtx d t r.ctx).1.isSome = true <;> simp [hroute]

/-- **When no update is lost silently**: the row is not stale, or the server does not execute the
    statement. -/
theorem lost_update_iff (hsent : (s.update dt d t c r).sent.isSome = true) (scanned : SrvRow F)
    (next : Nat) (rows : List (SrvRow F)) :
    Guarded st d t c r s scanned next rows ↔
      ¬ Stale (d t) scanned rows ∨ r.exec ≠ .ok ∨ s.env.txnCn.any (·.quarantined) = true := by
  have hexec : executes r s = false ↔ r.exec ≠ .ok ∨ s.env.txnCn.any (·.quarantined) = true := by
    rw [executes]
    cases s.env.txnCn.any (·.quarantined) <;> simp
  rw [← hexec, Guarded]
  constructor
  · intro h
    by_cases hstale : Stale (d t) scanned rows
    · exact .inr (Bool.eq_false_iff.mpr fun hran => (h hstale).2 (rc_ok_iff.mpr ⟨hsent, hran⟩))
    · exact .inl hstale
  · rintro (hfresh | hfailed) hstale
    · exact absurd hstale hfresh
    · refine ⟨?_, fun hok => Bool.eq_false_iff.mp hfailed (rc_ok_iff.mp hok).2⟩
      unfold rowsAfter
      rw [hfailed]
      split <;> simp

end Server

/-- The note 7, as it was scanned. -/
def scannedNote : SrvRow Bool := ⟨[(wide "id", .int (I64.clamp 7)), (wide "note", .text (wide "x"))], 1⟩

/-- It was scanned for a DELETE. -/
def deleting : State Unit :=
  ((run (step twoDoubles fun _ => notes) (start Bool fun _ => true) [.bestIndex () {}]).state.rowid twoDoubles
    (fun _ => notes) () 0xFFFFFFFF 1 (noteRow 7)).2

/-- Nobody touched the row. -/
theorem lost_update_fresh :
    Guarded (.plain twoDoubles) (fun _ => notes) () .delete {} deleting scannedNote 2 [scannedNote] :=
  (lost_update_iff _ (by decide +kernel) scannedNote 2 [scannedNote]).mpr (.inl (by decide))

/-- **Another client has changed the note**: it is deleted all the same. -/
theorem delete_overwrites_change :
    Stale notes scannedNote [scannedNote.assign (.plain twoDoubles) [(wide "note", .text (wide "y"))] 2] ∧
      rowsAfter (.plain twoDoubles) (fun _ => notes) () .delete {} deleting 3
        [scannedNote.assign (.plain twoDoubles) [(wide "note", .text (wide "y"))] 2] = [] ∧
      (deleting.update twoDoubles (fun _ => notes) () .delete {}).rc = .ok :=
  ⟨by decide, by decide +kernel, by decide +kernel⟩

end VirtualMssql.Update
