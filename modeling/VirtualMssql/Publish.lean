/-
  PUBLISHING — which snapshots readers get to see.

  `Publishes … rows` says, of the inputs alone, that a build in which no call fails ends PUBLISHED with the
  rows `rows`: the statements fit their buffers, the database makes a table of the right width of the DDL,
  the result is within the row limit, and the table filled with the bound rows holds `rows`.  It is exact:
  whatever is published is such a snapshot (`published_rows`), and the run without a fault publishes it
  (`publishes_of_ok`).  Two questions about published snapshots are then questions about `Publishes`.

  Are they the RESULT?  If and only if filling keeps the rows (`snapshot_exact`).  It does when no column
  name has a double quote in it and no value is longer than an `int` can say.  Names are written into the
  DDL as they are, so a name with a quote can add a constraint to its column, and lose rows.

  Were they ALLOWED?  The flag of `vms_mat_cancel` is read after a row was fetched and before it is bound,
  and nowhere else: a cancel is heeded if the builder still has a row to look at, and lost otherwise.  The
  limit on bytes is read nowhere (`gate_iff`).
-/
import VirtualMssql.Mat

namespace VirtualMssql.Publish

open SqliteTable Run Mat List
open TSql (wide)
open DmlSql (VmsValue)

variable {F : Type}

section Runs

variable (e : Sqlite F) (src : VmsQuerySource) (result : List (Row F))

/-- `vms_mat_build` on a materializer, after these events. -/
def after (m : VmsMat F) (es : List Event) : Build F := run (step e src result) { mat := m } es

/-- **What a build publishes when no call fails.** -/
structure Publishes (maxRows : Int) (rows : List (Row F)) : Prop where
  within : (result.length : Int) ≤ maxRows
  table : ∃ text t, Ready e src text t ∧ filled e src t result = some rows ∧
    ∀ x ∈ indexTexts src.cols, e.index text x = true

variable {e src result} {mode : VmsMatMode} {maxRows maxBytes : Int} {m : VmsMat F}

/-! ## Published snapshots -/

theorem stage_start (hm : vmsMatCreate mode maxRows maxBytes = some m) : Stage e src result { mat := m } := by
  obtain ⟨hmode, hm⟩ := Option.ite_none_left_eq_some.mp hm
  cases hm
  refine ⟨rfl, hmode, ?_, rfl, rfl⟩
  show (0 : Int) < if 0 < maxRows then maxRows else 10000000
  split_ifs <;> omega

theorem cancelled_start (hm : vmsMatCreate mode maxRows maxBytes = some m) : m.cancelled = false := by
  obtain ⟨-, hm⟩ := Option.ite_none_left_eq_some.mp hm
  rw [← Option.some.inj hm]

variable {s : Build F}

/-- **Soundness**: a published snapshot holds, committed, what a build without a fault publishes. -/
theorem published_rows (hs : Stage e src result s) (h : s.mat.state = .published) :
    ∃ rows t, Publishes e src result s.mat.maxRows rows ∧
      s.mat.db = some { table := some t, rows, saved := rows, inTxn := false } := by
  rcases state_of_stage hs with ⟨hb, -⟩ | ⟨-, hpc⟩ | ⟨hf, -⟩
  · rw [hb] at h; cases h
  · rw [Stage, hpc] at hs
    obtain ⟨-, text, t, ⟨hready, hwithin, rows, hdb, hrows⟩, hindex⟩ := hs
    exact ⟨rows, t, ⟨hwithin, text, t, hready, hrows, hindex⟩, hdb⟩
  · rw [hf] at h; cases h

theorem Created.unique {text text' : List Nat} {t t' : Table (VmsValue F)} (h : Created e src text t)
    (h' : Created e src text' t') : text = text' ∧ t = t' := by
  have htext : text = text' := Option.some.inj (h.ddl.symm.trans h'.ddl)
  subst htext
  exact ⟨rfl, Option.some.inj (h.create.symm.trans h'.create)⟩

/-- The builder has not failed. -/
def Unfailed (s : Build F) : Prop := ∀ message, s.pc ≠ .returned (some message)

theorem unfailed_exec {message : List Nat} {f : Db F → Option (Db F)} {next : Pc F} {db : Db F}
    (hdb : s.mat.db = some db) (hf : ∃ db', f db = some db')
    (hnext : ∀ m, next ≠ .returned (some m)) : Unfailed (exec s .ok message f next) := by
  obtain ⟨db', hf⟩ := hf
  rw [exec_ok hdb hf]
  exact hnext

/-- A call that succeeds does not stop a build that can publish. -/
theorem unfailed_builder {rows : List (Row F)} (hs : Stage e src result s)
    (hpub : Publishes e src result s.mat.maxRows rows) (hcancel : s.mat.cancelled = false)
    (hok : Unfailed s) : Unfailed (builder e src result s .ok) := by
  obtain ⟨hwithin, text₀, t₀, hready₀, hfill₀, hindex₀⟩ := hpub
  have hcreated₀ := hready₀.toCreated
  have hsucceeds : Event.ok.succeeds = true := rfl
  have hout : ∀ {p : Pc F}, (∀ r, p ≠ .returned r) → ∀ m, p ≠ .returned (some m) := fun hp m => hp (some m)
  rw [Stage] at hs
  rw [builder]
  split <;> rename_i hpc <;> rw [hpc] at hs
  · rw [if_neg (by simp [hs.1, hs.2.1]), if_pos hsucceeds]
    exact hout (by simp)
  · simp only [hcreated₀.ddl]
    exact unfailed_exec hs.2 ⟨_, by rw [Db.create, hcreated₀.create]; rfl⟩ (hout (by simp))
  · obtain ⟨-, text, t, -, hdb⟩ := hs
    exact unfailed_exec hdb ⟨_, rfl⟩ (hout (by simp))
  · obtain ⟨-, text, t, hcreated, hdb⟩ := hs
    obtain ⟨sql, hsql⟩ := hready₀.insert
    obtain ⟨-, rfl⟩ := Created.unique hcreated hcreated₀
    simp only [hsql]
    exact unfailed_exec hdb ⟨_, by rw [Db.prepare, Option.bind_some, if_pos hready₀.width]⟩ (hout (by simp))
  · rw [if_neg (by have := hready₀.query; omega)]
    exact hout (by simp)
  · exact hout (p := .fetch result) (by simp)
  · rw [if_pos hsucceeds]
    split <;> exact hout (by simp)
  · rw [if_neg (by simp [hcancel])]
    exact hout (by simp)
  · obtain ⟨done, hbetween, hdone⟩ := hs
    have hlen : done.length + 1 ≤ result.length := by rw [← hdone]; simp
    rw [if_neg (by rw [hbetween.2.1]; omega)]
    exact hout (by simp)
  · rw [if_pos hsucceeds]
    exact hout (by simp)
  · obtain ⟨done, r, ⟨-, -, -, -, text, t, hready, rows', saved, hdb, hrows, -⟩, hdone, -, rfl⟩ := hs
    obtain ⟨-, rfl⟩ := Created.unique hready.toCreated hcreated₀
    rw [filled, ← hdone, map_append, map_cons] at hfill₀
    obtain ⟨rows'', hins⟩ := Table.insert_of_fill hrows hfill₀
    exact unfailed_exec hdb ⟨_, by rw [Db.insert, Option.bind_some, hins]; rfl⟩ (hout (by simp))
  · obtain ⟨done, r, -, -, -, -, -, text, t, -, rows', saved, hdb, -⟩ := hs
    by_cases hfull : s.batch + 1 < vmsMatBatch
    · rw [if_pos hfull]
      exact hout (by simp)
    · rw [if_neg hfull]
      exact unfailed_exec hdb ⟨_, rfl⟩ (hout (by simp))
  · obtain ⟨-, -, -, -, text, t, -, rows', saved, hdb, -⟩ := hs
    exact unfailed_exec hdb ⟨_, rfl⟩ (hout (by simp))
  · exact hout (by simp)
  · rename_i text' texts
    obtain ⟨-, text, t, ⟨hready, -, rows', hdb, -⟩, before, hbefore, -⟩ := hs
    obtain ⟨rfl, -⟩ := Created.unique hready.toCreated hcreated₀
    have haccepted : e.index ((matDdl src.cols).getD []) text' = true := by
      rw [hcreated₀.ddl, Option.getD_some]
      exact hindex₀ text' (by rw [hbefore]; simp)
    exact unfailed_exec hdb ⟨_, by rw [Db.index, if_pos haccepted]⟩ (hout (by simp))
  · intro message
    simp
  · exact hok

/-- The run in which every call succeeds. -/
def smooth (src : VmsQuerySource) (result : List (Row F)) : List Event :=
  replicate (callsLeft src result .entry) .ok

/-- **Completeness**: the run without a fault publishes. -/
theorem publishes_of_ok {rows : List (Row F)} (hm : vmsMatCreate mode maxRows maxBytes = some m)
    (hpub : Publishes e src result m.maxRows rows) :
    (after e src result m (smooth src result)).mat.state = .published ∧
      ∃ t, (after e src result m (smooth src result)).mat.db =
        some { table := some t, rows, saved := rows, inTxn := false } := by
  -- the limit and the flag stay as they are, and no call fails
  have hkeeps : ∀ (s : Build F) (ev : Event), (Stage e src result s ∧ Frame m s.mat ∧ Unfailed s) → ev = .ok →
      (Stage e src result (step e src result s ev) ∧ Frame m (step e src result s ev).mat ∧
        Unfailed (step e src result s ev)) := by
    rintro s ev ⟨hs, hframe, hok⟩ rfl
    have hf : Frame s.mat (builder e src result s .ok).mat := frame_builder s .ok
    refine ⟨stage_builder hs .ok, hframe.trans hf, ?_⟩
    have hpub' : Publishes e src result s.mat.maxRows rows := by rw [hframe.maxRows]; exact hpub
    exact unfailed_builder hs hpub' (hframe.cancelled.trans (cancelled_start hm)) hok
  have hall : Along (step e src result) (fun _ ev => ev = .ok) { mat := m } (smooth src result) :=
    along_of_mem fun ev hev => eq_of_mem_replicate hev
  obtain ⟨hs, hframe, hok⟩ := Along.keeps hkeeps ⟨stage_start hm, Frame.refl m, by intro; simp⟩ hall
  obtain ⟨r, hr⟩ : ∃ r, (after e src result m (smooth src result)).pc = .returned r :=
    returns (smooth src result) (by simp [smooth, countP_replicate, Event.works])
  have hpublished : (after e src result m (smooth src result)).mat.state = .published := by
    rcases state_of_stage hs with ⟨-, hb⟩ | ⟨hp, -⟩ | ⟨-, message, hf⟩
    · exact absurd hr (hb r)
    · exact hp
    · exact absurd hf (hok message)
  refine ⟨hpublished, ?_⟩
  obtain ⟨rows', t, ⟨-, text', t', hready', hfill', -⟩, hdb⟩ := published_rows hs hpublished
  obtain ⟨-, text, t'', hready, hfill, -⟩ := hpub
  obtain ⟨-, rfl⟩ := Created.unique hready'.toCreated hready.toCreated
  obtain rfl := Option.some.inj (hfill.symm.trans hfill')
  exact ⟨t, hdb⟩

end Runs

/-! ## The snapshot and the result -/

section Exact

variable (e : Sqlite F) (src : VmsQuerySource) (result : List (Row F))

/-- Whoever gets the database sees the whole result, all of it committed. -/
def SeesWhole (m : VmsMat F) : Prop := ∀ db, vmsMatDb m = some db → db.rows = result ∧ db.saved = result

/-- The two ways for a build to end. -/
def Settled (s : Build F) : Prop :=
  (s.pc = .returned none ∧ s.mat.state = .published ∧ ∃ db, vmsMatDb s.mat = some db ∧ db.rows = result) ∨
    ((∃ message, s.pc = .returned (some message)) ∧ s.mat.state = .failed ∧ vmsMatDb s.mat = none)

/-- **The snapshot is the result**: at no moment of any build without a cancel is there anything else to
    see, and the build returns with success or failure after finitely many calls. -/
def Exact (m : VmsMat F) : Prop :=
  ∀ es, Event.cancel ∉ es → SeesWhole result (after e src result m es).mat ∧
    (callsLeft src result .entry ≤ es.countP Event.works → Settled result (after e src result m es))

/-- What is published is the result. -/
def Keeps (maxRows : Int) : Prop := ∀ rows, Publishes e src result maxRows rows → rows = result

/-- The value is of the kind that the described column has; blobs are not empty. -/
def ofType : VmsColType → VmsValue F → Bool
  | _, .null => true
  | .int64, .int _ => true
  | .float64, .float _ => true
  | .blob, .blob b => !b.isEmpty
  | .spatial, .blob b => !b.isEmpty
  | .text, .text _ => true
  | .bigtext, .text _ => true
  | .decimal, .text _ => true
  | .datetime, .text _ => true
  | .guid, .text _ => true
  | _, _ => false

/-- Every row has the described columns. -/
def Conforms (cols : List VmsMetaColumn) (result : List (Row F)) : Prop :=
  ∀ r ∈ result, List.Forall₂ (fun c v => ofType c.vtype v = true) cols r

/-- A length that an `int` can hold. -/
def Short : VmsValue F → Prop
  | .text t => t.length < 2 ^ 31
  | .blob b => b.length < 2 ^ 31
  | _ => True

variable {e src result} {mode : VmsMatMode} {maxRows maxBytes : Int} {m : VmsMat F}

theorem castInt_of_lt {n : Nat} (h : n < 2 ^ 31) : castInt n = n := by
  have hlower : -(((4294967296 : Nat) : Int) / 2) ≤ (n : Int) := by omega
  have hupper : (n : Int) < (((4294967296 : Nat) : Int) + 1) / 2 := by omega
  exact Int.bmod_eq_of_le hlower hupper

/-- Binding a value of a known type and a reasonable length changes nothing. -/
theorem bindValue_eq {ty : VmsColType} {v : VmsValue F} (hty : ofType ty v = true) (hshort : Short v) :
    bindValue e v = v := by
  cases v with
  | text t => rw [bindValue, castInt_of_lt hshort, e.text_length]
  | blob b =>
    cases b with
    | nil => cases ty <;> simp [ofType] at hty
    | cons x xs => rw [bindValue, castInt_of_lt hshort, e.blob_length]
  | _ => rfl

theorem bindRow_eq {cols : List VmsMetaColumn} {r : Row F}
    (hr : List.Forall₂ (fun c v => ofType c.vtype v = true) cols r) (hshort : ∀ v ∈ r, Short v) :
    bindRow e cols.length r = r := by
  refine ext_getElem (by simp [bindRow, hr.length_eq]) fun i hi hi' => ?_
  have hcol : i < cols.length := by simpa [bindRow] using hi
  have htype : ofType (cols[i]).vtype r[i] = true := List.Forall₂.get hr hcol hi'
  simp only [bindRow, getElem_map, getElem_range, getElem?_eq_getElem hi', Option.getD_some]
  exact bindValue_eq htype (hshort _ (getElem_mem hi'))

/-- The snapshot column of a described column keeps its values. -/
theorem keeps_ofType {ty : VmsColType} {v : VmsValue F} (h : ofType ty v = true) :
    (matAffinity ty).keeps (kindOf v) = true := by
  cases ty <;> cases v <;> first | rfl | simp [ofType] at h

/-- **Names without quotes**: a result of reasonable lengths is kept. -/
theorem keeps_of_plain (hnames : ∀ c ∈ src.cols, 34 ∉ c.name) (hresult : Conforms src.cols result)
    (hshort : ∀ r ∈ result, ∀ v ∈ r, Short v) (maxRows : Int) : Keeps e src result maxRows := by
  rintro rows ⟨-, text, t, hready, hfill, -⟩
  have hbound : result.map (bindRow e src.cols.length) = result :=
    (map_congr_left fun r hr => bindRow_eq (hresult r hr) (hshort r hr)).trans (map_id _)
  have hcreate := hready.create
  rw [matDdl_text src.name_fits hready.ddl] at hcreate
  have hplain : t.Plain kindOf (src.cols.map fun c => matAffinity c.vtype) := by
    have h := @Engine.create_plain _ _ e (wide "vms_snapshot")
      (src.cols.map fun c => (c.name, matAffinity c.vtype)) t (by decide) (by simpa using hnames)
      (by rw [map_map]; exact hcreate)
    rwa [map_map] at h
  have hfits : ∀ r ∈ result, Fits kindOf (src.cols.map fun c => matAffinity c.vtype) r := by
    intro r hr
    rw [Fits, forall₂_map_left_iff]
    exact (hresult r hr).imp fun c v h => keeps_ofType h
  rw [filled, hbound, hplain.fill_eq hfits] at hfill
  exact (Option.some.inj hfill).symm

/-- The limits are those of `vms_mat_create`, in every state. -/
theorem limits_after (m : VmsMat F) (es : List Event) :
    (after e src result m es).mat.maxRows = m.maxRows ∧ (after e src result m es).mat.maxBytes = m.maxBytes := by
  refine @run_keeps _ _ (step e src result) (fun s => s.mat.maxRows = m.maxRows ∧ s.mat.maxBytes = m.maxBytes)
    (fun s ev hs => ?_) es { mat := m } ⟨rfl, rfl⟩
  have hf : Frame s.mat (builder e src result s ev).mat := frame_builder s ev
  exact step_cases (P := fun s => s.mat.maxRows = m.maxRows ∧ s.mat.maxBytes = m.maxBytes) (fun _ => hs)
    fun _ => ⟨hf.maxRows.trans hs.1, hf.maxBytes.trans hs.2⟩

theorem vmsMatDb_of_state (h : m.state ≠ .published) : vmsMatDb m = none := if_neg h

/-- What is published is the result: then nothing else is ever seen, and every build settles. -/
theorem exact_of_keeps (hm : vmsMatCreate mode maxRows maxBytes = some m) (hkeeps : Keeps e src result m.maxRows) :
    Exact e src result m := by
  intro es _
  have hs : Stage e src result (after e src result m es) := stage_run (stage_start hm) es
  have hrows : (after e src result m es).mat.state = .published →
      ∃ db, (after e src result m es).mat.db = some db ∧ db.rows = result ∧ db.saved = result := by
    intro hp
    obtain ⟨rows, t, hpub, hdb⟩ := published_rows hs hp
    rw [(limits_after m es).1] at hpub
    obtain rfl := hkeeps rows hpub
    exact ⟨_, hdb, rfl, rfl⟩
  constructor
  · intro db hdb
    obtain ⟨hp, hdb⟩ := Option.ite_none_right_eq_some.mp hdb
    obtain ⟨db', hdb', hwhole⟩ := hrows hp
    obtain rfl := Option.some.inj (hdb.symm.trans hdb')
    exact hwhole
  · intro hcalls
    obtain ⟨r, hr⟩ : ∃ r, (after e src result m es).pc = .returned r := returns es hcalls
    rcases state_of_stage hs with ⟨-, hb⟩ | ⟨hp, hpc⟩ | ⟨hf, hpc⟩
    · exact absurd hr (hb r)
    · obtain ⟨db, hdb, hwhole, -⟩ := hrows hp
      exact .inl ⟨hpc, hp, db, by rw [vmsMatDb, if_pos hp, hdb], hwhole⟩
    · exact .inr ⟨hpc, hf, vmsMatDb_of_state (by rw [hf]; decide)⟩

/-- And if a build could publish anything else, a reader would see it. -/
theorem keeps_of_exact (hm : vmsMatCreate mode maxRows maxBytes = some m) (hexact : Exact e src result m) :
    Keeps e src result m.maxRows := by
  intro rows hpub
  obtain ⟨hp, t, hdb⟩ := publishes_of_ok hm hpub
  have hnone : Event.cancel ∉ smooth src result := fun h => by
    cases eq_of_mem_replicate h
  have hsees := (hexact (smooth src result) hnone).1
  exact (hsees _ (by rw [vmsMatDb, if_pos hp, hdb])).1

/-- **The published snapshot is the result** exactly when the database keeps the rows it is given, and it
    does if no name of a column has a quote in it and no value is too long for an `int`. -/
theorem snapshot_exact (hm : vmsMatCreate mode maxRows maxBytes = some m) (hresult : Conforms src.cols result) :
    (Exact e src result m ↔ Keeps e src result m.maxRows) ∧
      ((∀ c ∈ src.cols, 34 ∉ c.name) → (∀ r ∈ result, ∀ v ∈ r, Short v) → Exact e src result m) :=
  ⟨⟨keeps_of_exact hm, exact_of_keeps hm⟩, fun hnames hshort =>
    exact_of_keeps hm (keeps_of_plain hnames hresult hshort m.maxRows)⟩

end Exact

/-- A query with one text column. -/
def oneColumn (name : List Nat) (h : name.length < 128) : VmsQuerySource where
  query := wide "SELECT note FROM t"
  cols := [{ name, typeName := wide "nvarchar", vtype := .text, isNullable := true }]
  name_fits := by simpa using h

/-- `vms_mat_create(VMS_MAT_MEMORY, 0, 0)`. -/
def inMemory : VmsMat Unit := { mode := .memory, maxRows := 10000000, maxBytes := 1073741824 }

/-- The same note, twice. -/
def twice : List (Row Unit) := [[.text (wide "hi")], [.text (wide "hi")]]

theorem twice_conforms (name : List Nat) (h : name.length < 128) : Conforms (oneColumn name h).cols twice := by
  intro r hr
  simp only [twice, mem_cons, not_mem_nil, or_false, or_self] at hr
  subst hr
  exact .cons rfl .nil

theorem twice_short : ∀ r ∈ twice, ∀ v ∈ r, Short v := by
  intro r hr v hv
  simp only [twice, mem_cons, not_mem_nil, or_false, or_self] at hr
  subst hr
  obtain rfl := mem_singleton.mp hv
  exact (by decide : (wide "hi").length < 2 ^ 31)

theorem snapshot_exact_note : Conforms (oneColumn (wide "note") (by decide)).cols twice ∧
    Exact (reader kindOf) (oneColumn (wide "note") (by decide)) twice inMemory := by
  refine ⟨twice_conforms _ _, ?_⟩
  have h := @snapshot_exact Unit (reader kindOf) (oneColumn (wide "note") (by decide)) twice .memory 0 0 inMemory
    rfl (twice_conforms _ _)
  exact h.2 (by decide) twice_short

/-- **A name with a quote in it**: the column is declared UNIQUE ON CONFLICT IGNORE, and the second of two
    equal rows is not in the snapshot. -/
theorem snapshot_loses_row :
    Conforms (oneColumn (wide "a\" UNIQUE ON CONFLICT IGNORE) --") (by decide)).cols twice ∧
    ¬ Exact (reader kindOf) (oneColumn (wide "a\" UNIQUE ON CONFLICT IGNORE) --") (by decide)) twice inMemory := by
  refine ⟨twice_conforms _ _, fun h => ?_⟩
  have hsees := (h (replicate 22 .ok) (by decide)).1
  have hrows : (vmsMatDb (after (reader kindOf)
      (oneColumn (wide "a\" UNIQUE ON CONFLICT IGNORE) --") (by decide)) twice inMemory
      (replicate 22 .ok)).mat).map Db.rows = some [[.text (wide "hi")]] := by decide
  obtain ⟨db, hdb, hone⟩ := Option.map_eq_some_iff.mp hrows
  have hboth := (hsees db hdb).1
  rw [hone] at hboth
  cases hboth

/-! ## The gate -/

section Gate

variable (e : Sqlite F) (src : VmsQuerySource) (result : List (Row F))

/-- The builder will read the flag again: there is a row that it has not looked at. -/
def checksAgain : Pc F → Bool
  | .entry | .create | .begin | .prepare | .query | .cursor => !result.isEmpty
  | .fetch left => !left.isEmpty
  | .check _ _ => true
  | .limit _ left | .bind _ left | .insert _ left | .batch left => !left.isEmpty
  | .commit | .index _ | .publish | .returned _ => false

/-- A cancel comes while the builder has yet to read the flag, or when the build is over. -/
def Timely (s : Build F) (ev : Event) : Prop :=
  ev = .cancel → checksAgain result s.pc = true ∨ ∃ r, s.pc = .returned r

/-- The bytes of the rows, by whatever measure of a value. -/
def storedBytes (size : VmsValue F → Nat) (rows : List (Row F)) : Nat :=
  rows.foldl (fun n r => r.foldl (fun n v => n + size v) n) 0

/-- **The gate**: PUBLISHED was reached before any cancel and within both limits; and a build that has
    returned is PUBLISHED or FAILED. -/
def Gate (size : VmsValue F → Nat) (m : VmsMat F) (es : List Event) : Prop :=
  ((after e src result m es).mat.state = .published →
    (∃ n ≤ es.length, Event.cancel ∉ es.take n ∧ (after e src result m (es.take n)).mat.state = .published) ∧
    (result.length : Int) ≤ m.maxRows ∧
    ∀ db, (after e src result m es).mat.db = some db → (storedBytes size db.rows : Int) ≤ m.maxBytes) ∧
  (callsLeft src result .entry ≤ es.countP Event.works →
    (after e src result m es).mat.state = .published ∨ (after e src result m es).mat.state = .failed)

/-- A flag that is set will be read, or the build is over. -/
def Heeded (s : Build F) : Prop :=
  s.mat.cancelled = true → checksAgain result s.pc = true ∨ ∃ r, s.pc = .returned r

variable {e src result} {mode : VmsMatMode} {maxRows maxBytes : Int} {m : VmsMat F}

/-- The way to the next reading of the flag has no way past it. -/
theorem Edge.checksAgain_or {p q : Pc F} (h : Edge src result p q) (hp : checksAgain result p = true) :
    (∃ r left, p = .check r left ∧ q = .limit r left) ∨ checksAgain result q = true ∨ ∃ r, q = .returned r := by
  cases h with
  | checked => exact .inl ⟨_, _, rfl, rfl⟩
  | failed => exact .inr (.inr ⟨_, rfl⟩)
  | row => exact .inr (.inl rfl)
  | _ => exact .inr (.inl hp)

theorem heeded_builder {s : Build F} (ev : Event) (hs : Heeded result s) :
    Heeded result (builder e src result s ev) := by
  intro hcancelled
  have hf : Frame s.mat (builder e src result s ev).mat := frame_builder s ev
  rw [hf.cancelled] at hcancelled
  by_cases hreturned : ∃ r, s.pc = .returned r
  · obtain ⟨r, hr⟩ := hreturned
    rw [builder_returned hr]
    exact .inr ⟨r, hr⟩
  · have hagain := (hs hcancelled).resolve_right hreturned
    have hedge : Edge src result s.pc (builder e src result s ev).pc :=
      builder_edge (fun r hr => hreturned ⟨r, hr⟩) ev
    rcases Edge.checksAgain_or hedge hagain with ⟨r, left, hp, hq⟩ | h
    · -- a set flag does not let the builder past its check
      rw [builder, hp] at hq
      simp [hcancelled, fail] at hq
    · exact h

theorem heeded_step (s : Build F) (ev : Event) (hs : Heeded result s)
    (hev : Timely result s ev) : Heeded result (step e src result s ev) :=
  step_cases (fun hcancel _ => hev hcancel) fun _ => heeded_builder ev hs

/-- The flag is never taken back. -/
theorem cancelled_of_mem {es : List Event} (h : Event.cancel ∈ es) :
    (after e src result m es).mat.cancelled = true := by
  obtain ⟨before, later, rfl⟩ := append_of_mem h
  have hkeeps : ∀ (s : Build F) (ev : Event), s.mat.cancelled = true →
      (step e src result s ev).mat.cancelled = true := by
    intro s ev hs
    have hf : Frame s.mat (builder e src result s ev).mat := frame_builder s ev
    exact step_cases (P := fun s => s.mat.cancelled = true) (fun _ => rfl) fun _ => hf.cancelled.trans hs
  rw [after, run_append, run_cons]
  exact run_keeps hkeeps later rfl

/-- PUBLISHED is stored by the last step and by no other. -/
theorem publish_of_published {s : Build F} {ev : Event} (hs : Stage e src result s)
    (hbefore : s.mat.state ≠ .published) (hafter : (step e src result s ev).mat.state = .published) :
    s.pc = .publish ∧ ev ≠ .cancel := by
  have hev : ev ≠ .cancel := by
    rintro rfl
    exact hbefore hafter
  rw [step_of_call hev] at hafter
  have hreturned : ∀ r, s.pc ≠ .returned r := by
    intro r hr
    rw [builder_returned hr] at hafter
    exact hbefore hafter
  have hpc : (builder e src result s ev).pc = .returned none := by
    rcases state_of_stage (stage_builder hs ev) with ⟨h, -⟩ | ⟨-, h⟩ | ⟨h, -⟩
    · rw [h] at hafter; cases hafter
    · exact h
    · rw [h] at hafter; cases hafter
  have hedge : Edge src result s.pc (builder e src result s ev).pc := builder_edge hreturned ev
  rw [hpc] at hedge
  generalize hp : s.pc = p at hedge
  cases hedge with
  | published => exact ⟨rfl, hev⟩

/-- **Timely cancels are heeded**: what is PUBLISHED was PUBLISHED before the first cancel. -/
theorem published_before_cancel (hstart : Stage e src result { mat := m })
    (hflag : m.cancelled = false) (es : List Event)
    (htimely : Along (step e src result) (Timely result) { mat := m } es)
    (hp : (after e src result m es).mat.state = .published) :
    ∃ n ≤ es.length, Event.cancel ∉ es.take n ∧ (after e src result m (es.take n)).mat.state = .published := by
  induction es using reverseRecOn with
  | nil => exact ⟨0, Nat.le_refl 0, not_mem_nil, hp⟩
  | append_singleton es ev ih =>
    obtain ⟨hes, hlast⟩ := along_append.mp htimely
    by_cases hbefore : (after e src result m es).mat.state = .published
    · obtain ⟨n, hn, hnone, hpn⟩ := ih hes hbefore
      refine ⟨n, by rw [length_append]; omega, ?_, ?_⟩
      all_goals rwa [take_append_of_le_length hn]
    · -- the step that publishes: a flag set before would have been read
      have hstage : Stage e src result (after e src result m es) := stage_run hstart es
      have hrun : after e src result m (es ++ [ev]) = step e src result (after e src result m es) ev := by
        rw [after, run_append]; rfl
      rw [hrun] at hp
      obtain ⟨hpc, hev⟩ := publish_of_published hstage hbefore hp
      have hheeded : Heeded result (after e src result m es) :=
        Along.keeps heeded_step (by intro h; rw [hflag] at h; cases h) hes
      have hnone : Event.cancel ∉ es := by
        intro hmem
        rcases hheeded (cancelled_of_mem hmem) with h | ⟨r, hr⟩
        · rw [hpc] at h; cases h
        · rw [hpc] at hr; cases hr
      refine ⟨(es ++ [ev]).length, Nat.le_refl _, ?_, ?_⟩
      · rw [take_length, mem_append, mem_singleton]
        rintro (h | h)
        · exact hnone h
        · exact hev h.symm
      · rw [take_length, hrun]
        exact hp

/-- **When the gate holds**: if every cancel is timely, exactly when nothing that can be published has too
    many bytes. -/
theorem gate_iff (hm : vmsMatCreate mode maxRows maxBytes = some m) (size : VmsValue F → Nat) :
    (∀ es, Along (step e src result) (Timely result) { mat := m } es → Gate e src result size m es) ↔
      ∀ rows, Publishes e src result m.maxRows rows → (storedBytes size rows : Int) ≤ m.maxBytes := by
  have hstart : Stage e src result { mat := m } := stage_start hm
  constructor
  · intro h rows hpub
    obtain ⟨hp, t, hdb⟩ := publishes_of_ok hm hpub
    have hok : Along (step e src result) (Timely result) { mat := m } (smooth src result) := by
      have hall := @along_of_mem _ _ (step e src result) (fun ev => ev = .ok) (smooth src result) { mat := m }
        fun ev hev => eq_of_mem_replicate hev
      exact hall.imp fun s ev hev hc => by rw [hev] at hc; cases hc
    exact ((h _ hok).1 hp).2.2 _ hdb
  · intro h es htimely
    have hs : Stage e src result (after e src result m es) := stage_run hstart es
    refine ⟨fun hp => ?_, fun hcalls => ?_⟩
    · obtain ⟨rows, t, hpub, hdb⟩ := published_rows hs hp
      rw [(limits_after m es).1] at hpub
      refine ⟨published_before_cancel hstart (cancelled_start hm) es htimely hp, hpub.within, ?_⟩
      intro db hdb'
      obtain rfl := Option.some.inj (hdb.symm.trans hdb')
      exact h rows hpub
    · obtain ⟨r, hr⟩ : ∃ r, (after e src result m es).pc = .returned r := returns es hcalls
      rcases state_of_stage hs with ⟨-, hb⟩ | ⟨hp, -⟩ | ⟨hf, -⟩
      · exact absurd hr (hb r)
      · exact .inl hp
      · exact .inr hf

end Gate

/-- Eight bytes for a number, the length of a text or a blob. -/
def payload : VmsValue Unit → Nat
  | .null => 0
  | .int _ => 8
  | .float _ => 8
  | .text t => t.length
  | .blob b => b.length

theorem gate_iff_note : vmsMatCreate .memory 0 0 = some inMemory ∧
    ∀ es, Along (step (reader kindOf) (oneColumn (wide "note") (by decide)) twice) (Timely twice)
      { mat := inMemory } es →
      Gate (reader kindOf) (oneColumn (wide "note") (by decide)) twice payload inMemory es := by
  refine ⟨rfl, (@gate_iff Unit (reader kindOf) (oneColumn (wide "note") (by decide)) twice .memory 0 0 inMemory
    rfl payload).mpr ?_⟩
  intro rows hpub
  obtain rfl := keeps_of_plain (by decide) (twice_conforms _ _) twice_short inMemory.maxRows rows hpub
  decide

/-- The builder waits for the first row of an empty result when the cancel comes. -/
def lateCancel : List Event := replicate 6 .ok ++ .cancel :: replicate 4 .ok

/-- **The cancel that is not heard, and the limit that is not read**: an empty result is published after a
    cancel, and four bytes are published where one is allowed. -/
theorem publishes_unheard :
    ¬ Gate (reader kindOf) (oneColumn (wide "note") (by decide)) [] payload inMemory lateCancel ∧
    ¬ Gate (reader kindOf) (oneColumn (wide "note") (by decide)) twice payload { inMemory with maxBytes := 1 }
      (replicate 22 .ok) := by
  constructor
  · intro h
    obtain ⟨⟨n, hn, hnone, hp⟩, -⟩ := h.1 (by decide)
    revert hn hnone hp
    revert n
    decide
  · intro h
    have hstate : (after (reader kindOf) (oneColumn (wide "note") (by decide)) twice
        { inMemory with maxBytes := 1 } (replicate 22 .ok)).mat.state = .published := by decide
    have hrows : ((after (reader kindOf) (oneColumn (wide "note") (by decide)) twice
        { inMemory with maxBytes := 1 } (replicate 22 .ok)).mat.db).map Db.rows = some twice := by decide
    obtain ⟨db, hdb, hdbrows⟩ := Option.map_eq_some_iff.mp hrows
    have hbytes := (h.1 hstate).2.2 db hdb
    rw [hdbrows] at hbytes
    cases hbytes

end VirtualMssql.Publish
