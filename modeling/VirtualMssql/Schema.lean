/-
  SCHEMA INSPECTION — from the arguments of a table-valued function to the catalog statement.

  From `vms_schema.c`: `si_arg_w`, `si_filter` up to the point where the statement is built, and
  `si_build_sql`.  A query such as `virtualmssql_tables(connection, schema)` reaches `si_filter` with
  the argument positions chosen by `si_best_index` (`order`) and the argument values (`argv`).

  The guard before the statement is built is `vms_meta_ident_valid`, a check of a BYTE string, applied
  to a buffer of UTF-16 units.  Its first zero byte is the high byte of the first ASCII unit, so the
  check ends there (`identValid_wide_ascii`): an argument that starts with an identifier character
  passes whatever follows.  The literal is then spliced without doubling quotes.

  The result (`siFilter_faithful_iff`) says exactly which arguments survive: the statement that a call
  let through produces lexes to its template with one literal per argument, each decoding to the
  argument given, if and only if no argument contains a quote or a NUL.
-/
import VirtualMssql.Meta
import VirtualMssql.Sqlite
import VirtualMssql.Lib.Outcome
import VirtualMssql.Lib.TSqlTemplate

namespace VirtualMssql.Schema

open TSql Utf Outcome List Function

/-- The four functions: `SI_TABLES`, `SI_TABLE_INFO`, `SI_INDEX_LIST`, `SI_INDEX_INFO`. -/
inductive SiKind
  | tables
  | tableInfo
  | indexList
  | indexInfo
  deriving DecidableEq, Repr

/-! ## The catalog statements of `si_build_sql` -/

/-- The format string up to its first hole, and the parts after each hole without the quote that
    closes the literal. -/
def siParts : SiKind → List Nat × List (List Nat)
  | .tables =>
    (wide ("SELECT s.name, o.name," ++
      " CASE o.type WHEN N'U' THEN N'table' WHEN N'V' THEN N'view' END" ++
      " FROM sys.objects o JOIN sys.schemas s ON s.schema_id = o.schema_id" ++
      " WHERE o.type IN (N'U', N'V') AND s.name = N'"),
    [wide " ORDER BY s.name, o.name"])
  | .tableInfo =>
    (wide ("SELECT c.column_id - 1, c.name, t.name, c.is_nullable," ++
      " OBJECT_DEFINITION(c.default_object_id)," ++
      " COALESCE(pkic.key_ordinal, 0)," ++
      " CASE WHEN c.is_computed = 1 THEN 2 ELSE 0 END," ++
      " c.column_id, c.max_length, c.precision, c.scale, c.is_nullable," ++
      " c.is_identity, c.is_computed" ++
      " FROM sys.columns c" ++
      " JOIN sys.types t ON t.user_type_id = c.user_type_id" ++
      " JOIN sys.objects o ON o.object_id = c.object_id" ++
      " JOIN sys.schemas s ON s.schema_id = o.schema_id" ++
      " LEFT JOIN sys.index_columns pkic" ++
      "   ON pkic.object_id = c.object_id AND pkic.column_id = c.column_id" ++
      " LEFT JOIN sys.indexes pi" ++
      "   ON pi.object_id = pkic.object_id AND pi.index_id = pkic.index_id" ++
      "  AND pi.is_primary_key = 1" ++
      " WHERE s.name = N'"),
    [wide " AND o.name = N'", wide " ORDER BY c.column_id"])
  | .indexList =>
    (wide ("SELECT ROW_NUMBER() OVER (ORDER BY i.index_id), i.name," ++
      " i.is_unique," ++
      " CASE WHEN i.is_primary_key = 1 THEN N'pk'" ++
      "  WHEN i.is_unique = 1 THEN N'u' ELSE N'c' END," ++
      " CASE WHEN i.has_filter = 1 THEN 1 ELSE 0 END, i.is_disabled," ++
      " (SELECT COUNT(*) FROM sys.index_columns x" ++
      "  WHERE x.object_id = i.object_id AND x.index_id = i.index_id)" ++
      " FROM sys.indexes i" ++
      " JOIN sys.objects o ON o.object_id = i.object_id" ++
      " JOIN sys.schemas s ON s.schema_id = o.schema_id" ++
      " WHERE s.name = N'"),
    [wide " AND o.name = N'", wide " AND i.index_id > 0 ORDER BY i.index_id"])
  | .indexInfo =>
    (wide ("SELECT ic.key_ordinal, ic.index_column_id, c.name," ++
      " ic.is_descending_key, N'B'," ++
      " CASE WHEN ic.is_included_column = 1 THEN 0 ELSE 1 END," ++
      " i.is_primary_key, i.is_unique, i.is_disabled, ic.key_ordinal," ++
      " c.is_nullable" ++
      " FROM sys.index_columns ic" ++
      " JOIN sys.columns c ON c.object_id = ic.object_id" ++
      "  AND c.column_id = ic.column_id" ++
      " JOIN sys.indexes i ON i.object_id = ic.object_id" ++
      "  AND i.index_id = ic.index_id" ++
      " JOIN sys.objects o ON o.object_id = i.object_id" ++
      " JOIN sys.schemas s ON s.schema_id = o.schema_id" ++
      " WHERE s.name = N'"),
    [wide " AND o.name = N'", wide " AND i.name = N'", wide " ORDER BY ic.key_ordinal"])

variable (kind : SiKind)

/-- The format string itself, `%s` between the quotes of every hole. -/
def siFormat : List Nat :=
  filled (siParts kind).1 ((siParts kind).2.map fun next => (hole, next))

/-- The arguments a kind uses. -/
def siUsed {α : Type} (kind : SiKind) (schema table index : α) : List α :=
  match kind with
  | .tables => [schema]
  | .tableInfo => [schema, table]
  | .indexList => [schema, table]
  | .indexInfo => [schema, table, index]

/-- `si_build_sql`: refused on an empty argument; `swprintf_s` fails when the text and its
    terminator do not fit `cap` units. -/
def siBuildSql (schema table index : List Nat) (cap : Nat) : Option (List Nat) :=
  if (siUsed kind schema table index).any List.isEmpty then none
  else
    let sql := sprintfS (siFormat kind) (siUsed kind schema table index)
    if sql.length + 1 ≤ cap then some sql else none

/-! ## `si_filter` up to the statement -/

/-- `si_arg_w`: text that is not empty, converted into a buffer of `cap` units. -/
def siArgW (v : SqliteValue) (cap : Nat) : Option (List Nat) :=
  match v with
  | .text t =>
    if (cstr t).isEmpty then none
    else
      let w := utf8ToWide (cstr t)
      if w.length + 1 ≤ cap then some w else none
  | _ => none

variable (order : List Nat) (argv : List SqliteValue)

/-- The value passed for hidden column `k`, if `si_best_index` gave it a position. -/
def siArg (k : Nat) : Option SqliteValue :=
  if 0 < order.getD k 0 ∧ order.getD k 0 ≤ argv.length then argv[order.getD k 0 - 1]? else none

/-- A buffer of `cap` units, empty unless the argument was passed; a passed argument that is not
    non-empty text is an error. -/
def siBuffer (v : Option SqliteValue) (cap : Nat) (message : String) :
    Except String (List Nat) :=
  match v with
  | none => .ok []
  | some v => match siArgW v cap with
      | some w => if w.isEmpty then .error message else .ok w
      | none => .error message

/-- A wide buffer seen as bytes (little-endian), its terminator included. -/
def wideBytes (w : List Nat) : List Nat := (w ++ [0]).flatMap fun u => [u % 256, u / 256 % 256]

/-- `vms_meta_ident_valid` handed a wide buffer. -/
def identValidWide (w : List Nat) (maxChars : Nat) : Bool :=
  vmsMetaIdentValid (cstr (wideBytes w)) maxChars

/-- A check that reports `message` and stops. -/
def siRequire (ok : Bool) (message : String) : Except String Unit :=
  if ok then .ok () else .error message

/-- `si_filter` from its arguments to the catalog statement, or the error it reports. -/
def siFilter (idxNum : Nat) (order : List Nat) (argv : List SqliteValue) :
    Except String (List Nat) := do
  siRequire (idxNum ≠ 0 ∧ 1 ≤ argv.length) "virtualmssql: connection specification is required"
  let connSpec ← siBuffer (siArg order argv 0) 1024
    "virtualmssql: connection specification must be non-empty text"
  siRequire (!connSpec.isEmpty) "virtualmssql: connection specification is required"
  let schema ← siBuffer (siArg order argv 1) 300
    "virtualmssql: schema must be a non-empty text value"
  -- the table argument is read by every kind but `tables`, the index argument by `indexInfo` alone
  let table ← siBuffer (if kind ≠ .tables then siArg order argv 2 else none) 300
    "virtualmssql: table must be a non-empty text value"
  let index ← siBuffer (if kind = .indexInfo then siArg order argv 3 else none) 300
    "virtualmssql: index must be a non-empty text value"
  siRequire ((siUsed kind schema table index).all fun w => identValidWide w 128)
    "virtualmssql: invalid identifier in schema inspection arguments"
  match siBuildSql kind schema table index 4096 with
  | none => .error "virtualmssql: schema inspection query build failed"
  | some sql => .ok sql

/-! ## What the guard really checks -/

/-- **The guard stops at the first ASCII unit.**  When the argument starts with an identifier
    character, its high byte ends the byte string, and everything after it is unchecked. -/
theorem identValid_wide_ascii {c : Nat} (hc : identChar c = true) (rest : List Nat) :
    identValidWide (c :: rest) 128 = true := by
  have hlt := identChar_lt hc
  have hlow : c % 256 = c := by omega
  have hhigh : c / 256 % 256 = 0 := by omega
  have hne : c ≠ 0 := by
    rintro rfl
    cases hc
  have hstr : cstr (wideBytes (c :: rest)) = [c] := by
    simp [wideBytes, cstr, hlow, hhigh, hne]
  rw [identValidWide, hstr]
  simp [vmsMetaIdentValid, identScan, hc]

/-- An argument that was not passed leaves its buffer empty, and the guard refuses that. -/
theorem identValidWide_nil : identValidWide [] 128 = false := by decide

/-! ## The arguments as they were given -/

/-- The text given for hidden column `k`. -/
def siGiven (k : Nat) : Option (List Nat) :=
  match siArg order argv k with
  | some (.text t) => some t
  | _ => none

/-- The texts given for the arguments the kind uses. -/
def siTexts :
    Option (List (List Nat)) :=
  (siUsed kind 1 2 3).mapM (siGiven order argv)

/-- **The statement is faithful**: it lexes to its template with one literal per argument, each
    decoding to the argument given. -/
def SiFaithful (sql : List Nat) :
    Prop :=
  ∃ texts, siTexts kind order argv = some texts ∧
    lex .ascii sql = fillHoles (lex .ascii (siFormat kind)) (texts.map utf8ToWide)

/-- No argument used contains a quote or a NUL. -/
def SiClean : Prop :=
  ∀ texts, siTexts kind order argv = some texts → ∀ t ∈ texts, 39 ∉ t ∧ 0 ∉ t

/-- What the conversion leaves of an argument: the text before its first NUL. -/
def siConv (t : List Nat) : List Nat := utf8ToWide (cstr t)

/-- What it cuts off. -/
def siCut (t : List Nat) : List Nat :=
  match t.drop (cstr t).length with
  | [] => []
  | _ :: rest => 0 :: utf8ToWide rest

/-- The conversion cuts the argument at its first NUL. -/
theorem siConv_cut (t : List Nat) : utf8ToWide t = siConv t ++ siCut t ∧ (siCut t = [] ∨ ∃ z, siCut t = 0 :: z) ∧
      (siCut t = [] ↔ 0 ∉ t) := by
  obtain ⟨z, ht, hz⟩ := cstr_append t
  have hdrop : t.drop (cstr t).length = z := by
    have hleft : (cstr t ++ z).drop (cstr t).length = z := drop_left
    rwa [← ht] at hleft
  rw [siConv, siCut, hdrop, ← cstr_eq_self_iff]
  rcases hz with rfl | ⟨rest, rfl⟩
  · rw [append_nil] at ht
    exact ⟨by rw [← ht, append_nil], .inl rfl, fun _ => ht.symm, fun _ => rfl⟩
  · refine ⟨?_, .inr ⟨_, rfl⟩, fun h => absurd h (by simp), fun h => ?_⟩
    · conv_lhs => rw [ht]
      exact utf8ToWide_ascii (by omega) _ _
    · rw [h] at ht
      exact absurd (self_eq_append_right.mp ht) (by simp)

/-- Free of quotes after the conversion and nothing cut off: free of quotes and NULs before it. -/
theorem siConv_clean_iff (t : List Nat) : (39 ∉ siConv t ∧ siCut t = []) ↔ (39 ∉ t ∧ 0 ∉ t) := by
  have hmem : ∀ {bs : List Nat}, 39 ∈ utf8ToWide bs ↔ 39 ∈ bs := by
    intro bs
    constructor
    · exact mem_of_utf8ToWide (by omega)
    · intro h
      obtain ⟨a, b, rfl⟩ := append_of_mem h
      rw [utf8ToWide_ascii (by omega)]
      simp
  rw [(siConv_cut t).2.2, siConv, hmem]
  refine and_congr_left fun h0 => ?_
  rw [cstr_eq_self_iff.mpr h0]

/-! ## The statement against its template -/

/-- The facts about the fixed parts that are read off their texts: each part before a hole leads
    into a literal, each part after one starts with a space, and no part contains a `%`. -/
theorem siParts_checked : (∀ p ∈ ((siParts kind).1 :: (siParts kind).2).dropLast, LeadsIn .ascii p) ∧
      (∀ p ∈ (siParts kind).2, p.head? = some 32) ∧ ∀ p ∈ (siParts kind).1 :: (siParts kind).2, 37 ∉ p := by
  cases kind <;> simp only [siParts, wide, String.toList_append] <;>
    repeat rw [String.toList_ofList]
  all_goals decide +kernel

theorem siParts_shaped : Shaped .ascii (siParts kind).1 (siParts kind).2 := by
  obtain ⟨hlead, hhead, -⟩ := siParts_checked kind
  generalize (siParts kind).1 = first at *
  generalize (siParts kind).2 = parts at *
  induction parts generalizing first with
  | nil => trivial
  | cons next rest ih =>
    refine ⟨hlead first (by simp), ?_, ih next ?_ ?_⟩
    · obtain ⟨cs, rfl⟩ := head?_eq_some_iff.mp (hhead next (by simp))
      exact ⟨32, cs, rfl, by decide, by decide⟩
    · intro p hp
      exact hhead p (mem_cons_of_mem _ hp)
    · intro p hp
      exact hlead p (by rw [dropLast_cons_cons]; exact mem_cons_of_mem _ hp)

/-- The filled format lexes to the filled tokens exactly when every argument is clean. -/
theorem lex_siFormat_iff (texts : List (List Nat)) (hlen : texts.length = (siParts kind).2.length) :
    lex .ascii (sprintfS (siFormat kind) (texts.map siConv)) =
        fillHoles (lex .ascii (siFormat kind)) (texts.map utf8ToWide) ↔ ∀ t ∈ texts, 39 ∉ t ∧ 0 ∉ t := by
  -- pair every argument with the part that follows its hole
  have hfst : (texts.zip (siParts kind).2).map Prod.fst = texts := map_fst_zip (by omega)
  have hsnd : (texts.zip (siParts kind).2).map Prod.snd = (siParts kind).2 := map_snd_zip (by omega)
  have hshape := siParts_shaped kind
  obtain ⟨_, _, hpercent⟩ := siParts_checked kind
  rw [siFormat]
  generalize (siParts kind).1 = first at *
  generalize (siParts kind).2 = parts at *
  generalize texts.zip parts = pairs at *
  subst hfst hsnd
  have hfill := sprintfS_filled first (pairs.map fun x => (siConv x.1, x.2)) (hpercent first (by simp))
    (by
      intro h hm
      obtain ⟨x, hx, rfl⟩ := mem_map.mp hm
      exact hpercent x.2 (mem_cons_of_mem _ (mem_map_of_mem hx)))
  have hiff := lex_filled_iff .ascii first
    (pairs.map fun x => (⟨siConv x.1, siCut x.1, x.2⟩ : Slot))
    (by simpa [map_map, comp_def] using hshape)
    (by
      intro h hm
      obtain ⟨x, _, rfl⟩ := mem_map.mp hm
      exact (siConv_cut x.1).2.1)
  have hwhole : ∀ t, siConv t ++ siCut t = utf8ToWide t := fun t => (siConv_cut t).1.symm
  simp only [map_map, comp_def, forall_mem_map, hwhole, siConv_clean_iff] at hfill hiff ⊢
  rw [hfill]
  exact hiff

/-! ## What a call that is let through passed on -/

variable {argv}

/-- A buffer the guard accepts was filled from a text argument. -/
theorem siBuffer_given {order : List Nat} {k : Nat} {message : String}
    {w : List Nat} (hw : siBuffer (siArg order argv k) 300 message = .ok w) (hv : identValidWide w 128 = true) :
    ∃ t, siGiven order argv k = some t ∧ w = siConv t := by
  rw [siGiven]
  cases ha : siArg order argv k with
  | none =>
    rw [ha] at hw
    obtain rfl : [] = w := Except.ok.inj hw
    exact absurd hv (by rw [identValidWide_nil]; decide)
  | some v =>
    rw [ha] at hw
    cases v with
    | text t =>
      refine ⟨t, rfl, ?_⟩
      simp only [siBuffer, siArgW] at hw
      split_ifs at hw with h1 h2
      · simp only at hw
        split_ifs at hw
        exact (Except.ok.inj hw).symm
    | null | integer i | real r | blob b => simp [siBuffer, siArgW] at hw

theorem siBuildSql_some {kind : SiKind} {schema table index sql : List Nat} {cap : Nat}
    (h : siBuildSql kind schema table index cap = some sql) :
    sql = sprintfS (siFormat kind) (siUsed kind schema table index) := by
  rw [siBuildSql] at h
  split_ifs at h with h1
  simp only at h
  split_ifs at h
  exact (Option.some.inj h).symm

theorem siRequire_ok {c : Bool} {message : String} {u : Unit} : siRequire c message = .ok u ↔ c = true := by
  rw [siRequire]
  split_ifs with h <;> simp [h]

/-- A call that is let through: all used arguments were texts, and the statement is the format with
    their converted texts put in. -/
theorem siFilter_ok {kind : SiKind} {idxNum : Nat} {order : List Nat}
    {sql : List Nat} (h : siFilter kind idxNum order argv = .ok sql) :
    ∃ texts, siTexts kind order argv = some texts ∧ texts.length = (siParts kind).2.length ∧
      sql = sprintfS (siFormat kind) (texts.map siConv) := by
  simp only [siFilter, bind_ok, siRequire_ok] at h
  obtain ⟨_, _, _, _, _, _, schema, hschema, table, htable, index, hindex, _, hvalid, h⟩ := h
  have hsql : sql = sprintfS (siFormat kind) (siUsed kind schema table index) := by
    split at h
    · cases h
    · rename_i hbuild
      exact Except.ok.inj h ▸ siBuildSql_some hbuild
  rw [all_eq_true] at hvalid
  subst hsql
  -- each argument the kind uses was a text, or its buffer would not have passed the guard
  cases kind <;> obtain ⟨t₁, h₁, rfl⟩ := siBuffer_given hschema (hvalid _ (by simp [siUsed]))
  case tables => exact ⟨[t₁], by simp [siTexts, siUsed, h₁], rfl, rfl⟩
  all_goals obtain ⟨t₂, h₂, rfl⟩ := siBuffer_given htable (hvalid _ (by simp [siUsed]))
  case tableInfo | indexList => exact ⟨[t₁, t₂], by simp [siTexts, siUsed, h₁, h₂], rfl, rfl⟩
  obtain ⟨t₃, h₃, rfl⟩ := siBuffer_given hindex (hvalid _ (by simp [siUsed]))
  exact ⟨[t₁, t₂, t₃], by simp [siTexts, siUsed, h₁, h₂, h₃], rfl, rfl⟩

/-! ## The law -/

/-- **Exactly the clean arguments survive.**  A statement that `si_filter` lets through is faithful
    if and only if no argument contains a quote or a NUL: the guard adds nothing to that. -/
theorem siFilter_faithful_iff (kind : SiKind) (idxNum : Nat) (order : List Nat)
    (argv : List SqliteValue) (sql : List Nat) (h : siFilter kind idxNum order argv = .ok sql) :
    SiFaithful kind order argv sql ↔ SiClean kind order argv := by
  obtain ⟨texts, htexts, hlen, rfl⟩ := siFilter_ok h
  have hlex := lex_siFormat_iff kind texts hlen
  rw [SiFaithful, SiClean]
  constructor
  · rintro ⟨texts', htexts', hfaithful⟩ texts'' htexts''
    rw [htexts] at htexts' htexts''
    cases htexts'
    cases htexts''
    exact hlex.mp hfaithful
  · intro hclean
    exact ⟨texts, htexts, hlex.mpr (hclean texts htexts)⟩

/-- The values of a call for the tables of a schema: the connection first, the schema second. -/
def siTablesArgv (schema : List Nat) : List SqliteValue := [.text [99], .text schema]

theorem siTexts_tablesArgv (schema : List Nat) :
    siTexts .tables [1, 2, 0, 0] (siTablesArgv schema) = some [schema] := rfl

/-- The statement for a schema `w` fits its buffer of 4096 units with room to spare. -/
theorem siFormat_tables_length (w : List Nat) : (sprintfS (siFormat .tables) [w]).length ≤ w.length + 601 := by
  obtain ⟨next, hnext⟩ : ∃ next, (siParts .tables).2 = [next] := ⟨_, rfl⟩
  obtain ⟨_, _, hpercent⟩ := siParts_checked .tables
  have hlen : ∀ p ∈ (siParts .tables).1 :: (siParts .tables).2, p.drop 300 = [] := by
    simp only [siParts, wide, String.toList_append]
    repeat rw [String.toList_ofList]
    decide +kernel
  rw [hnext] at hpercent hlen
  have hfill := sprintfS_filled (siParts .tables).1 [(w, next)] (hpercent _ (by simp)) (by
      intro h hm
      obtain rfl := mem_singleton.mp hm
      exact hpercent _ (by simp))
  have h₁ := drop_eq_nil_iff.mp (hlen _ mem_cons_self)
  have h₂ := drop_eq_nil_iff.mp (hlen next (by simp))
  rw [siFormat, hnext]
  simp only [map_cons, map_nil] at hfill ⊢
  rw [hfill]
  simp only [filled, length_append, length_cons]
  omega

/-- **Nothing else is asked of a schema.**  One that starts with an identifier character and fits
    the buffer is let through. -/
theorem siFilter_tables_ok (c : Nat) (cs : List Nat) (hc : identChar c = true)
    (hfit : (siConv (c :: cs)).length < 300) :
    ∃ sql, siFilter .tables 1 [1, 2, 0, 0] (siTablesArgv (c :: cs)) = .ok sql := by
  have hlt := identChar_lt hc
  have hne : c ≠ 0 := by
    rintro rfl
    cases hc
  have hcstr : cstr (c :: cs) = c :: cstr cs := by simp [cstr, hne]
  have hconv : siConv (c :: cs) = c :: siConv cs := by
    rw [siConv, hcstr]
    exact utf8ToWide_ascii (by omega) [] _
  have hlen := siFormat_tables_length (siConv (c :: cs))
  have hvalid : identValidWide (siConv (c :: cs)) 128 = true := by
    rw [hconv]; exact identValid_wide_ascii hc _
  have hschema : siBuffer (some (.text (c :: cs))) 300
      "virtualmssql: schema must be a non-empty text value" = .ok (siConv (c :: cs)) := by
    have hwide : utf8ToWide (c :: cstr cs) = c :: siConv cs := by
      rw [← hcstr, ← hconv, siConv]
    rw [hconv] at hfit ⊢
    simp only [siBuffer, siArgW, hcstr, hwide]
    simp only [length_cons] at hfit
    rw [if_neg (by simp), if_pos (by simp only [length_cons]; omega)]
    rfl
  have hbuild : siBuildSql .tables (siConv (c :: cs)) [] [] 4096 =
      some (sprintfS (siFormat .tables) [siConv (c :: cs)]) := by
    rw [siBuildSql, if_neg (by rw [hconv]; simp [siUsed])]
    exact if_pos (by rw [siUsed]; omega)
  refine ⟨sprintfS (siFormat .tables) [siConv (c :: cs)], ?_⟩
  simp only [siFilter, bind_ok, siRequire_ok]
  refine ⟨(), rfl, [99], rfl, (), rfl, _, hschema, [], rfl, [], rfl, (), ?_, ?_⟩
  · simp [siUsed, hvalid]
  · rw [hbuild]

theorem siFilter_faithful_dbo :
    ∃ sql, siFilter .tables 1 [1, 2, 0, 0] (siTablesArgv [100, 98, 111]) = .ok sql ∧
      (SiFaithful .tables [1, 2, 0, 0] (siTablesArgv [100, 98, 111]) sql ↔
        SiClean .tables [1, 2, 0, 0] (siTablesArgv [100, 98, 111])) := by
  obtain ⟨sql, hsql⟩ := siFilter_tables_ok 100 [98, 111] (by decide) (by decide)
  exact ⟨sql, hsql, siFilter_faithful_iff .tables 1 [1, 2, 0, 0] _ sql hsql⟩

/-- `virtualmssql_tables('c', 'x''--')`: the guard reads the one byte `x`, and the quote in
    the argument ends the literal. -/
theorem siFilter_injection :
    ∃ sql, siFilter .tables 1 [1, 2, 0, 0] (siTablesArgv [120, 39, 45, 45]) = .ok sql ∧
      ¬ SiFaithful .tables [1, 2, 0, 0] (siTablesArgv [120, 39, 45, 45]) sql := by
  obtain ⟨sql, hsql⟩ := siFilter_tables_ok 120 [39, 45, 45] (by decide) (by decide)
  refine ⟨sql, hsql, ?_⟩
  obtain ⟨texts, htexts, hlen, hformat⟩ := siFilter_ok hsql
  rintro ⟨texts', htexts', hfaithful⟩
  rw [siTexts_tablesArgv] at htexts htexts'
  cases htexts
  cases htexts'
  rw [hformat] at hfaithful
  have hclean := (lex_siFormat_iff .tables [[120, 39, 45, 45]] hlen).mp hfaithful
  exact absurd (hclean _ (mem_singleton_self _)).1 (by decide)

end VirtualMssql.Schema
