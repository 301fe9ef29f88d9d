/-
  QUOTING — the identifiers that are written for a column, and the names they are read as.

  A column name comes from the catalog as UTF-8 text and is copied into 128 bytes, so that a name whose
  text is longer loses its end.  What is left goes between delimiters as it is: in brackets for the server
  (`append_col`, `append_col_proj`, `sb_add_ident`), in double quotes for SQLite (the declaration of the
  virtual table, the DDL of a snapshot).  Nobody doubles a delimiter.

  An identifier is read up to the first closing delimiter that is not doubled.  It reads as the name of the
  catalog exactly when the copy is the whole name and the name has no closing delimiter in it
  (`readsBack_iff`); the server sees UTF-16, where a copy that was cut inside a character can still come
  out right: the mark that stands for the broken end may be the very character that was there.

  The catalog queries name their object in a literal instead (`vms_meta_quote_ident`), with its quotes doubled; there
  it is the room in the buffer that can cut a name (`quote_ident_iff`).
-/
import VirtualMssql.Filter
import VirtualMssql.Mat

namespace VirtualMssql.Quoting

open Utf Delimited SqliteTable List Option
open TSql (wide)
open Plan (appendW appendW_some wideName wideName_some appendBracketed appendCol appendColSpatial
  appendColProj ansiText)
open DmlSql (sbAddIdent dmlSqlCap)
open VirtualMssql.Filter (sqlWchars)
open Mat (appendColumns appendColumns_some ddlColumn matAffinity matCap indexText)

/-! ## Names -/

/-- A name that the catalog can hold, in UTF-16 and as the UTF-8 text that arrives. -/
structure Sysname where
  units : List Nat
  bytes : List Nat
  text : utf8Strict bytes = some units
  nonempty : units ≠ []
  bounded : units.length ≤ 128

/-- `copy_text` (and the same `strncpy_s` for the columns of a query): into 128 bytes. -/
def copyText (text : List Nat) : List Nat := (cstr text).take 127

theorem copyText_length (text : List Nat) : (copyText text).length < 128 := by
  rw [copyText, length_take]
  omega

theorem copyText_starts (text : List Nat) : copyText text <+: text := by
  have hcut : copyText text <+: cstr text := take_prefix 127 (cstr text)
  have hstring : cstr text <+: text := takeWhile_prefix fun b => b != 0
  exact hcut.trans hstring

/-- The column as the metadata has it. -/
def loaded (n : Sysname) (c : VmsMetaColumn) : VmsMetaColumn := { c with name := copyText n.bytes }

theorem utf8ToWide_of_strict {bs w : List Nat} (h : utf8Strict bs = some w) : utf8ToWide bs = w := by
  rw [utf8Strict] at h
  obtain ⟨-, h⟩ := ite_none_left_eq_some.mp h
  exact some.inj h

/-! ## The declaration of the virtual table -/

def declCap : Nat := 4096

def declAffinity (spatialWkt : Bool) : VmsColType → Affinity
  | .int64 => .integer
  | .float64 => .real
  | .blob => .blob
  | .spatial => if spatialWkt then .text else .blob
  | _ => .text

/-- `%s"%s" %s%s` into `col[200]`. -/
def declColumn (spatialWkt : Bool) (i : Nat) (c : VmsMetaColumn) : List Nat :=
  ((if i = 0 then [] else [44]) ++ 34 :: (c.name ++ 34 :: 32 :: ((declAffinity spatialWkt c.vtype).word ++
    if c.isNullable then [] else wide " NOT NULL"))).take 199

/-- The text that `vms_vtab_connect` declares. -/
def vtabDecl (spatialWkt : Bool) (cols : List VmsMetaColumn) : Option (List Nat) :=
  (appendColumns declCap (cols.mapIdx (declColumn spatialWkt)) (wide "CREATE TABLE x(")).map (· ++ [41])

/-! ## Emitters -/

/-- Who writes identifiers: `append_col` (WHERE, ORDER BY) and `append_col_proj` for `vms_plan_build_sql`,
    `sb_add_ident` for INSERT, UPDATE and DELETE, the declaration, and the two statements of a snapshot. -/
inductive Emitter
  | column
  | projection
  | dml
  | declaration
  | snapshot
  | index
  deriving DecidableEq, Repr

/-- The reader is the server, not SQLite. -/
def Emitter.remote : Emitter → Bool
  | .column | .projection | .dml => true
  | .declaration | .snapshot | .index => false

def Emitter.opening (em : Emitter) : Nat := if em.remote then 91 else 34
def Emitter.closing (em : Emitter) : Nat := if em.remote then 93 else 34

section Emit

variable (spatialWkt : Bool) (i : Nat) (c : VmsMetaColumn)

/-- What the emitter appends to the text so far for column `i`, if it fits. -/
def emit : Emitter → List Nat → Option (List Nat)
  | .column, sql => appendCol sqlWchars c.name sql
  | .projection, sql => appendColProj sqlWchars spatialWkt c sql
  | .dml, sql => sbAddIdent c.name sql
  | .declaration, sql => appendColumns declCap [declColumn spatialWkt i c] sql
  | .snapshot, sql => appendColumns matCap [ddlColumn i c] sql
  | .index, sql => some (sql ++ indexText i c)

/-- What it writes in front of the identifier … -/
def before : Emitter → List Nat
  | .column | .dml => []
  | .projection => if c.vtype ≠ .spatial ∧ ansiText c then wide "CAST(" else []
  | .declaration | .snapshot => if i = 0 then [] else [44]
  | .index => wide "CREATE INDEX vms_snapshot_i" ++ (decimal i ++ wide " ON vms_snapshot(")

/-- … and behind it. -/
def behind : Emitter → List Nat
  | .column | .dml => []
  | .projection =>
    if c.vtype = .spatial then (if spatialWkt then wide ".STAsText()" else wide ".STAsBinary()")
    else if ansiText c then
      (if c.vtype = .bigtext then wide " AS nvarchar(max))" else wide " AS nvarchar(4000))")
    else []
  | .declaration =>
    32 :: ((declAffinity spatialWkt c.vtype).word ++ if c.isNullable then [] else wide " NOT NULL")
  | .snapshot => 32 :: (matAffinity c.vtype).word
  | .index => [41]

/-- The identifier between its delimiters. -/
def written (em : Emitter) : List Nat := if em.remote then utf8ToWide c.name else c.name

variable {spatialWkt i c}

theorem appendBracketed_some {cap n : Nat} {name sql out : List Nat}
    (h : appendBracketed cap n name sql = some out) : out = sql ++ 91 :: (utf8ToWide name ++ [93]) := by
  obtain ⟨w, hw, h⟩ := bind_eq_some_iff.mp h
  rw [appendW_some h, wideName_some hw]

theorem declColumn_eq (hname : c.name.length < 128) :
    declColumn spatialWkt i c = (if i = 0 then [] else [44]) ++ 34 :: (c.name ++ 34 :: 32 ::
      ((declAffinity spatialWkt c.vtype).word ++ if c.isNullable then [] else wide " NOT NULL")) := by
  have hword : (declAffinity spatialWkt c.vtype).word.length ≤ 7 := by
    cases declAffinity spatialWkt c.vtype <;> decide
  have hnull : (if c.isNullable then [] else wide " NOT NULL").length ≤ 9 := by
    split_ifs <;> decide
  have hcomma : (if i = 0 then [] else [44]).length ≤ 1 := by split_ifs <;> simp
  refine take_of_length_le ?_
  simp only [length_append, length_cons]
  omega

theorem indexText_eq (hname : c.name.length < 128) (hi : i < 512) :
    indexText i c = wide "CREATE INDEX vms_snapshot_i" ++ (decimal i ++ (wide " ON vms_snapshot(" ++
      34 :: (c.name ++ [34, 41]))) := by
  have hdec : (decimal i).length ≤ 3 := decimal_length (k := 2) (by omega)
  have hhead : (wide "CREATE INDEX vms_snapshot_i").length = 27 := by decide
  have hon : (wide " ON vms_snapshot(").length = 17 := by decide
  refine take_of_length_le ?_
  simp only [length_append, length_cons, length_nil]
  omega

/-- **What an emitter writes**: the identifier as it is, between its delimiters. -/
theorem emit_some (em : Emitter) (hname : c.name.length < 128) (hi : i < 512) {sql out : List Nat}
    (h : emit spatialWkt i c em sql = some out) :
    out = sql ++ (before i c em ++ em.opening :: (written c em ++ em.closing :: behind spatialWkt c em)) := by
  cases em with
  | column | dml => exact appendBracketed_some h
  | projection =>
    have h : appendColProj sqlWchars spatialWkt c sql = some out := h
    rw [appendColProj] at h
    by_cases hspatial : c.vtype = .spatial
    · rw [if_pos hspatial] at h
      obtain ⟨mid, hmid, h⟩ := bind_eq_some_iff.mp h
      rw [appendW_some h, appendBracketed_some hmid]
      simp [before, behind, written, Emitter.opening, Emitter.closing, Emitter.remote, hspatial]
    · rw [if_neg hspatial] at h
      by_cases hansi : ansiText c = true
      · rw [if_pos hansi] at h
        obtain ⟨w, hw, h⟩ := bind_eq_some_iff.mp h
        obtain ⟨s₁, h₁, h⟩ := bind_eq_some_iff.mp h
        obtain ⟨s₂, h₂, h⟩ := bind_eq_some_iff.mp h
        rw [appendW_some h, appendW_some h₂, appendW_some h₁, wideName_some hw]
        simp [before, behind, written, Emitter.opening, Emitter.closing, Emitter.remote, hspatial, hansi]
      · rw [if_neg hansi] at h
        rw [appendBracketed_some h]
        simp [before, behind, written, Emitter.opening, Emitter.closing, Emitter.remote, hspatial, hansi]
  | declaration =>
    rw [appendColumns_some h, flatten_singleton, declColumn_eq hname]
    rfl
  | snapshot =>
    rw [appendColumns_some h, flatten_singleton, Mat.ddlColumn_eq hname]
    rfl
  | index =>
    cases h
    rw [indexText_eq hname hi]
    simp [before, behind, written, Emitter.opening, Emitter.closing, Emitter.remote]

/-- On an empty buffer every identifier fits. -/
theorem emit_nil (em : Emitter) (hname : c.name.length < 128) : ∃ out, emit spatialWkt i c em [] = some out := by
  have hwide := utf8ToWide_length_le c.name
  have hw : ∀ n, 200 ≤ n → wideName n c.name = some (utf8ToWide c.name) := fun n hn =>
    if_neg (by omega)
  have hfit : ∀ {cap : Nat} {s sql : List Nat}, sql.length + s.length < cap →
      appendW cap s sql = some (sql ++ s) := fun h => if_neg (by omega)
  have hbr : ∀ cap n, 200 ≤ cap → 200 ≤ n →
      appendBracketed cap n c.name [] = some (91 :: (utf8ToWide c.name ++ [93])) := by
    intro cap n hcap hn
    rw [appendBracketed, hw n hn, bind_some, hfit (by simp; omega), nil_append]
  have hcols : ∀ {cap : Nat} {p : List Nat}, p.length + 2 < cap → appendColumns cap [p] [] = some p := by
    intro cap p hp
    rw [appendColumns, if_neg (by rw [length_nil]; omega), nil_append, appendColumns]
  cases em with
  | column => exact ⟨_, hbr sqlWchars 298 (by decide) (by decide)⟩
  | dml => exact ⟨_, hbr dmlSqlCap 276 (by decide) (by decide)⟩
  | projection =>
    show ∃ out, appendColProj sqlWchars spatialWkt c [] = some out
    rw [appendColProj]
    by_cases hspatial : c.vtype = .spatial
    · have hmethod : (if spatialWkt then wide ".STAsText()" else wide ".STAsBinary()").length ≤ 13 := by
        cases spatialWkt <;> decide
      rw [if_pos hspatial, appendColSpatial, hbr sqlWchars 296 (by decide) (by decide), bind_some]
      refine ⟨_, hfit ?_⟩
      simp only [sqlWchars, length_cons, length_append, length_nil]
      omega
    · rw [if_neg hspatial]
      by_cases hansi : ansiText c = true
      · have hcast : (if c.vtype = .bigtext then wide " AS nvarchar(max))"
            else wide " AS nvarchar(4000))").length ≤ 19 := by split_ifs <;> decide
        have hhead : (wide "CAST(").length = 5 := by decide
        have hname : (wide "CAST(").length + (91 :: (utf8ToWide c.name ++ [93])).length < sqlWchars := by
          simp only [sqlWchars, length_cons, length_append, length_nil]
          omega
        rw [if_pos hansi, hw 296 (by decide), bind_some, hfit (by decide), bind_some,
          nil_append, hfit hname, bind_some]
        refine ⟨_, hfit ?_⟩
        simp only [sqlWchars, length_cons, length_append, length_nil]
        omega
      · rw [if_neg hansi]
        exact ⟨_, hbr sqlWchars 298 (by decide) (by decide)⟩
  | declaration =>
    refine ⟨_, hcols (lt_of_le_of_lt (Nat.add_le_add_right (length_take_le 199 _) 2) ?_)⟩
    decide
  | snapshot =>
    refine ⟨_, hcols (lt_of_le_of_lt (Nat.add_le_add_right (length_take_le 279 _) 2) ?_)⟩
    decide
  | index => exact ⟨_, rfl⟩

end Emit

/-! ## Reading back -/

/-- The name as the reader of the text knows it. -/
def Sysname.seen (n : Sysname) (em : Emitter) : List Nat := if em.remote then n.units else n.bytes

/-- **The identifier is read as the name**: whatever the text is so far and whatever follows it, what stands
    behind the opening delimiter reads as the name and ends where the emitter closed it. -/
def ReadsBack (spatialWkt : Bool) (i : Nat) (n : Sysname) (c : VmsMetaColumn) (em : Emitter) : Prop :=
  ∀ sql out rest, emit spatialWkt i (loaded n c) em sql = some out → rest.head? ≠ some em.closing →
    readBody em.closing ((out ++ rest).drop (sql.length + (before i (loaded n c) em).length + 1)) =
      some (n.seen em, behind spatialWkt (loaded n c) em ++ rest)

/-- The copy is the whole name, and nothing in the name closes the identifier. -/
def Whole (n : Sysname) (em : Emitter) : Prop :=
  if em.remote then utf8ToWide (copyText n.bytes) = n.units ∧ 93 ∉ n.units
  else copyText n.bytes = n.bytes ∧ 34 ∉ n.bytes

section Read

variable {spatialWkt : Bool} {i : Nat} {n : Sysname} {c : VmsMetaColumn}

theorem whole_iff (em : Emitter) : Whole n em ↔ written (loaded n c) em = n.seen em ∧ em.closing ∉ n.seen em := by
  rw [Whole, written, Sysname.seen, Emitter.closing]
  split_ifs <;> exact Iff.rfl

theorem written_length_le (em : Emitter) : (written (loaded n c) em).length ≤ (n.seen em).length := by
  rw [written, Sysname.seen]
  split_ifs
  · rw [← utf8ToWide_of_strict n.text]
    exact utf8ToWide_length_cut (copyText_starts n.bytes)
  · exact (copyText_starts n.bytes).length_le

theorem behind_head (em : Emitter) {rest : List Nat} (h : rest.head? ≠ some em.closing) :
    (behind spatialWkt (loaded n c) em ++ rest).head? ≠ some em.closing := by
  cases em with
  | column | dml => exact h
  | projection =>
    rw [behind]
    split_ifs <;> first | exact h | simp [wide, Emitter.closing, Emitter.remote]
  | declaration | snapshot | index => simp [behind, Emitter.closing, Emitter.remote]

/-- **One emitter.** -/
theorem readsBack_iff (hi : i < 512) (em : Emitter) : ReadsBack spatialWkt i n c em ↔ Whole n em := by
  have hname : (loaded n c).name.length < 128 := copyText_length n.bytes
  rw [whole_iff em]
  have hread : ∀ sql out rest, emit spatialWkt i (loaded n c) em sql = some out → rest.head? ≠ some em.closing →
      (readBody em.closing ((out ++ rest).drop (sql.length + (before i (loaded n c) em).length + 1)) =
        some (n.seen em, behind spatialWkt (loaded n c) em ++ rest) ↔
      written (loaded n c) em = n.seen em ∧ em.closing ∉ n.seen em) := by
    intro sql out rest hout hrest
    have hdrop : (out ++ rest).drop (sql.length + (before i (loaded n c) em).length + 1) =
        written (loaded n c) em ++ em.closing :: (behind spatialWkt (loaded n c) em ++ rest) := by
      have hsplit : out ++ rest = (sql ++ before i (loaded n c) em ++ [em.opening]) ++
          (written (loaded n c) em ++ em.closing :: (behind spatialWkt (loaded n c) em ++ rest)) := by
        rw [emit_some em hname hi hout]
        simp
      rw [hsplit]
      exact drop_left' (by simp [Nat.add_assoc])
    rw [hdrop]
    exact readBody_exact_iff (behind_head em hrest) (written_length_le em)
  constructor
  · intro h
    obtain ⟨out, hout⟩ : ∃ out, emit spatialWkt i (loaded n c) em [] = some out := emit_nil em hname
    have hrest : ([] : List Nat).head? ≠ some em.closing := by simp
    exact (hread [] out [] hout hrest).mp (h [] out [] hout hrest)
  · intro h sql out rest hout hrest
    exact (hread sql out rest hout hrest).mpr h

end Read

/-- **Quoting**: for a column in any position, of any type, the identifiers of the operations that do not
    fail are read as its name exactly when for each of them the copy is whole and nothing closes it. -/
theorem quoting_iff (spatialWkt : Bool) (i : Fin 512) (n : Sysname) (c : VmsMetaColumn)
    (refused : Emitter → Bool) :
    (∀ em, refused em = false → ReadsBack spatialWkt i n c em) ↔ ∀ em, refused em = false → Whole n em :=
  forall_congr' fun em => imp_congr_right fun _ => readsBack_iff i.isLt em

/-- `x],[y`: between brackets it is two names. -/
def twoNames : Sysname where
  units := wide "x],[y"
  bytes := wide "x],[y"
  text := by decide
  nonempty := by decide
  bounded := by decide

/-- 128 letters, of which 127 fit. -/
def longName : Sysname where
  units := List.replicate 128 97
  bytes := List.replicate 128 97
  text := by decide +kernel
  nonempty := by simp
  bounded := by simp

def intColumn : VmsMetaColumn := { name := [], typeName := wide "int", vtype := .int64 }

/-- **Another name is read**: the server reads `x` where the column is `x],[y`, and SQLite reads 127 letters
    of a name of 128. -/
theorem quoting_misread :
    ¬ ReadsBack false 0 twoNames intColumn .projection ∧ ¬ ReadsBack false 0 longName intColumn .declaration := by
  constructor
  · intro h
    have hread := h [] (wide "[x],[y]") [] (by decide) (by decide)
    cases hread
  · intro h
    have hread := h [] (wide "\"" ++ (List.replicate 127 97 ++ wide "\" INTEGER NOT NULL")) [] (by decide +kernel)
      (by decide)
    exact absurd hread (by decide +kernel)

/-! ## A name as a literal -/

/-- One character of a literal. -/
def literalChar (c : Nat) : List Nat := c :: if c = 39 then [39] else []

/-- The loop of `vms_meta_quote_ident`, with `o` bytes written: it stops when four are not left. -/
def copyQuoted (cap : Nat) : Nat → List Nat → List Nat
  | _, [] => []
  | o, c :: name =>
    if o + 3 < cap then literalChar c ++ copyQuoted cap (o + (literalChar c).length) name else []

/-- `vms_meta_quote_ident`: what is in the buffer, with its NUL. -/
def vmsMetaQuoteIdent (name : List Nat) (cap : Nat) : Option (List Nat) :=
  if cap < 5 then none
  else
    let body := copyQuoted cap 2 name
    if cap < 2 + body.length + 2 then none else some (78 :: 39 :: (body ++ [39, 0]))

/-- The law of a literal: what is returned fits and reads as the name, and what cannot fit is refused. -/
def Quotes (name : List Nat) (cap : Nat) : Prop :=
  (∀ out, vmsMetaQuoteIdent name cap = some out →
    out.length ≤ cap ∧ ∃ body, out = 78 :: 39 :: body ∧ readBody 39 body = some (name, [0])) ∧
  (cap < (double 39 name).length + 4 → vmsMetaQuoteIdent name cap = none)

theorem double_literal (c : Nat) (name : List Nat) : double 39 (c :: name) = literalChar c ++ double 39 name := by
  by_cases hc : c = 39 <;> simp [double, literalChar, hc]

theorem literalChar_length (c : Nat) : 1 ≤ (literalChar c).length ∧ (literalChar c).length ≤ 2 := by
  by_cases hc : c = 39 <;> simp [literalChar, hc]

/-- **The loop** stays in its room and copies a beginning of the name: all of it when four bytes are left behind all
    but its last character. -/
theorem copyQuoted_spec (cap : Nat) : ∀ (name : List Nat) (o : Nat), o + 2 ≤ cap →
    ∃ front, copyQuoted cap o name = double 39 front ∧ o + (double 39 front).length + 2 ≤ cap ∧
      (front = name ↔ name = [] ∨ o + (double 39 name.dropLast).length + 3 < cap)
  | [], o, h => ⟨[], rfl, by simpa using h, by simp⟩
  | c :: name, o, h => by
    have hlen := literalChar_length c
    by_cases hroom : o + 3 < cap
    · obtain ⟨front, hcopy, hfits, hall⟩ := copyQuoted_spec cap name (o + (literalChar c).length) (by omega)
      refine ⟨c :: front, by rw [copyQuoted, if_pos hroom, hcopy, double_literal], ?_, ?_⟩
      · rw [double_literal, length_append]
        omega
      · rw [List.cons.injEq, and_iff_right rfl, hall]
        cases name with
        | nil => simp [hroom]
        | cons d name =>
          rw [dropLast_cons_cons, double_literal, length_append]
          simp only [reduceCtorEq, false_or]
          omega
    · refine ⟨[], by rw [copyQuoted, if_neg hroom]; rfl, by simpa using h, ?_⟩
      simp only [reduceCtorEq, false_or, false_iff]
      omega

/-- **The literals that are whole.**  The law holds exactly where the buffer is refused for its size, the name is
    empty, or four bytes are left behind all but its last character; else a shorter name is closed and returned. -/
theorem quote_ident_iff (name : List Nat) (cap : Nat) :
    Quotes name cap ↔ cap < 5 ∨ name = [] ∨ (double 39 name.dropLast).length + 6 ≤ cap := by
  by_cases hcap : cap < 5
  · simp [Quotes, vmsMetaQuoteIdent, hcap]
  obtain ⟨front, hcopy, hfits, hall⟩ := copyQuoted_spec cap name 2 (by omega)
  have hout : vmsMetaQuoteIdent name cap = some (78 :: 39 :: (double 39 front ++ [39, 0])) := by
    rw [vmsMetaQuoteIdent, if_neg hcap]
    simp only [hcopy]
    rw [if_neg (by omega)]
  have hread : readBody 39 (double 39 front ++ [39, 0]) = some (front, [0]) := readBody_double (by decide) front
  have hwhole : cap < 5 ∨ name = [] ∨ (double 39 name.dropLast).length + 6 ≤ cap ↔ front = name := by
    rw [hall, or_iff_right hcap]
    refine or_congr_right ?_
    omega
  rw [hwhole, Quotes, hout]
  constructor
  · rintro ⟨hreads, -⟩
    obtain ⟨-, body, ⟨⟩, hbody⟩ := hreads _ rfl
    rw [hread] at hbody
    exact (Prod.mk.inj (some.inj hbody)).1
  · rintro rfl
    refine ⟨?_, fun hshort => absurd hfits (by omega)⟩
    rintro out ⟨⟩
    exact ⟨by simp; omega, _, rfl, hread⟩

/-- The literal of `ab` would take six bytes; into six bytes goes `N'a'`. -/
theorem quote_ident_cut : vmsMetaQuoteIdent (wide "ab") 6 = some (wide "N'a'" ++ [0]) ∧ ¬ Quotes (wide "ab") 6 := by
  refine ⟨by decide, fun h => ?_⟩
  obtain ⟨-, body, ⟨⟩, hread⟩ := h.1 (wide "N'a'" ++ [0]) (by decide)
  cases hread

end VirtualMssql.Quoting
