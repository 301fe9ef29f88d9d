/-
  TYPE REGISTRY — from a row of the catalog to a column, and what is read of an ANSI text.

  `vtype_from_sql_type` gives a type name and a length their decode plan; `cols_row` makes a column of a row of
  `sys.columns`.  The select list casts the types that would arrive in the bytes of a code page: to nvarchar(max) when
  the plan is BIGTEXT, else to nvarchar(4000).

  The plan of a text goes by `max_length` alone.  Of char and varchar that is a number of bytes, up to 8000, and of the
  old type text it is always 16, the length of a pointer; so the cast may be too short (`ansi_text_read_iff`).
-/
import VirtualMssql.PlanSql
import Mathlib.Data.List.TakeDrop

namespace VirtualMssql.Registry

open TSql List
open Plan (projOf ansiText serverName)

/-! ## `vtype_from_sql_type` -/

/-- `(unsigned long)v`, of 32 bits. -/
def ulong (v : Int) : Nat := (v % 2 ^ 32).toNat

/-- `strcmp` with one name after another. -/
def oneOf (t : List Nat) (names : List String) : Bool := names.any fun n => t == wide n

theorem oneOf_wide (s : String) (names : List String) : oneOf (wide s) names = decide (s ∈ names) := by
  rw [oneOf, Bool.eq_iff_iff, any_eq_true, decide_eq_true_iff]
  simp [wide_inj]

/-- `vtype_from_sql_type`. -/
def vtypeFromSqlType (t : List Nat) (maxLength : Nat) : VmsColType :=
  if oneOf t ["bigint", "int", "smallint", "tinyint", "bit"] then .int64
  else if oneOf t ["float", "real"] then .float64
  else if oneOf t ["decimal", "numeric", "money", "smallmoney"] then .decimal
  else if oneOf t ["date", "time", "datetime", "datetime2", "smalldatetime", "datetimeoffset"] then .datetime
  else if oneOf t ["uniqueidentifier"] then .guid
  else if oneOf t ["geometry", "geography"] then .spatial
  else if oneOf t ["binary", "varbinary", "image", "rowversion", "timestamp"] then .blob
  else if oneOf t ["nvarchar", "nchar", "ntext", "varchar", "char", "text", "xml"] then
    if maxLength = ulong (-1) ∨ maxLength = 0 then .bigtext else .text
  else .unsupported

/-! ## `cols_row` -/

/-- `copy_text` into a buffer of `cap` bytes. -/
def copyText (cap : Nat) (t : List Nat) : List Nat := (cstr t).take (cap - 1)

/-- A text is kept whole when it ends within the buffer. -/
theorem copyText_eq_self_iff {cap : Nat} (hcap : 0 < cap) {t : List Nat} :
    copyText cap t = t ↔ 0 ∉ t ∧ t.length < cap := by
  constructor
  · intro h
    have hlen : min (cap - 1) (cstr t).length = t.length := by rw [← length_take]; exact congrArg length h
    have hpre : cstr t <+: t := takeWhile_prefix _
    have hwhole : cstr t = t := hpre.eq_of_length_le (by omega)
    exact ⟨cstr_eq_self_iff.mp hwhole, by omega⟩
  · rintro ⟨h0, hlen⟩
    rw [copyText, cstr_eq_self_iff.mpr h0, take_of_length_le (by omega)]

/-- A row of `sys.columns`, with the name of its type. -/
structure ColumnRow where
  name : List Nat
  typeName : List Nat
  maxLength : Int
  precision : Int := 0
  scale : Int := 0
  isNullable : Bool := false
  isIdentity : Bool := false
  isComputed : Bool := false

/-- `cols_row`. -/
def colsRow (r : ColumnRow) : VmsMetaColumn where
  name := copyText 128 r.name
  typeName := copyText 64 r.typeName
  vtype := vtypeFromSqlType (copyText 64 r.typeName) (ulong r.maxLength)
  isNullable := r.isNullable
  isIdentity := r.isIdentity
  isComputed := r.isComputed
  maxLength := ulong r.maxLength
  precision := (r.precision % 256).toNat
  scale := (r.scale % 256).toNat

/-! ## ANSI texts -/

/-- The declared length of a char or a varchar. -/
abbrev AnsiLength := { n : Nat // 1 ≤ n ∧ n ≤ 8000 }

/-- The types that the select list casts. -/
inductive AnsiType
  | char (n : AnsiLength)
  | varchar (n : AnsiLength)
  | varcharMax
  | text
  | xml

def AnsiType.name : AnsiType → List Nat
  | .char _ => wide "char"
  | .varchar _ | .varcharMax => wide "varchar"
  | .text => wide "text"
  | .xml => wide "xml"

/-- What the catalog reports as `max_length`. -/
def AnsiType.maxLength : AnsiType → Int
  | .char n | .varchar n => n.val
  | .varcharMax | .xml => -1
  | .text => 16

/-- The longest value, in units of UTF-16: a byte is no more than a unit, and xml has two bytes a unit. -/
def AnsiType.maxUnits : AnsiType → Nat
  | .char n | .varchar n => n.val
  | .varcharMax | .text => 2 ^ 31 - 1
  | .xml => 2 ^ 30 - 1

/-- The texts of the type, as units. -/
def AnsiType.Holds (ty : AnsiType) (v : List Nat) : Prop := v.length ≤ ty.maxUnits

/-- A column of the type, as it is read from the catalog. -/
def AnsiType.column (ty : AnsiType) (name : List Nat) : VmsMetaColumn :=
  colsRow { name, typeName := ty.name, maxLength := ty.maxLength }

def nvarcharMaxUnits : Nat := 2 ^ 30 - 1

/-- What the server delivers of a text: a cast cuts it to its length. -/
def delivered (p : Proj) (v : List Nat) : List Nat :=
  match p with
  | .cast _ true => v.take nvarcharMaxUnits
  | .cast _ false => v.take 4000
  | _ => v

/-- The units that the cast of the type's columns holds. -/
def AnsiType.castUnits : AnsiType → Nat
  | .char _ | .varchar _ | .text => 4000
  | .varcharMax | .xml => nvarcharMaxUnits

theorem copyText_name (ty : AnsiType) : copyText 64 ty.name = ty.name := by
  cases ty <;> rfl

/-- A declared length is neither 0 nor the -1 of (max). -/
theorem vtype_of_length {t : List Nat} (ht : t = wide "char" ∨ t = wide "varchar") (n : AnsiLength) :
    vtypeFromSqlType t (ulong n.val) = .text := by
  have hn : ulong n.val = n.val := by
    have := n.property
    unfold ulong
    omega
  have hplain : ¬ (n.val = ulong (-1) ∨ n.val = 0) := by
    have := n.property
    have hmax : ulong (-1) = 4294967295 := by decide
    rw [hmax]
    omega
  rw [hn]
  rcases ht with rfl | rfl <;> simp [vtypeFromSqlType, oneOf_wide, hplain]

/-- **The cast that is chosen.** -/
theorem projOf_column (ty : AnsiType) (name : List Nat) (wkt : Bool) : projOf wkt (ty.column name) =
      .cast (serverName (ty.column name)) (match ty with
        | .varcharMax | .xml => true
        | _ => false) := by
  have hvtype : (ty.column name).vtype = match ty with
      | .varcharMax | .xml => .bigtext
      | _ => .text := by
    show vtypeFromSqlType (copyText 64 ty.name) (ulong ty.maxLength) = _
    rw [copyText_name]
    cases ty with
    | char n => exact vtype_of_length (.inl rfl) n
    | varchar n => exact vtype_of_length (.inr rfl) n
    | varcharMax | text | xml => decide
  have hansi : ansiText (ty.column name) = true := by
    have hname : (ty.column name).typeName = ty.name := copyText_name ty
    rw [ansiText, hvtype, hname]
    cases ty <;> rfl
  have hspatial : (ty.column name).vtype ≠ .spatial := by
    rw [hvtype]
    cases ty <;> simp
  rw [projOf, if_neg hspatial, if_pos hansi, hvtype]
  cases ty <;> rfl

theorem delivered_column (ty : AnsiType) (name : List Nat) (wkt : Bool) (v : List Nat) :
    delivered (projOf wkt (ty.column name)) v = v.take ty.castUnits := by
  rw [projOf_column]
  cases ty <;> rfl

/-- **What is read of an ANSI text** is the text exactly when the cast is long enough: 4000 units for char, varchar
    and text, whatever their values hold, and the length of nvarchar(max) for varchar(max) and xml.  So nothing is
    lost of a type exactly when its longest value fits. -/
theorem ansi_text_read_iff (ty : AnsiType) (name : List Nat) (wkt : Bool) :
    (∀ v, delivered (projOf wkt (ty.column name)) v = v ↔ v.length ≤ ty.castUnits) ∧
      ((∀ v, ty.Holds v → delivered (projOf wkt (ty.column name)) v = v) ↔ ty.maxUnits ≤ ty.castUnits) := by
  have hread : ∀ v, delivered (projOf wkt (ty.column name)) v = v ↔ v.length ≤ ty.castUnits := by
    intro v
    rw [delivered_column]
    exact take_eq_self_iff v
  refine ⟨hread, fun h => ?_, fun hfits v hv => ?_⟩
  · have hlong := h (replicate ty.maxUnits 97) (by simp [AnsiType.Holds])
    simpa using (hread _).mp hlong
  · exact (hread v).mpr (le_trans hv hfits)

/-- The short cast takes the last of 4001 letters. -/
theorem delivered_letters {ty : AnsiType} (hlong : 4001 ≤ ty.maxUnits) (hcast : ty.castUnits = 4000) :
    ty.Holds (replicate 4001 97) ∧
      delivered (projOf false (ty.column (wide "c"))) (replicate 4001 97) = replicate 4000 97 := by
  constructor
  · rw [AnsiType.Holds, length_replicate]
    exact hlong
  · rw [delivered_column, hcast, take_replicate]
    rfl

/-- Of a varchar(8000) with 4001 letters, and of a text with as many, the last letter is lost. -/
theorem ansi_text_cut :
    ((AnsiType.varchar ⟨8000, by decide⟩).Holds (replicate 4001 97) ∧
      delivered (projOf false ((AnsiType.varchar ⟨8000, by decide⟩).column (wide "c"))) (replicate 4001 97) =
        replicate 4000 97) ∧
    (AnsiType.text.Holds (replicate 4001 97) ∧
      delivered (projOf false (AnsiType.text.column (wide "c"))) (replicate 4001 97) = replicate 4000 97) :=
  ⟨delivered_letters (by decide) rfl, delivered_letters (by decide) rfl⟩

end VirtualMssql.Registry
