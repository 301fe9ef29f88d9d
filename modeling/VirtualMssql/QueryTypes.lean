/-
  TYPES OF QUERY COLUMNS — `desc_row` against `vtype_from_sql_type`.

  The type of a column is looked up twice in this program, in two tables of names that were written by hand.  For a
  table the name comes from `sys.types` and has no parameters.  For a query it comes from the description of the
  query, and there the server writes the parameters behind it: nvarchar(50), decimal(10,2).  `desc_row` compares
  the whole text.

  `query_type_iff` says for which types the two agree: those without parameters, but neither timestamp, which is missing
  from the second table, nor an xml of a declared length, which the second table always takes for a long text.
-/
import VirtualMssql.Integrity

namespace VirtualMssql.QueryTypes

open TSql Registry Integrity List

/-! ## The types of the server -/

/-- Types without parameters. -/
inductive PlainType
  | bigint | int | smallint | tinyint | bit
  | float | real
  | money | smallmoney
  | date | datetime | smalldatetime
  | uniqueidentifier
  | geometry | geography | hierarchyid
  | image | text | ntext | xml
  | timestamp
  | sqlVariant
  deriving DecidableEq

/-- Types with a length. -/
inductive SizedType
  | char | varchar | nchar | nvarchar | binary | varbinary
  deriving DecidableEq

/-- Those whose length may be `max`. -/
inductive LargeType
  | varchar | nvarchar | varbinary
  deriving DecidableEq

/-- Types with a precision and a scale. -/
inductive ScaledType
  | decimal | numeric
  deriving DecidableEq

/-- Types with a precision of their fractional seconds. -/
inductive TimedType
  | time | datetime2 | datetimeoffset
  deriving DecidableEq

/-- A type of SQL Server with its parameters. -/
inductive SqlType
  | plain (t : PlainType)
  | sized (t : SizedType) (n : Nat)
  | large (t : LargeType)
  | scaled (t : ScaledType) (precision scale : Nat)
  | timed (t : TimedType) (n : Nat)

def PlainType.name : PlainType → String
  | .bigint => "bigint"
  | .int => "int"
  | .smallint => "smallint"
  | .tinyint => "tinyint"
  | .bit => "bit"
  | .float => "float"
  | .real => "real"
  | .money => "money"
  | .smallmoney => "smallmoney"
  | .date => "date"
  | .datetime => "datetime"
  | .smalldatetime => "smalldatetime"
  | .uniqueidentifier => "uniqueidentifier"
  | .geometry => "geometry"
  | .geography => "geography"
  | .hierarchyid => "hierarchyid"
  | .image => "image"
  | .text => "text"
  | .ntext => "ntext"
  | .xml => "xml"
  | .timestamp => "timestamp"
  | .sqlVariant => "sql_variant"

def SizedType.name : SizedType → String
  | .char => "char"
  | .varchar => "varchar"
  | .nchar => "nchar"
  | .nvarchar => "nvarchar"
  | .binary => "binary"
  | .varbinary => "varbinary"

def LargeType.name : LargeType → String
  | .varchar => "varchar"
  | .nvarchar => "nvarchar"
  | .varbinary => "varbinary"

def ScaledType.name : ScaledType → String
  | .decimal => "decimal"
  | .numeric => "numeric"

def TimedType.name : TimedType → String
  | .time => "time"
  | .datetime2 => "datetime2"
  | .datetimeoffset => "datetimeoffset"

/-- The name in `sys.types`. -/
def SqlType.name : SqlType → List Nat
  | .plain t => wide t.name
  | .sized t _ => wide t.name
  | .large t => wide t.name
  | .scaled t _ _ => wide t.name
  | .timed t _ => wide t.name

/-- What the server writes behind the name. -/
def SqlType.suffix : SqlType → List Nat
  | .plain _ => []
  | .sized _ n | .timed _ n => 40 :: (decimal n ++ [41])
  | .large _ => wide "(max)"
  | .scaled _ p s => 40 :: (decimal p ++ 44 :: (decimal s ++ [41]))

/-- `system_type_name`. -/
def SqlType.systemTypeName (ty : SqlType) : List Nat := ty.name ++ ty.suffix

/-- The type of a column of a query. -/
def queryVtype (ty : SqlType) (maxLength : Int) : VmsColType :=
  DescRow.column { name := none, systemTypeName := some ty.systemTypeName, maxLength := some maxLength } |>.vtype

/-- The type of a column of a table. -/
def tableVtype (ty : SqlType) (maxLength : Int) : VmsColType :=
  (colsRow { name := [], typeName := ty.name, maxLength }).vtype

/-- The two tables say the same. -/
def SqlType.Agrees (maxLength : Int) : SqlType → Prop
  | .plain .timestamp => False
  | .plain .xml => ulong maxLength = ulong (-1) ∨ ulong maxLength = 0
  | .plain _ => True
  | _ => False

/-! ## The comparison -/

/-- A text with a parenthesis is none of the names. -/
theorem oneOf_paren {t : List Nat} (h : 40 ∈ t) {names : List String} (hnames : ∀ n ∈ names, 40 ∉ wide n) :
    oneOf t names = false := by
  rw [oneOf, any_eq_false]
  intro n hn heq
  rw [eq_of_beq heq] at h
  exact hnames n hn h

theorem descVtype_paren {t : List Nat} (h : 40 ∈ t) (maxLength : Nat) : descVtype t maxLength = .unsupported := by
  unfold descVtype
  repeat rw [oneOf_paren h (by decide)]
  rfl

/-- The buffer of 64 bytes holds the name and the parenthesis behind it. -/
theorem paren_mem_copyText {name : List Nat} (h0 : 0 ∉ name) (hlen : name.length < 63) (rest : List Nat) :
    40 ∈ copyText 64 (name ++ 40 :: rest) := by
  have hname : ∀ c ∈ name, (c != 0) = true := fun c hc => by
    simpa using fun hzero : c = 0 => h0 (hzero ▸ hc)
  obtain ⟨k, hk⟩ : ∃ k, 64 - 1 = name.length + (k + 1) := ⟨62 - name.length, by omega⟩
  have hcstr : cstr (name ++ 40 :: rest) = name ++ 40 :: cstr rest := by
    rw [cstr, takeWhile_append_of_pos hname]
    rfl
  rw [copyText, hcstr, hk, take_length_add_append]
  simp

variable {ty : SqlType}

/-- A column of a query has no type when the server writes parameters. -/
theorem queryVtype_of_paren {rest : List Nat} (h0 : 0 ∉ ty.name) (hlen : ty.name.length < 63)
    (hsuffix : ty.suffix = 40 :: rest) (maxLength : Int) : queryVtype ty maxLength = .unsupported := by
  refine descVtype_paren ?_ _
  show 40 ∈ copyText 64 ty.systemTypeName
  rw [SqlType.systemTypeName, hsuffix]
  exact paren_mem_copyText h0 hlen rest

theorem copyText_name (h0 : 0 ∉ ty.name) (hlen : ty.name.length < 63) : copyText 64 ty.name = ty.name :=
  (copyText_eq_self_iff (by decide)).mpr ⟨h0, by omega⟩

/-- The names are short, and have no NUL. -/
theorem name_short (ty : SqlType) : 0 ∉ ty.name ∧ ty.name.length < 63 := by
  cases ty with
  | plain t | large t => cases t <;> decide
  | sized t | scaled t | timed t =>
    show 0 ∉ wide t.name ∧ (wide t.name).length < 63
    cases t <;> decide

theorem tableVtype_eq (ty : SqlType) (maxLength : Int) :
    tableVtype ty maxLength = vtypeFromSqlType ty.name (ulong maxLength) := by
  have hname : copyText 64 ty.name = ty.name := copyText_name (name_short ty).1 (name_short ty).2
  show vtypeFromSqlType (copyText 64 ty.name) (ulong maxLength) = _
  rw [hname]

/-- Every type that takes parameters is known to the registry of the tables. -/
theorem tableVtype_ne (h : ∀ t, ty ≠ .plain t) (maxLength : Int) : tableVtype ty maxLength ≠ .unsupported := by
  rw [tableVtype_eq]
  cases ty with
  | plain t => exact absurd rfl (h t)
  | sized t n => cases t <;> simp [vtypeFromSqlType, SqlType.name, SizedType.name, oneOf_wide] <;> split_ifs <;> simp
  | large t => cases t <;> simp [vtypeFromSqlType, SqlType.name, LargeType.name, oneOf_wide] <;> split_ifs <;> simp
  | scaled t p s => cases t <;> simp [vtypeFromSqlType, SqlType.name, ScaledType.name, oneOf_wide]
  | timed t n => cases t <;> simp [vtypeFromSqlType, SqlType.name, TimedType.name, oneOf_wide]

/-- **Query and table columns.**  A type is the same in both exactly when it has no parameters, is not timestamp, and is
    not an xml of another length than -1 and 0. -/
theorem query_type_iff (ty : SqlType) (maxLength : Int) :
    queryVtype ty maxLength = tableVtype ty maxLength ↔ ty.Agrees maxLength := by
  obtain ⟨h0, hlen⟩ := name_short ty
  have hparam {rest : List Nat} (hsuffix : ty.suffix = 40 :: rest) (hplain : ∀ t, ty ≠ .plain t) :
      ¬ queryVtype ty maxLength = tableVtype ty maxLength := by
    rw [queryVtype_of_paren h0 hlen hsuffix]
    exact fun heq => tableVtype_ne hplain maxLength heq.symm
  cases ty with
  | plain t =>
    have hquery : queryVtype (.plain t) maxLength = descVtype (wide t.name) (ulong maxLength) := by
      show descVtype (copyText 64 (wide t.name ++ [])) (ulong maxLength) = _
      rw [append_nil]
      exact congrArg (descVtype · _) (copyText_name h0 hlen)
    rw [hquery, tableVtype_eq]
    cases t <;> simp [descVtype, vtypeFromSqlType, SqlType.name, PlainType.name, oneOf_wide, SqlType.Agrees,
      or_iff_not_imp_left]
  | sized t n | large t | scaled t p s | timed t n => exact iff_of_false (hparam rfl (by simp)) id

/-- nvarchar(50), decimal(10,2), varchar(max), datetime2(7) and timestamp. -/
theorem query_types_differ :
    SqlType.systemTypeName (.sized .nvarchar 50) = wide "nvarchar(50)" ∧
      queryVtype (.sized .nvarchar 50) 100 = .unsupported ∧ tableVtype (.sized .nvarchar 50) 100 = .text ∧
      queryVtype (.scaled .decimal 10 2) 9 = .unsupported ∧ tableVtype (.scaled .decimal 10 2) 9 = .decimal ∧
      queryVtype (.large .varchar) (-1) = .unsupported ∧ tableVtype (.large .varchar) (-1) = .bigtext ∧
      queryVtype (.timed .datetime2 7) 8 = .unsupported ∧ tableVtype (.timed .datetime2 7) 8 = .datetime ∧
      queryVtype (.plain .timestamp) 8 = .unsupported ∧ tableVtype (.plain .timestamp) 8 = .blob := by
  decide +kernel

end VirtualMssql.QueryTypes
