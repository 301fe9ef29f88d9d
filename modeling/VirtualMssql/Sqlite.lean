/-
  SQLITE VALUES — what the module sees of an `sqlite3_value`.

  A value is NULL, a 64-bit integer, a real, text (its UTF-8 bytes) or a blob.  The module asks for the
  numeric type of a value (`sqlite3_value_numeric_type`), which also takes text that reads as an
  integer for an integer: optional blanks, a sign, digits, optional blanks, inside the 64-bit range.
  A real never is one.
-/
import VirtualMssql.Lib.TSqlLex
import Mathlib.Data.Rat.Defs

namespace VirtualMssql

open TSql (asciiDigit asciiSpace)

/-- `sqlite3_value`. -/
inductive SqliteValue
  | null
  | integer (i : Int)
  | real (r : ℚ)
  | text (t : List Nat)
  | blob (b : List Nat)
  deriving DecidableEq

def int64Min : Int := -9223372036854775808
def int64Max : Int := 9223372036854775807

/-- The value of a digit string, most significant digit first. -/
def digitsValue (ds : List Nat) : Nat := ds.foldl (fun v d => v * 10 + (d - 48)) 0

/-- Text that reads as a 64-bit integer. -/
def textInteger (t : List Nat) : Option Int :=
  let body := (t.dropWhile asciiSpace).reverse.dropWhile asciiSpace |>.reverse
  let (neg, ds) := match body with
    | 45 :: ds => (true, ds)
    | 43 :: ds => (false, ds)
    | ds => (false, ds)
  if ds.isEmpty || !ds.all asciiDigit then none
  else
    let v : Int := if neg then -(digitsValue ds : Int) else digitsValue ds
    if int64Min ≤ v ∧ v ≤ int64Max then some v else none

/-- `sqlite3_value_numeric_type(v) == SQLITE_INTEGER`, and then `sqlite3_value_int64(v)`. -/
def SqliteValue.numericInteger : SqliteValue → Option Int
  | .integer i => some i
  | .text t => textInteger t
  | _ => none

example : (SqliteValue.text (TSql.wide " -12 ")).numericInteger = some (-12) := by decide
example : (SqliteValue.text (TSql.wide "12x")).numericInteger = none := by decide

end VirtualMssql
