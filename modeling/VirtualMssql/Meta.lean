/-
  METADATA — the type registry's view of a column, stable keys, and the identifier check.

  From `vms_client.h` (column types), `vms_meta.h` (columns and keys) and `vms_identity.c`
  (`vms_meta_ident_valid`).  Names are the bytes of their UTF-8 text without the terminating NUL; a
  buffer handed to a function that takes a C string is read up to its first zero byte (`cstr`).
-/
import VirtualMssql.Lib.TSqlLex
import VirtualMssql.Lib.Utf
import Mathlib.Data.List.TakeWhile

namespace VirtualMssql

open List
open TSql (asciiAlpha asciiDigit asciiLower wide)

/-- `VmsColType`: the decode plan of a column. -/
inductive VmsColType
  | int64
  | float64
  | text
  | bigtext
  | blob
  | decimal
  | datetime
  | guid
  | spatial
  | unsupported
  deriving DecidableEq, Repr

/-- `VmsMetaColumn`. -/
structure VmsMetaColumn where
  name : List Nat
  typeName : List Nat
  vtype : VmsColType
  isNullable : Bool := false
  isIdentity : Bool := false
  isComputed : Bool := false
  maxLength : Nat := 0
  precision : Nat := 0
  scale : Nat := 0
  deriving DecidableEq, Repr

/-- `VmsKeyColumn`. -/
structure VmsKeyColumn where
  name : List Nat
  vtype : VmsColType
  deriving DecidableEq, Repr

def vmsMetaMaxKeyParts : Nat := 16

/-- `VmsStableKey`, less the index it was taken from: the key parts in key order. -/
structure VmsStableKey where
  parts : List VmsKeyColumn
  deriving DecidableEq, Repr

/-- The C string at the start of a buffer. -/
def cstr (buf : List Nat) : List Nat := buf.takeWhile fun b => b != 0

/-- What stands behind the C string: nothing, or the NUL that ended it and the rest. -/
theorem cstr_append (buf : List Nat) : ∃ z, buf = cstr buf ++ z ∧ (z = [] ∨ ∃ rest, z = 0 :: rest) := by
  refine ⟨buf.dropWhile fun b => b != 0, takeWhile_append_dropWhile.symm, ?_⟩
  cases hd : buf.dropWhile fun b => b != 0 with
  | nil => exact .inl rfl
  | cons c rest =>
    have hc := head_dropWhile_not (fun b => b != 0) (l := buf) (by rw [hd]; simp)
    simp only [hd, head_cons, bne_eq_false_iff_eq] at hc
    exact .inr ⟨rest, by rw [hc]⟩

theorem cstr_eq_self_iff {buf : List Nat} : cstr buf = buf ↔ 0 ∉ buf := by
  rw [cstr, takeWhile_eq_self_iff]
  constructor
  · intro h hm
    exact absurd (h 0 hm) (by decide)
  · intro h b hb
    simp only [bne_iff_ne]
    rintro rfl
    exact h hb

/-- `_stricmp(a, b) == 0` on C strings, in the "C" locale. -/
def stricmp (a b : List Nat) : Bool := a.map asciiLower == b.map asciiLower

theorem stricmp_refl (a : List Nat) : stricmp a a = true := by simp [stricmp]

/-! ## Numbers as text -/

/-- The text `%ld` prints for a number that is not negative. -/
def decimal (n : Nat) : List Nat := (Nat.toDigits 10 n).map Char.toNat

theorem asciiDigit_of_mem_decimal {n c : Nat} (h : c ∈ decimal n) : asciiDigit c = true := by
  obtain ⟨d, hd, rfl⟩ := mem_map.mp h
  have hdigit := Nat.isDigit_of_mem_toDigits (by decide) (by decide) hd
  simpa [asciiDigit, Char.isDigit, UInt32.le_iff_toNat_le] using hdigit

/-! ## `vms_meta_ident_valid` -/

/-- The characters an identifier may have: alphanumeric (in the "C" locale), `_`, `#`, `@`, `$`. -/
def identChar (c : Nat) : Bool :=
  asciiAlpha c || asciiDigit c || c == 95 || c == 35 || c == 64 || c == 36

/-- The loop: every byte is an identifier character, at an index below the bound. -/
def identScan (maxChars : Nat) : Nat → List Nat → Bool
  | _, [] => true
  | n, c :: cs =>
    if !identChar c then false else if maxChars ≤ n then false else identScan maxChars (n + 1) cs

/-- `vms_meta_ident_valid` on the C string `name`. -/
def vmsMetaIdentValid (name : List Nat) (maxChars : Nat) : Bool :=
  !name.isEmpty && identScan maxChars 0 name

theorem identScan_mem {maxChars : Nat} : ∀ (cs : List Nat) (n : Nat),
    identScan maxChars n cs = true → ∀ c ∈ cs, identChar c = true
  | [], _, _, c, hc => absurd hc not_mem_nil
  | d :: cs, n, h, c, hc => by
    rw [identScan] at h
    split_ifs at h with hd hn
    rcases mem_cons.mp hc with he | hm
    · subst he; simpa using hd
    · exact identScan_mem cs (n + 1) h c hm

theorem identChar_of_valid {name : List Nat} {maxChars : Nat}
    (h : vmsMetaIdentValid name maxChars = true) : ∀ c ∈ name, identChar c = true := by
  rw [vmsMetaIdentValid, Bool.and_eq_true] at h
  exact identScan_mem name 0 h.2

theorem identChar_lt {c : Nat} (h : identChar c = true) : c < 0x80 := by
  simp only [identChar, asciiAlpha, asciiDigit, Bool.or_eq_true, Bool.and_eq_true,
    decide_eq_true_eq, beq_iff_eq] at h
  omega

/-- Identifier characters are none of the delimiters of T-SQL. -/
theorem identChar_not_delim {c : Nat} (h : identChar c = true) : c ≠ 39 ∧ c ≠ 93 ∧ c ≠ 63 := by
  simp only [identChar, asciiAlpha, asciiDigit, Bool.or_eq_true, Bool.and_eq_true,
    decide_eq_true_eq, beq_iff_eq] at h
  omega

end VirtualMssql
