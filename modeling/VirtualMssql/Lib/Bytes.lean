/-
  BYTES — fields of a binary format, written one after another and read back in the same order.

  A field is a 32-bit number, least significant byte first, or a text closed by a zero byte.  Every field
  has a writer that gives its bytes and a reader that takes them off the front: reading what was written
  gives the value and whatever follows (`readLe32_le32`, `readText_append`), so a record is read field by
  field without a word about lengths.  `fnv1a` is the 64-bit FNV-1a sum of some bytes.
-/
import Mathlib.Data.List.TakeWhile
import Mathlib.Data.Nat.Bitwise

namespace VirtualMssql.Bytes

/-! ## Numbers -/

/-- The four bytes of a number, the least significant one first. -/
def le32 (v : Nat) : List Nat := [v % 256, v / 256 % 256, v / 65536 % 256, v / 16777216 % 256]

/-- A number off the front, if there are four bytes. -/
def readLe32 : List Nat → Option (Nat × List Nat)
  | a :: b :: c :: d :: rest => some (a + 256 * b + 65536 * c + 16777216 * d, rest)
  | _ => none

@[simp] theorem length_le32 (v : Nat) : (le32 v).length = 4 := rfl

theorem readLe32_le32 {v : Nat} (hv : v < 2 ^ 32) (rest : List Nat) : readLe32 (le32 v ++ rest) = some (v, rest) := by
  have hsum : v % 256 + 256 * (v / 256 % 256) + 65536 * (v / 65536 % 256) + 16777216 * (v / 16777216 % 256) = v := by
    omega
  show some (_, rest) = _
  rw [hsum]

/-! ## Texts -/

/-- A text off the front, up to the zero byte behind it; there must be one. -/
def readText (bytes : List Nat) : Option (List Nat × List Nat) :=
  match bytes.dropWhile (· != 0) with
  | [] => none
  | _ :: rest => some (bytes.takeWhile (· != 0), rest)

theorem readText_append {s : List Nat} (hs : 0 ∉ s) (rest : List Nat) :
    readText (s ++ 0 :: rest) = some (s, rest) := by
  have hall : ∀ b ∈ s, (b != 0) = true := by
    intro b hb
    simpa using fun h0 : b = 0 => hs (h0 ▸ hb)
  rw [readText, List.dropWhile_append_of_pos hall, List.takeWhile_append_of_pos hall]
  simp

/-! ## Sums -/

def fnvOffset : Nat := 1469598103934665603

def fnvPrime : Nat := 1099511628211

/-- The FNV-1a sum. -/
def fnv1a (bytes : List Nat) : Nat :=
  bytes.foldl (fun h b => (h ^^^ b) * fnvPrime % 2 ^ 64) fnvOffset

end VirtualMssql.Bytes
