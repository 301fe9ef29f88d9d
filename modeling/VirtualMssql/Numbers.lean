/-
  NUMBERS AS TEXT — the C library's `%lld`, `_strtoi64`, `%.17g` and `strtod`.

  Integers are read and printed here: `_strtoi64` skips blanks, takes a sign and the longest run of
  digits, and clamps to 64 bits; what follows the digits is not looked at.  On what `%lld` prints it is
  the inverse (`strtoi64_lldText`).

  Doubles are an abstract type with the contract of the library: seventeen significant digits are enough
  to read the same double back, and a finite one is printed as a decimal numeral.
-/
import VirtualMssql.Meta
import VirtualMssql.Sqlite
import VirtualMssql.Lib.TSqlDml
import Mathlib.Algebra.Group.Nat.Defs
import Mathlib.Data.List.Induction

namespace VirtualMssql

open List
open TSql (asciiDigit asciiSpace wide Numeral)

/-! ## Integers -/

theorem digitsValue_decimal (n : Nat) : digitsValue (decimal n) = n := by
  have h := Nat.ofDigitChars_toDigits (b := 10) (n := n) (by decide) (by decide)
  rw [Nat.ofDigitChars_eq_foldl] at h
  have hzero : '0'.toNat = 48 := rfl
  simp only [Nat.mul_comm 10, hzero] at h
  rw [digitsValue, decimal, foldl_map]
  exact h

theorem decimal_injective {m n : Nat} (h : decimal m = decimal n) : m = n := by
  rw [← digitsValue_decimal m, h, digitsValue_decimal]

theorem decimal_ne_nil (n : Nat) : decimal n ≠ [] := by
  simp [decimal]

theorem decimal_length {k : Nat} : ∀ {n : Nat}, n < 10 ^ (k + 1) → (decimal n).length ≤ k + 1 := by
  induction k with
  | zero =>
    intro n hn
    have hn' : n < 10 := by omega
    simp [decimal, Nat.toDigits_of_lt_base hn']
  | succ k ih =>
    intro n hn
    have hdiv : n / 10 < 10 ^ (k + 1) := by
      rw [Nat.pow_succ] at hn
      omega
    have hlen := ih hdiv
    rw [decimal, Nat.toDigits_eq_if (by decide)]
    split_ifs
    · simp
    · rw [length_map, length_append]
      rw [decimal, length_map] at hlen
      simp only [length_singleton]
      omega

theorem decimal_step (n : Nat) : decimal n = if n < 10 then [n + 48] else decimal (n / 10) ++ [n % 10 + 48] := by
  have hchar : ∀ d < 10, (Nat.digitChar d).toNat = d + 48 := by decide
  rw [decimal, Nat.toDigits_eq_if (by decide)]
  split_ifs with h
  · rw [map_singleton, hchar n h]
  · rw [map_append, map_singleton, hchar _ (Nat.mod_lt n (by decide))]
    rfl

/-- No zero in front of another digit. -/
def PlainDigits (ds : List Nat) : Prop := ds = [48] ∨ ds.head? ≠ some 48

theorem plainDigits_decimal (n : Nat) : PlainDigits (decimal n) := by
  induction n using Nat.strong_induction_on with
  | h n ih =>
    rw [decimal_step]
    split_ifs with h
    · by_cases h0 : n = 0
      · exact .inl (by rw [h0])
      · exact .inr (by simp [h0])
    · refine .inr ?_
      rw [head?_append_of_ne_nil _ (decimal_ne_nil _)]
      rcases ih (n / 10) (by omega) with h0 | hne
      · have hzero : n / 10 = 0 := decimal_injective (h0.trans (by decide))
        omega
      · exact hne

theorem digitsValue_append (ds : List Nat) (d : Nat) : digitsValue (ds ++ [d]) = digitsValue ds * 10 + (d - 48) := by
  rw [digitsValue, foldl_append]
  rfl

/-- A plain digit string is the decimal of its value. -/
theorem decimal_digitsValue {ds : List Nat} (hds : ∀ c ∈ ds, asciiDigit c = true) (hne : ds ≠ [])
    (hplain : PlainDigits ds) : decimal (digitsValue ds) = ds := by
  induction ds using List.reverseRecOn with
  | nil => exact absurd rfl hne
  | append_singleton ds d ih =>
    have hd := hds d (by simp)
    simp only [asciiDigit, Bool.and_eq_true, decide_eq_true_eq] at hd
    rw [digitsValue_append, decimal_step]
    by_cases hnil : ds = []
    · subst hnil
      rw [if_pos (by simp only [digitsValue, foldl_nil]; omega)]
      simp only [digitsValue, foldl_nil, nil_append, List.cons.injEq, and_true]
      omega
    · have hhead : ds.head? ≠ some 48 := by
        rcases hplain with h | h
        · have hlen := congrArg List.length h
          have hpos := length_pos_iff.mpr hnil
          simp only [length_append, length_singleton] at hlen
          omega
        · rwa [head?_append_of_ne_nil _ hnil] at h
      have hdec := ih (fun c hc => hds c (mem_append_left _ hc)) hnil (.inr hhead)
      have hpos : 0 < digitsValue ds := by
        refine Nat.pos_of_ne_zero fun h0 => hhead ?_
        rw [← hdec, h0]
        rfl
      have hdiv : (digitsValue ds * 10 + (d - 48)) / 10 = digitsValue ds := by omega
      have hmod : (digitsValue ds * 10 + (d - 48)) % 10 + 48 = d := by omega
      rw [if_neg (by omega), hdiv, hmod, hdec]

/-- `long long`. -/
structure I64 where
  val : Int
  lo : int64Min ≤ val
  hi : val ≤ int64Max
  deriving DecidableEq

/-- The nearest number of 64 bits. -/
def I64.clamp (v : Int) : I64 :=
  if h : v < int64Min then ⟨int64Min, by decide, by decide⟩
  else if h' : int64Max < v then ⟨int64Max, by decide, by decide⟩
  else ⟨v, by omega, by omega⟩

theorem I64.clamp_val (i : I64) : I64.clamp i.val = i := by
  have hlo := i.lo
  have hhi := i.hi
  rw [I64.clamp, dif_neg (by omega), dif_neg (by omega)]

theorem bmod_range (v : Int) : int64Min ≤ v.bmod (2 ^ 64) ∧ v.bmod (2 ^ 64) ≤ int64Max := by
  have hlo := Int.le_bmod (x := v) (m := 2 ^ 64) (by decide)
  have hhi := Int.bmod_lt (x := v) (m := 2 ^ 64) (by decide)
  have hm : ((2 ^ 64 : Nat) : Int) = 18446744073709551616 := by decide
  rw [hm] at hlo hhi
  simp only [int64Min, int64Max]
  omega

/-- The number of 64 bits that is left when the rest is dropped. -/
def I64.wrap (v : Int) : I64 := ⟨v.bmod (2 ^ 64), (bmod_range v).1, (bmod_range v).2⟩

theorem I64.ext {i j : I64} (h : i.val = j.val) : i = j := by
  cases i
  cases j
  congr

theorem I64.wrap_val (i : I64) : I64.wrap i.val = i := by
  have hlo := i.lo
  have hhi := i.hi
  have hm : ((2 ^ 64 : Nat) : Int) = 18446744073709551616 := by decide
  simp only [int64Min, int64Max] at hlo hhi
  refine I64.ext (Int.bmod_eq_of_le ?_ ?_)
  · rw [hm]; omega
  · rw [hm]; omega

theorem I64.wrap_of_range {v : Int} (hlo : int64Min ≤ v) (hhi : v ≤ int64Max) : (I64.wrap v).val = v :=
  congrArg I64.val (I64.wrap_val ⟨v, hlo, hhi⟩)

theorem I64.wrap_mul (v w : Int) : I64.wrap ((I64.wrap v).val * w) = I64.wrap (v * w) := I64.ext Int.bmod_mul_bmod

theorem I64.wrap_add (v w : Int) : I64.wrap ((I64.wrap v).val + w) = I64.wrap (v + w) := I64.ext Int.bmod_add_bmod

/-- `%lld`. -/
def lldText (i : Int) : List Nat := if i < 0 then 45 :: decimal i.natAbs else decimal i.natAbs

/-- An optional sign. -/
def takeSign : List Nat → Bool × List Nat
  | 45 :: r => (true, r)
  | 43 :: r => (false, r)
  | r => (false, r)

/-- `_strtoi64(text, &end, 10)`; nothing when `end == text`. -/
def strtoi64 (text : List Nat) : Option I64 :=
  let (neg, rest) := takeSign (text.dropWhile asciiSpace)
  let digits := rest.takeWhile asciiDigit
  if digits = [] then none
  else some (I64.clamp (if neg then -(digitsValue digits : Int) else digitsValue digits))

/-- A digit is no sign. -/
theorem takeSign_digit {q : List Nat} (hq : ∀ c ∈ q.head?, asciiDigit c = true) : takeSign q = (false, q) := by
  unfold takeSign
  split
  · exact absurd (hq _ rfl) (by decide)
  · exact absurd (hq _ rfl) (by decide)
  · rfl

theorem takeSign_decimal (n : Nat) : takeSign (decimal n) = (false, decimal n) :=
  takeSign_digit fun _ hc => asciiDigit_of_mem_decimal (mem_of_mem_head? hc)

theorem takeWhile_decimal (n : Nat) : (decimal n).takeWhile asciiDigit = decimal n :=
  takeWhile_eq_self_iff.mpr fun _ h => asciiDigit_of_mem_decimal h

theorem not_space_of_digit {c : Nat} (h : asciiDigit c = true) : asciiSpace c = false :=
  TSql.CharClass.ascii.digit_not_space c h

/-- **Printing and reading an integer.** -/
theorem strtoi64_lldText (i : I64) : strtoi64 (lldText i.val) = some i := by
  have hspace : (lldText i.val).dropWhile asciiSpace = lldText i.val := by
    rw [dropWhile_eq_self_iff]
    intro hl
    unfold lldText
    split_ifs
    · show ¬ asciiSpace 45 = true
      decide
    · have hmem := head_mem (decimal_ne_nil i.val.natAbs)
      have hs := not_space_of_digit (asciiDigit_of_mem_decimal hmem)
      rw [head_eq_getElem] at hs
      simp [hs]
  rw [strtoi64, hspace, lldText]
  split_ifs with hneg
  · simp only [takeSign, takeWhile_decimal, digitsValue_decimal, if_neg (decimal_ne_nil _), if_true]
    have habs : -(i.val.natAbs : Int) = i.val := by omega
    rw [habs, I64.clamp_val]
  · simp only [takeSign_decimal, takeWhile_decimal, digitsValue_decimal, if_neg (decimal_ne_nil _),
      Bool.false_eq_true, if_false]
    have habs : (i.val.natAbs : Int) = i.val := by omega
    rw [habs, I64.clamp_val]

theorem lldText_length (i : I64) : (lldText i.val).length ≤ 20 := by
  have hlo := i.lo
  have hhi := i.hi
  simp only [int64Min, int64Max] at hlo hhi
  have hlen : (decimal i.val.natAbs).length ≤ 19 := decimal_length (k := 18) (by omega)
  rw [lldText]
  split_ifs
  · rw [length_cons]; omega
  · omega

theorem mem_lldText {i : Int} {c : Nat} (h : c ∈ lldText i) : c = 45 ∨ asciiDigit c = true := by
  rw [lldText] at h
  split_ifs at h
  · exact (mem_cons.mp h).imp_right asciiDigit_of_mem_decimal
  · exact .inr (asciiDigit_of_mem_decimal h)

/-! ## Doubles -/

/-- `double`, as `%.17g` prints it and `strtod` reads it. -/
structure DoubleText (F : Type) where
  finite : F → Bool
  print : F → List Nat
  /-- `strtod`; nothing when `end == text`. -/
  strtod : List Nat → Option F
  strtod_print : ∀ f, strtod (print f) = some f
  print_length : ∀ f, (print f).length < 40
  print_ascii : ∀ f, ∀ c ∈ print f, 0 < c ∧ c < 128
  numeral : ∀ f, finite f = true → ∃ t, Numeral t ∧ (print f = t ∨ print f = 45 :: t)

/-- A library that knows two doubles. -/
def twoDoubles : DoubleText Bool where
  finite _ := true
  print b := if b then wide "1.5" else wide "-2e+20"
  strtod t := if t = wide "1.5" then some true else if t = wide "-2e+20" then some false else none
  strtod_print := by decide
  print_length := by decide
  print_ascii := by decide
  numeral b _ := by
    cases b with
    | true =>
      exact ⟨_, ⟨[49], [46, 53], [], rfl, by decide, by decide, .inr ⟨[53], rfl, by decide⟩, .inl rfl⟩,
        .inl (by decide)⟩
    | false =>
      exact ⟨_, ⟨[50], [], [101, 43, 50, 48], rfl, by decide, by decide, .inl rfl,
        .inr ⟨43, [50, 48], rfl, by decide, by decide⟩⟩, .inr (by decide)⟩

end VirtualMssql
