/-
  UTF-8 TO UTF-16 — decoding a byte string into wide text, one byte at a time.

  `Pending` says how many continuation bytes are still owed and in which range the next one must lie,
  so overlong forms, surrogates and code points past U+10FFFF never complete.  A byte that does not fit
  yields an ERROR MARK (`none`) and is then read afresh.  Two readings come out of the one run:

  * `utf8ToWide`  — every mark replaced by U+FFFD (conversion with no flags);
  * `utf8Strict`  — refused if there is any mark (conversion with "error on invalid characters").

  What the development needs from it is how ASCII behaves: an ASCII byte always resynchronises
  (`utf8ToWide_ascii`), and an ASCII unit in the result was an ASCII byte of the source
  (`mem_of_utf8ToWide`) — no other byte string can smuggle a `;` or a `]` into the wide text.
-/
import Mathlib.Data.List.Basic

namespace VirtualMssql.Utf

open List

/-- What the decoder owes: `need` more continuation bytes, the bits so far, and the range of the next
    byte. -/
inductive Pending
  | idle
  | owe (need : Nat) (acc lo hi : Nat)
  deriving DecidableEq, Repr

/-- A code point as UTF-16 units. -/
def units (cp : Nat) : List Nat :=
  if cp < 0x10000 then [cp]
  else [0xD800 + (cp - 0x10000) / 0x400, 0xDC00 + (cp - 0x10000) % 0x400]

/-- A byte where a sequence may start. -/
def lead (b : Nat) : List (Option Nat) × Pending :=
  if b < 0x80 then ([some b], .idle)
  else if 0xC2 ≤ b ∧ b ≤ 0xDF then ([], .owe 0 (b % 32) 0x80 0xBF)
  else if b = 0xE0 then ([], .owe 1 0 0xA0 0xBF)
  else if b = 0xED then ([], .owe 1 13 0x80 0x9F)
  else if 0xE1 ≤ b ∧ b ≤ 0xEF then ([], .owe 1 (b % 16) 0x80 0xBF)
  else if b = 0xF0 then ([], .owe 2 0 0x90 0xBF)
  else if 0xF1 ≤ b ∧ b ≤ 0xF3 then ([], .owe 2 (b % 8) 0x80 0xBF)
  else if b = 0xF4 then ([], .owe 2 4 0x80 0x8F)
  else ([none], .idle)

/-- A byte that does not continue what is pending: an error mark, then the byte is read afresh. -/
def resync (b : Nat) : List (Option Nat) × Pending := (none :: (lead b).1, (lead b).2)

/-- One byte.  `owe 0` is served by the next byte, `owe (n + 1)` by `n + 2` more. -/
def byteStep : Pending → Nat → List (Option Nat) × Pending
  | .idle, b => lead b
  | .owe 0 acc lo hi, b =>
    if lo ≤ b ∧ b ≤ hi then ((units (acc * 64 + b % 64)).map some, .idle) else resync b
  | .owe (n + 1) acc lo hi, b =>
    if lo ≤ b ∧ b ≤ hi then ([], .owe n (acc * 64 + b % 64) 0x80 0xBF) else resync b

/-- The decoded units, with a mark for every error. -/
def marksFrom : Pending → List Nat → List (Option Nat)
  | .idle, [] => []
  | .owe _ _ _ _, [] => [none]
  | p, b :: bs => (byteStep p b).1 ++ marksFrom (byteStep p b).2 bs

def utf8Marks (bs : List Nat) : List (Option Nat) := marksFrom .idle bs

/-- **Conversion with no flags**: invalid sequences become U+FFFD. -/
def utf8ToWide (bs : List Nat) : List Nat := (utf8Marks bs).map fun m => m.getD 0xFFFD

/-- **Strict conversion**: refused on any invalid sequence. -/
def utf8Strict (bs : List Nat) : Option (List Nat) :=
  if none ∈ utf8Marks bs then none else some (utf8ToWide bs)

theorem marksFrom_cons (p : Pending) (b : Nat) (bs : List Nat) :
    marksFrom p (b :: bs) = (byteStep p b).1 ++ marksFrom (byteStep p b).2 bs := by
  cases p <;> rfl

/-! ## What is pending can only complete to a non-ASCII code point -/

/-- The bits and the range of a pending sequence force its code point past ASCII: the last byte needs
    two bits already read, an earlier one a bit or a raised lower bound. -/
def Pending.NonAscii : Pending → Prop
  | .idle => True
  | .owe 0 acc lo hi => 0x80 ≤ lo ∧ hi ≤ 0xBF ∧ 2 ≤ acc
  | .owe (_ + 1) acc lo hi => 0x80 ≤ lo ∧ hi ≤ 0xBF ∧ (1 ≤ acc ∨ 0x90 ≤ lo)

/-- **A lead byte** stands for itself, begins a sequence that completes past ASCII, or is an error. -/
theorem lead_cases (b : Nat) : lead b = ([some b], .idle) ∨
    (∃ n acc lo hi, lead b = ([], .owe n acc lo hi) ∧ (Pending.owe n acc lo hi).NonAscii) ∨
      lead b = ([none], .idle) := by
  fun_cases lead b
  case case1 => exact .inl rfl
  case case9 => exact .inr (.inr rfl)
  all_goals exact .inr (.inl ⟨_, _, _, _, rfl, by decide, by decide, by omega⟩)

theorem lead_nonAscii (b : Nat) : (lead b).2.NonAscii := by
  rcases lead_cases b with h | ⟨n, acc, lo, hi, h, hpast⟩ | h
  · rw [h]
    trivial
  · rw [h]
    exact hpast
  · rw [h]
    trivial

variable {p : Pending}

theorem byteStep_nonAscii (hp : p.NonAscii) (b : Nat) : (byteStep p b).2.NonAscii := by
  match p, hp with
  | .idle, _ => exact lead_nonAscii b
  | .owe 0 acc lo hi, _ =>
    rw [byteStep]
    split_ifs
    · trivial
    · exact lead_nonAscii b
  | .owe (n + 1) acc lo hi, ⟨hlo, hhi, hacc⟩ =>
    rw [byteStep]
    split_ifs with hb
    · have h2 : 2 ≤ acc * 64 + b % 64 := by
        rcases hacc with h | h <;> omega
      cases n with
      | zero => exact ⟨by omega, by omega, h2⟩
      | succ k => exact ⟨by omega, by omega, .inl (by omega)⟩
    · exact lead_nonAscii b

/-! ## ASCII resynchronises -/

theorem byteStep_ascii (hp : p.NonAscii) {c : Nat} (hc : c < 0x80) :
    byteStep p c = (marksFrom p [] ++ [some c], .idle) := by
  have hl : lead c = ([some c], .idle) := by rw [lead, if_pos hc]
  match p, hp with
  | .idle, _ => exact hl
  | .owe 0 acc lo hi, hp => rw [byteStep, if_neg (by have := hp.1; omega), resync, hl]; rfl
  | .owe (n + 1) acc lo hi, hp => rw [byteStep, if_neg (by have := hp.1; omega), resync, hl]; rfl

/-- The marks of `a` are complete before an ASCII byte: decoding starts afresh after it. -/
theorem marksFrom_ascii {c : Nat} (hc : c < 0x80) (b : List Nat) : ∀ (a : List Nat) (p : Pending),
    p.NonAscii → marksFrom p (a ++ c :: b) = marksFrom p a ++ some c :: utf8Marks b
  | [], p, hp => by
    rw [nil_append, marksFrom_cons, byteStep_ascii hp hc, append_assoc]
    rfl
  | d :: a, p, hp => by
    rw [cons_append, marksFrom_cons, marksFrom_cons, marksFrom_ascii hc b a _ (byteStep_nonAscii hp d), append_assoc]

theorem utf8ToWide_ascii {c : Nat} (hc : c < 0x80) (a b : List Nat) :
    utf8ToWide (a ++ c :: b) = utf8ToWide a ++ c :: utf8ToWide b := by
  simp [utf8ToWide, utf8Marks, marksFrom_ascii hc b a .idle trivial]

/-- ASCII text is decoded byte by byte. -/
theorem utf8Marks_of_ascii : ∀ {bs : List Nat}, (∀ b ∈ bs, b < 0x80) → utf8Marks bs = bs.map some
  | [], _ => rfl
  | c :: bs, h => by
    have hc := marksFrom_ascii (h c mem_cons_self) bs [] .idle trivial
    rw [utf8Marks_of_ascii fun b hb => h b (mem_cons_of_mem c hb)] at hc
    exact hc

variable {bs : List Nat}

/-- ASCII text is its own wide text. -/
theorem utf8ToWide_of_ascii (h : ∀ b ∈ bs, b < 0x80) : utf8ToWide bs = bs := by
  rw [utf8ToWide, utf8Marks_of_ascii h, map_map]
  exact map_id bs

theorem utf8Strict_of_ascii (h : ∀ b ∈ bs, b < 0x80) : utf8Strict bs = some bs := by
  rw [utf8Strict, utf8ToWide_of_ascii h, utf8Marks_of_ascii h, if_neg (by simp)]

/-! ## ASCII units come from ASCII bytes -/
variable {w : Nat}

theorem units_ge {cp : Nat} (hcp : 0x80 ≤ cp) (hw : w ∈ units cp) : 0x80 ≤ w := by
  unfold units at hw
  split_ifs at hw with h
  · simp at hw; omega
  · simp at hw; omega

theorem lead_mem {b : Nat} (hw : some w ∈ (lead b).1) : w = b := by
  rcases lead_cases b with h | ⟨n, acc, lo, hi, h, -⟩ | h
  · rw [h] at hw
    exact Option.some.inj (mem_singleton.mp hw)
  · rw [h] at hw
    cases hw
  · rw [h] at hw
    cases mem_singleton.mp hw

theorem byteStep_mem (hp : p.NonAscii) {b : Nat} (hw : some w ∈ (byteStep p b).1) (hlt : w < 0x80) : w = b := by
  have hres : some w ∈ (resync b).1 → w = b := by
    intro h
    rcases mem_cons.mp h with h | h
    · cases h
    · exact lead_mem h
  match p, hp with
  | .idle, _ => exact lead_mem hw
  | .owe 0 acc lo hi, hp =>
    rw [byteStep] at hw
    split_ifs at hw with hb
    · simp only [mem_map, Option.some.injEq, exists_eq_right] at hw
      have := units_ge (by have := hp.2.2; omega) hw
      omega
    · exact hres hw
  | .owe (n + 1) acc lo hi, _ =>
    rw [byteStep] at hw
    split_ifs at hw with hb
    · cases hw
    · exact hres hw

theorem marksFrom_mem {w : Nat} (hlt : w < 0x80) : ∀ (bs : List Nat) (p : Pending), p.NonAscii →
    some w ∈ marksFrom p bs → w ∈ bs
  | [], .idle, _, h => by simp [marksFrom] at h
  | [], .owe .., _, h => by simp [marksFrom] at h
  | b :: bs, p, hp, h => by
    rw [marksFrom_cons] at h
    rcases mem_append.mp h with h | h
    · exact byteStep_mem hp h hlt ▸ mem_cons_self
    · exact mem_cons_of_mem b (marksFrom_mem hlt bs _ (byteStep_nonAscii hp b) h)

/-- **No smuggling**: an ASCII unit of the wide text is a byte of the source. -/
theorem mem_of_utf8ToWide (hlt : w < 0x80) (h : w ∈ utf8ToWide bs) : w ∈ bs := by
  obtain ⟨m, hm, he⟩ := mem_map.mp h
  cases m with
  | none => simp at he; omega
  | some v =>
    simp only [Option.getD_some] at he
    subst he
    exact marksFrom_mem hlt bs .idle trivial hm

theorem mem_of_utf8Strict {t : List Nat} (hlt : w < 0x80) (ht : utf8Strict bs = some t) (h : w ∈ t) : w ∈ bs := by
  rw [utf8Strict] at ht
  split_ifs at ht
  cases ht
  exact mem_of_utf8ToWide hlt h

/-! ## Lengths -/

/-- The units that pending bytes may still bring beyond one for each byte to come. -/
def Pending.credit : Pending → Nat
  | .idle => 0
  | .owe .. => 1

theorem lead_length (b : Nat) : (lead b).1.length + (lead b).2.credit = 1 := by
  rcases lead_cases b with h | ⟨n, acc, lo, hi, h, -⟩ | h <;> rw [h] <;> rfl

theorem units_length (cp : Nat) : (units cp).length ≤ 2 := by
  unfold units
  split_ifs <;> simp

theorem byteStep_length (p : Pending) (b : Nat) :
    (byteStep p b).1.length + (byteStep p b).2.credit ≤ 1 + p.credit := by
  have hlead := lead_length b
  match p with
  | .idle => exact Nat.le_of_eq hlead
  | .owe 0 acc lo hi =>
    have hunits := units_length (acc * 64 + b % 64)
    rw [byteStep]
    split_ifs
    · simpa [Pending.credit] using hunits
    · show (lead b).1.length + 1 + (lead b).2.credit ≤ 1 + 1
      omega
  | .owe (n + 1) acc lo hi =>
    rw [byteStep]
    split_ifs
    · simp [Pending.credit]
    · show (lead b).1.length + 1 + (lead b).2.credit ≤ 1 + 1
      omega

theorem marksFrom_length_le : ∀ (bs : List Nat) (p : Pending), (marksFrom p bs).length ≤ bs.length + p.credit
  | [], .idle => Nat.le_refl 0
  | [], .owe .. => Nat.le_refl 1
  | b :: bs, p => by
    have hstep := byteStep_length p b
    have ih := marksFrom_length_le bs (byteStep p b).2
    rw [marksFrom_cons, length_append, length_cons]
    omega

/-- No more units than bytes. -/
theorem utf8ToWide_length_le (bs : List Nat) : (utf8ToWide bs).length ≤ bs.length := by
  rw [utf8ToWide, length_map]
  exact marksFrom_length_le bs .idle

/-- What is pending brings a unit or a mark, whatever follows. -/
theorem marksFrom_owe_ne_nil : ∀ (bs : List Nat) (n acc lo hi : Nat), marksFrom (.owe n acc lo hi) bs ≠ []
  | [], _, _, _, _ => by simp [marksFrom]
  | b :: bs, 0, acc, lo, hi => by
    rw [marksFrom_cons, byteStep]
    split_ifs
    · unfold units
      split_ifs <;> simp
    · simp [resync]
  | b :: bs, n + 1, acc, lo, hi => by
    rw [marksFrom_cons, byteStep]
    split_ifs
    · simpa using marksFrom_owe_ne_nil bs n _ _ _
    · simp [resync]

theorem marksFrom_length_append : ∀ (a b : List Nat) (p : Pending),
    (marksFrom p a).length ≤ (marksFrom p (a ++ b)).length
  | [], b, .idle => Nat.zero_le _
  | [], b, .owe n acc lo hi => length_pos_iff.mpr (marksFrom_owe_ne_nil b n acc lo hi)
  | c :: a, b, p => by
    have ih := marksFrom_length_append a b (byteStep p c).2
    rw [cons_append, marksFrom_cons, marksFrom_cons, length_append, length_append]
    omega

/-- A part of a text, cut anywhere, has no more units than the text. -/
theorem utf8ToWide_length_cut {a b : List Nat} (h : a <+: b) : (utf8ToWide a).length ≤ (utf8ToWide b).length := by
  obtain ⟨c, rfl⟩ := h
  rw [utf8ToWide, utf8ToWide, length_map, length_map]
  exact marksFrom_length_append a c .idle

-- the text `aé€😀` and then an overlong `/`
example : utf8ToWide [0x61, 0xC3, 0xA9, 0xE2, 0x82, 0xAC, 0xF0, 0x9F, 0x98, 0x80, 0xC0, 0xAF] =
    [0x61, 0xE9, 0x20AC, 0xD83D, 0xDE00, 0xFFFD, 0xFFFD] := by decide

end VirtualMssql.Utf
