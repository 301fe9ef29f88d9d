/-
  UTF-16 TO UTF-8 — reading wide text as code points and writing them as bytes.

  `points` pairs the surrogates up; one that stands alone becomes U+FFFD (conversion with no flags).
  `utf8Of` writes a code point in one to four bytes.

  * `points_utf16` — of well-formed UTF-16 the reading is exactly the code points it was made from;
  * `length_points` — of ANY wide text it keeps the number of units, since U+FFFD is one unit;
  * `utf8Strict_flatMap` — what is written is read back by the strict decoder, so the bytes determine
    the wide text (`utf16_eq_of_utf8_eq`);
  * `length_utf8_points` — three bytes a unit are always enough;
  * `leBytes`, `wides` — the units in memory, low byte first, and back.
-/
import VirtualMssql.Lib.Utf

namespace VirtualMssql.Utf

open List

/-- A Unicode scalar value: a code point that is no surrogate. -/
def Scalar (cp : Nat) : Prop := cp < 0xD800 ∨ 0xE000 ≤ cp ∧ cp < 0x110000

instance (cp : Nat) : Decidable (Scalar cp) := inferInstanceAs (Decidable (_ ∨ _))

/-- A code point as UTF-8 bytes. -/
def utf8Of (cp : Nat) : List Nat :=
  if cp < 0x80 then [cp]
  else if cp < 0x800 then [0xC0 + cp / 64, 0x80 + cp % 64]
  else if cp < 0x10000 then [0xE0 + cp / 4096, 0x80 + cp / 64 % 64, 0x80 + cp % 64]
  else [0xF0 + cp / 262144, 0x80 + cp / 4096 % 64, 0x80 + cp / 64 % 64, 0x80 + cp % 64]

/-- A unit that is not half of a pair. -/
def alone (u : Nat) : Nat := if 0xD800 ≤ u ∧ u < 0xE000 then 0xFFFD else u

/-- The code points of wide text, U+FFFD for a surrogate without its partner. -/
def points : List Nat → List Nat
  | [] => []
  | [u] => [alone u]
  | u :: v :: us =>
    if (0xD800 ≤ u ∧ u < 0xDC00) ∧ 0xDC00 ≤ v ∧ v < 0xE000 then
      (0x10000 + (u - 0xD800) * 0x400 + (v - 0xDC00)) :: points us
    else alone u :: points (v :: us)

/-! ## Reading well-formed text -/

theorem alone_of_scalar {cp : Nat} (h : Scalar cp) : alone cp = cp := by
  rw [alone, if_neg]
  rcases h with h | h <;> omega

theorem points_single {u : Nat} (hu : ¬(0xD800 ≤ u ∧ u < 0xDC00)) : ∀ us, points (u :: us) = alone u :: points us
  | [] => rfl
  | v :: us => by rw [points, if_neg fun h => hu h.1]

theorem points_units {cp : Nat} (h : Scalar cp) (us : List Nat) : points (units cp ++ us) = cp :: points us := by
  rw [units]
  split_ifs with hlow
  · have hplain : ¬(0xD800 ≤ cp ∧ cp < 0xDC00) := by
      rcases h with h | h <;> omega
    rw [singleton_append, points_single hplain, alone_of_scalar h]
  · have htop : 0x10000 ≤ cp ∧ cp < 0x110000 := by
      rcases h with h | h <;> omega
    have hback : 0x10000 + (0xD800 + (cp - 0x10000) / 0x400 - 0xD800) * 0x400 +
        (0xDC00 + (cp - 0x10000) % 0x400 - 0xDC00) = cp := by omega
    rw [cons_append, singleton_append, points, if_pos (by omega), hback]

/-- **Well-formed UTF-16 reads as the code points it encodes.** -/
theorem points_utf16 : ∀ {cps : List Nat}, (∀ cp ∈ cps, Scalar cp) → points (cps.flatMap units) = cps
  | [], _ => rfl
  | cp :: cps, h => by
    rw [flatMap_cons, points_units (h cp mem_cons_self), points_utf16 fun c hc => h c (mem_cons_of_mem cp hc)]

/-! ## Reading any text -/

theorem scalar_alone {u : Nat} (hu : u < 0x10000) : Scalar (alone u) := by
  rw [alone]
  split_ifs with h
  · decide
  · rw [Scalar]
    omega

theorem units_alone {u : Nat} (hu : u < 0x10000) : (units (alone u)).length = 1 := by
  have hlow : alone u < 0x10000 := by
    rw [alone]
    split_ifs <;> omega
  rw [units, if_pos hlow, length_singleton]

theorem scalar_points : ∀ {us : List Nat}, (∀ u ∈ us, u < 0x10000) → ∀ cp ∈ points us, Scalar cp
  | [], _, cp, h => by cases h
  | [u], hus, cp, h => by
    rw [points, mem_singleton] at h
    exact h ▸ scalar_alone (hus u mem_cons_self)
  | u :: v :: us, hus, cp, h => by
    have htail : ∀ w ∈ v :: us, w < 0x10000 := fun w hw => hus w (mem_cons_of_mem u hw)
    rw [points] at h
    split_ifs at h with hpair
    · rcases mem_cons.mp h with h | h
      · rw [h, Scalar]
        omega
      · exact scalar_points (fun w hw => htail w (mem_cons_of_mem v hw)) cp h
    · rcases mem_cons.mp h with h | h
      · exact h ▸ scalar_alone (hus u mem_cons_self)
      · exact scalar_points htail cp h

/-- **The number of units is kept**, whatever the text: a replaced surrogate is still one unit. -/
theorem length_points : ∀ {us : List Nat}, (∀ u ∈ us, u < 0x10000) → ((points us).flatMap units).length = us.length
  | [], _ => rfl
  | [u], hus => by
    rw [points, flatMap_cons, flatMap_nil, append_nil, units_alone (hus u mem_cons_self), length_singleton]
  | u :: v :: us, hus => by
    have htail : ∀ w ∈ v :: us, w < 0x10000 := fun w hw => hus w (mem_cons_of_mem u hw)
    rw [points]
    split_ifs with hpair
    · rw [flatMap_cons, length_append, length_points fun w hw => htail w (mem_cons_of_mem v hw),
        units, if_neg (by omega)]
      simp only [length_cons, length_nil]
      omega
    · rw [flatMap_cons, length_append, length_points htail, units_alone (hus u mem_cons_self)]
      simp only [length_cons]
      omega

/-! ## What is written is read back -/

theorem marksFrom_lead {b : Nat} {p : Pending} (h : lead b = ([], p)) (bs : List Nat) :
    marksFrom .idle (b :: bs) = marksFrom p bs := by
  rw [marksFrom_cons, byteStep, h, nil_append]

theorem marksFrom_last {acc lo hi b : Nat} (hb : lo ≤ b ∧ b ≤ hi) (bs : List Nat) :
    marksFrom (.owe 0 acc lo hi) (b :: bs) = (units (acc * 64 + b % 64)).map some ++ marksFrom .idle bs := by
  rw [marksFrom_cons, byteStep, if_pos hb]

theorem marksFrom_next {n acc lo hi b : Nat} (hb : lo ≤ b ∧ b ≤ hi) (bs : List Nat) :
    marksFrom (.owe (n + 1) acc lo hi) (b :: bs) = marksFrom (.owe n (acc * 64 + b % 64) 0x80 0xBF) bs := by
  rw [marksFrom_cons, byteStep, if_pos hb, nil_append]

/-- The lead of three bytes: the range of the next byte keeps out overlong forms and surrogates. -/
theorem lead_three {k b : Nat} (hk : k < 16) (hb : 0x80 ≤ b ∧ b ≤ 0xBF) (h0 : k = 0 → 0xA0 ≤ b)
    (h13 : k = 13 → b ≤ 0x9F) : ∃ lo hi, lead (0xE0 + k) = ([], .owe 1 k lo hi) ∧ lo ≤ b ∧ b ≤ hi := by
  rw [lead, if_neg (by omega), if_neg (by omega)]
  split_ifs with h h' h''
  · exact ⟨_, _, by rw [show k = 0 by omega], h0 (by omega), hb.2⟩
  · exact ⟨_, _, by rw [show k = 13 by omega], hb.1, h13 (by omega)⟩
  · exact ⟨_, _, by rw [show (0xE0 + k) % 16 = k by omega], hb⟩
  all_goals omega

/-- The lead of four bytes: the range of the next byte ends at U+10FFFF. -/
theorem lead_four {k b : Nat} (hk : k < 5) (hb : 0x80 ≤ b ∧ b ≤ 0xBF) (h0 : k = 0 → 0x90 ≤ b)
    (h4 : k = 4 → b ≤ 0x8F) : ∃ lo hi, lead (0xF0 + k) = ([], .owe 2 k lo hi) ∧ lo ≤ b ∧ b ≤ hi := by
  rw [lead, if_neg (by omega), if_neg (by omega), if_neg (by omega), if_neg (by omega), if_neg (by omega)]
  split_ifs with h h' h''
  · exact ⟨_, _, by rw [show k = 0 by omega], h0 (by omega), hb.2⟩
  · exact ⟨_, _, by rw [show (0xF0 + k) % 8 = k by omega], hb⟩
  · exact ⟨_, _, by rw [show k = 4 by omega], hb.1, h4 (by omega)⟩
  · omega

/-- **One code point** decodes to its units, and the decoder is idle again. -/
theorem marksFrom_utf8Of {cp : Nat} (h : Scalar cp) (bs : List Nat) :
    marksFrom .idle (utf8Of cp ++ bs) = (units cp).map some ++ marksFrom .idle bs := by
  rw [utf8Of]
  split_ifs with h1 h2 h3
  · rw [singleton_append, marksFrom_cons, byteStep, lead, if_pos h1, units, if_pos (by omega)]
    rfl
  · have hlead : lead (0xC0 + cp / 64) = ([], .owe 0 ((0xC0 + cp / 64) % 32) 0x80 0xBF) := by
      rw [lead, if_neg (by omega), if_pos (by omega)]
    rw [cons_append, singleton_append, marksFrom_lead hlead, marksFrom_last (by omega),
      show (0xC0 + cp / 64) % 32 * 64 + (0x80 + cp % 64) % 64 = cp by omega]
  · obtain ⟨lo, hi, hlead, hb⟩ := @lead_three (cp / 4096) (0x80 + cp / 64 % 64) (by omega) (by omega) (by omega)
      (by rcases h with h | h <;> omega)
    rw [cons_append, cons_append, singleton_append, marksFrom_lead hlead, marksFrom_next hb,
      marksFrom_last (by omega),
      show (cp / 4096 * 64 + (0x80 + cp / 64 % 64) % 64) * 64 + (0x80 + cp % 64) % 64 = cp by omega]
  · have htop : cp < 0x110000 := by rcases h with h | h <;> omega
    obtain ⟨lo, hi, hlead, hb⟩ := @lead_four (cp / 262144) (0x80 + cp / 4096 % 64) (by omega) (by omega) (by omega)
      (by omega)
    rw [cons_append, cons_append, cons_append, singleton_append, marksFrom_lead hlead,
      marksFrom_next hb, marksFrom_next (by omega), marksFrom_last (by omega),
      show ((cp / 262144 * 64 + (0x80 + cp / 4096 % 64) % 64) * 64 + (0x80 + cp / 64 % 64) % 64) * 64 +
        (0x80 + cp % 64) % 64 = cp by omega]

/-- **What is written is read back** by the strict decoder. -/
theorem utf8Strict_flatMap {cps : List Nat} (h : ∀ cp ∈ cps, Scalar cp) :
    utf8Strict (cps.flatMap utf8Of) = some (cps.flatMap units) := by
  have hmarks : ∀ {cps : List Nat}, (∀ cp ∈ cps, Scalar cp) →
      marksFrom .idle (cps.flatMap utf8Of) = (cps.flatMap units).map some := by
    intro cps
    induction cps with
    | nil => intro _; rfl
    | cons cp cps ih =>
      intro h
      rw [flatMap_cons, flatMap_cons, marksFrom_utf8Of (h cp mem_cons_self),
        ih fun c hc => h c (mem_cons_of_mem cp hc), map_append]
  rw [utf8Strict, utf8ToWide, utf8Marks, hmarks h, if_neg (by simp), map_map]
  exact congrArg some (map_id _)

/-- The bytes determine the wide text. -/
theorem utf16_eq_of_utf8_eq {cps cps' : List Nat} (h : ∀ cp ∈ cps, Scalar cp) (h' : ∀ cp ∈ cps', Scalar cp)
    (he : cps.flatMap utf8Of = cps'.flatMap utf8Of) : cps.flatMap units = cps'.flatMap units := by
  have hback := utf8Strict_flatMap h
  rw [he, utf8Strict_flatMap h'] at hback
  exact (Option.some.inj hback).symm

/-! ## Sizes -/

theorem utf8Of_length (cp : Nat) :
    (units cp).length ≤ (utf8Of cp).length ∧ (utf8Of cp).length ≤ 3 * (units cp).length := by
  rw [utf8Of, units]
  split_ifs <;> simp
  omega

theorem length_utf8 : ∀ cps : List Nat, (cps.flatMap units).length ≤ (cps.flatMap utf8Of).length ∧
    (cps.flatMap utf8Of).length ≤ 3 * (cps.flatMap units).length
  | [] => ⟨Nat.le_refl 0, Nat.le_refl 0⟩
  | cp :: cps => by
    have h1 := utf8Of_length cp
    have h2 := length_utf8 cps
    rw [flatMap_cons, flatMap_cons, length_append, length_append]
    omega

/-- **Three bytes a unit are enough**, and there is at least one. -/
theorem length_utf8_points {us : List Nat} (h : ∀ u ∈ us, u < 0x10000) :
    us.length ≤ ((points us).flatMap utf8Of).length ∧ ((points us).flatMap utf8Of).length ≤ 3 * us.length :=
  length_points h ▸ length_utf8 (points us)

/-! ## Units as bytes -/

/-- Wide text in memory, the low byte of each unit first. -/
def leBytes (us : List Nat) : List Nat := us.flatMap fun u => [u % 256, u / 256]

/-- Memory read as wide text; an odd byte at the end is no unit. -/
def wides : List Nat → List Nat
  | lo :: hi :: bs => (lo + 256 * hi) :: wides bs
  | _ => []

theorem wides_leBytes : ∀ us : List Nat, wides (leBytes us) = us
  | [] => rfl
  | u :: us => by
    show (u % 256 + 256 * (u / 256)) :: wides (leBytes us) = u :: us
    rw [wides_leBytes us, Nat.mod_add_div]

theorem length_leBytes : ∀ us : List Nat, (leBytes us).length = 2 * us.length
  | [] => rfl
  | u :: us => by
    show (leBytes us).length + 1 + 1 = 2 * (us.length + 1)
    rw [length_leBytes us]
    omega

theorem mem_leBytes {us : List Nat} (h : ∀ u ∈ us, u < 0x10000) {b : Nat} (hb : b ∈ leBytes us) : b < 256 := by
  obtain ⟨u, hu, hb⟩ := mem_flatMap.mp hb
  have hlt := h u hu
  simp only [mem_cons, not_mem_nil, or_false] at hb
  rcases hb with rfl | rfl <;> omega

theorem length_wides : ∀ bs : List Nat, (wides bs).length = bs.length / 2
  | [] => rfl
  | [_] => by simp [wides]
  | _ :: _ :: bs => by
    rw [wides, length_cons, length_wides bs, length_cons, length_cons]
    omega

theorem mem_wides : ∀ {bs : List Nat}, (∀ b ∈ bs, b < 256) → ∀ u ∈ wides bs, u < 0x10000
  | [], _, u, hu => by cases hu
  | [_], _, u, hu => by simp [wides] at hu
  | lo :: hi :: bs, h, u, hu => by
    have hlo := h lo mem_cons_self
    have hhi := h hi (mem_cons_of_mem lo mem_cons_self)
    rcases mem_cons.mp hu with rfl | hu
    · omega
    · exact mem_wides (fun b hb => h b (mem_cons_of_mem lo (mem_cons_of_mem hi hb))) u hu

theorem units_lt {cp u : Nat} (h : Scalar cp) (hu : u ∈ units cp) : u < 0x10000 := by
  rw [units] at hu
  split_ifs at hu with hlow
  · rw [mem_singleton] at hu
    omega
  · have htop : cp < 0x110000 := by rcases h with h | h <;> omega
    simp only [mem_cons, not_mem_nil, or_false] at hu
    omega

end VirtualMssql.Utf
