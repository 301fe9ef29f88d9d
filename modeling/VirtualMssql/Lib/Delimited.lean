/-
  DELIMITED TEXT — a value written between delimiters, the closing one doubled inside.

  Three grammars of this development share one lexical device: a value runs up to its CLOSING
  delimiter, and a doubled closing delimiter stands for one literal occurrence of it (`''` inside a
  string, `]]` inside a bracketed name, `}}` inside a braced value).  `readBody q` is that reader,
  `double q` the writer.

  The crux is what happens when a writer FORGETS to double.  On the undoubled text `s ++ q :: rest`
  the reader gives `s` back if `q` does not occur in `s` (`readBody_plain`), and ONLY then
  (`not_mem_of_readBody`), as long as the text after the delimiter does not itself start with it.
  Every "no injection" argument of the development is an instance of one of the two directions.

  Nothing here mentions a program; the alphabet `α` is arbitrary.
-/
import Mathlib.Data.List.Basic

namespace VirtualMssql.Delimited

open List

variable {α : Type} [DecidableEq α]

/-! ## The reader and the writer -/

/-- Read a value up to its closing delimiter `q`: the decoded value and what follows the delimiter.
    `none` when the text ends inside the value. -/
def readBody (q : α) : List α → Option (List α × List α)
  | [] => none
  | [c] => if c = q then some ([], []) else none
  | c :: c' :: cs =>
    if c = q then
      if c' = q then (readBody q cs).map fun r => (q :: r.1, r.2)
      else some ([], c' :: cs)
    else (readBody q (c' :: cs)).map fun r => (c :: r.1, r.2)

/-- Write a value: every occurrence of the closing delimiter twice. -/
def double (q : α) : List α → List α
  | [] => []
  | c :: cs => if c = q then q :: q :: double q cs else c :: double q cs

@[simp] theorem double_nil (q : α) : double q [] = [] := rfl

theorem double_cons_self (q : α) (cs : List α) : double q (q :: cs) = q :: q :: double q cs := by
  rw [double, if_pos rfl]

variable {q : α}

theorem double_cons_ne {c : α} (h : c ≠ q) (cs : List α) : double q (c :: cs) = c :: double q cs := by
  rw [double, if_neg h]

variable {rest : List α}

/-- A value without the delimiter is written as it is. -/
theorem double_of_not_mem {q : α} : ∀ {s : List α}, q ∉ s → double q s = s
  | [], _ => rfl
  | c :: cs, h => by
    have hc : c ≠ q := fun he => h (he ▸ mem_cons_self)
    rw [double_cons_ne hc, double_of_not_mem fun hm => h (mem_cons_of_mem c hm)]

/-! ## One step of the reader -/

theorem readBody_close (hr : rest.head? ≠ some q) : readBody q (q :: rest) = some ([], rest) := by
  cases rest with
  | nil => simp [readBody]
  | cons c cs =>
    have hc : c ≠ q := fun he => hr (by rw [he]; rfl)
    simp [readBody, hc]

theorem readBody_pair (q : α) (rest : List α) :
    readBody q (q :: q :: rest) = (readBody q rest).map fun r => (q :: r.1, r.2) := by
  simp [readBody]

theorem readBody_skip {c : α} (h : c ≠ q) (cs : List α) :
    readBody q (c :: cs) = (readBody q cs).map fun r => (c :: r.1, r.2) := by
  cases cs with
  | nil | cons d ds => simp [readBody, h]

/-! ## The writer is inverted by the reader, and by nothing else -/

/-- **Round trip**: what `double` wrote is read back, and the reader stops at its delimiter. -/
theorem readBody_double {q : α} {rest : List α} (hr : rest.head? ≠ some q) :
    ∀ s : List α, readBody q (double q s ++ q :: rest) = some (s, rest)
  | [] => readBody_close hr
  | c :: cs => by
    by_cases hc : c = q
    · subst hc
      rw [double_cons_self, cons_append, cons_append, readBody_pair, readBody_double hr cs]
      rfl
    · rw [double_cons_ne hc, cons_append, readBody_skip hc, readBody_double hr cs]
      rfl

/-- **Soundness of the reader**: a text that reads as `b` is literally `b` doubled, the delimiter,
    and a rest that does not start with the delimiter. -/
theorem readBody_sound {q : α} : ∀ {t b r : List α}, readBody q t = some (b, r) →
    t = double q b ++ q :: r ∧ r.head? ≠ some q
  | [], b, r, h => by simp [readBody] at h
  | [c], b, r, h => by
    by_cases hc : c = q
    · subst hc
      simp only [readBody, if_pos] at h
      cases h
      exact ⟨rfl, by simp⟩
    · simp [readBody, hc] at h
  | c :: d :: cs, b, r, h => by
    by_cases hc : c = q
    · by_cases hd : d = q
      · subst hc; subst hd
        rw [readBody_pair, Option.map_eq_some_iff] at h
        obtain ⟨⟨b', r'⟩, hb, he⟩ := h
        cases he
        obtain ⟨ht, hr⟩ := readBody_sound hb
        exact ⟨by rw [double_cons_self, ht]; rfl, hr⟩
      · subst hc
        rw [readBody_close (by simpa using hd)] at h
        cases h
        exact ⟨rfl, by simpa using hd⟩
    · rw [readBody_skip hc, Option.map_eq_some_iff] at h
      obtain ⟨⟨b', r'⟩, hb, he⟩ := h
      cases he
      obtain ⟨ht, hr⟩ := readBody_sound hb
      exact ⟨by rw [double_cons_ne hc, ht]; rfl, hr⟩

/-! ## What an undoubled value reads as -/

/-- The shift argument: if a text `s` closed by `q` equals `s` doubled but pushed right by a
    non-empty run of `q`s, the run never gets used up: either the text after the delimiter supplies
    one more `q`, or nothing was left of `s` and the two tails agree.  Induction on `s`; each step
    lengthens the run. -/
theorem tail_of_shifted {q : α} {rest y : List α} : ∀ (s : List α) (j : Nat),
    s ++ q :: rest = replicate (j + 1) q ++ (double q s ++ y) → rest.head? = some q ∨ rest = y
  | [], 0, h => by
    rw [replicate_succ, cons_append, nil_append, cons.injEq] at h
    exact .inr h.2
  | [], j + 1, h => by
    rw [replicate_succ, cons_append, nil_append, cons.injEq] at h
    exact .inl (by rw [h.2, replicate_succ]; rfl)
  | c :: s, j, h => by
    rw [replicate_succ, cons_append, cons_append, cons.injEq] at h
    obtain ⟨rfl, h⟩ := h
    refine tail_of_shifted (y := y) s (j + 1) ?_
    rw [h, double_cons_self, replicate_succ', replicate_succ']
    simp

/-- An undoubled text that nevertheless starts like its doubled form has no delimiter in it. -/
theorem not_mem_of_eq_double {q : α} {rest y : List α} (hr : rest.head? ≠ some q)
    (hy : rest ≠ y) : ∀ s : List α, s ++ q :: rest = double q s ++ y → q ∉ s
  | [], _ => not_mem_nil
  | c :: s, h => by
    by_cases hc : c = q
    · subst hc
      rw [double_cons_self, cons_append, cons_append, cons.injEq] at h
      rcases tail_of_shifted s 0 h.2 with h' | h'
      · exact absurd h' hr
      · exact absurd h' hy
    · rw [double_cons_ne hc, cons_append, cons_append, cons.injEq] at h
      have hs := not_mem_of_eq_double hr hy s h.2
      intro hm
      rcases mem_cons.mp hm with he | hm
      · exact hc he.symm
      · exact hs hm

theorem double_append (q : α) (s z : List α) : double q (s ++ z) = double q s ++ double q z := by
  induction s with
  | nil => rfl
  | cons c s ih =>
    by_cases hc : c = q
    · subst hc; rw [cons_append, double_cons_self, double_cons_self, ih]; rfl
    · rw [cons_append, double_cons_ne hc, double_cons_ne hc, ih]; rfl

variable {s : List α}

/-- Reading raw text `s` and getting `s`, possibly with more behind it, means that `s` is free of the
    delimiter and that there is nothing more — provided the surplus `z` would start with a character
    that neither closes the value nor follows the delimiter. -/
theorem not_mem_of_readBody {z r : List α} (hr : rest.head? ≠ some q)
    (hz : ∀ x, z.head? = some x → x ≠ q ∧ rest.head? ≠ some x)
    (h : readBody q (s ++ q :: rest) = some (s ++ z, r)) : q ∉ s ∧ z = [] := by
  have heq := (readBody_sound h).1
  rw [double_append, append_assoc] at heq
  have hy : rest ≠ double q z ++ q :: r := by
    intro he
    cases z with
    | nil => exact hr (by rw [he]; rfl)
    | cons x z' =>
      obtain ⟨hxq, hxr⟩ := hz x rfl
      exact hxr (by rw [he, double_cons_ne hxq]; rfl)
  have hq := not_mem_of_eq_double hr hy s heq
  refine ⟨hq, ?_⟩
  rw [double_of_not_mem hq] at heq
  have htail := append_cancel_left heq
  cases z with
  | nil => rfl
  | cons x z' =>
    obtain ⟨hxq, -⟩ := hz x rfl
    rw [double_cons_ne hxq, cons_append, cons.injEq] at htail
    exact absurd htail.1.symm hxq

theorem readBody_plain (hr : rest.head? ≠ some q) (hq : q ∉ s) : readBody q (s ++ q :: rest) = some (s, rest) := by
  have h := readBody_double hr s
  rwa [double_of_not_mem hq] at h

theorem length_le_double (q : α) : ∀ s : List α, s.length ≤ (double q s).length
  | [] => Nat.le_refl 0
  | c :: s => by
    have ih := length_le_double q s
    by_cases hc : c = q
    · subst hc
      rw [double_cons_self, length_cons, length_cons, length_cons]
      omega
    · rw [double_cons_ne hc, length_cons, length_cons]
      omega

/-- Doubling a delimiter lengthens the text. -/
theorem not_mem_of_double_length {q : α} : ∀ {s : List α}, (double q s).length ≤ s.length → q ∉ s
  | [], _ => not_mem_nil
  | c :: s, h => by
    by_cases hc : c = q
    · subst hc
      have hle := length_le_double c s
      rw [double_cons_self, length_cons, length_cons, length_cons] at h
      omega
    · rw [double_cons_ne hc, length_cons, length_cons] at h
      have ih := not_mem_of_double_length (by omega : (double q s).length ≤ s.length)
      intro hm
      rcases mem_cons.mp hm with he | hm
      · exact hc he.symm
      · exact ih hm

/-- **Undoubled text that is no longer than the value** reads as the value, up to its own delimiter, if
    and only if it is the value and has no delimiter in it. -/
theorem readBody_exact_iff {n : List α} (hr : rest.head? ≠ some q) (hlen : s.length ≤ n.length) :
    readBody q (s ++ q :: rest) = some (n, rest) ↔ s = n ∧ q ∉ n := by
  constructor
  · intro h
    have hs : s = double q n := append_cancel_right (readBody_sound h).1
    have hq : q ∉ n := not_mem_of_double_length (by rw [← hs]; exact hlen)
    exact ⟨by rw [hs, double_of_not_mem hq], hq⟩
  · rintro ⟨rfl, hq⟩
    exact readBody_plain hr hq

/-- **A value that starts with its OPENING delimiter.**  Text `o :: s` taken for an opened value
    (the reader skips `o` and reads on to `q`) never reads back as `o :: s`, possibly with more behind
    it, when what follows `s` starts with some `x` other than `o`: the decoded value would have to be
    the raw text shifted by one. -/
theorem readBody_opened_ne {o x : α} {r : List α} (hoq : o ≠ q) (hx : x ≠ o) (s z : List α) :
    readBody q (s ++ x :: rest) ≠ some (o :: (s ++ z), r) := by
  -- the run of `o`s in front only grows while `s` is consumed, and then meets `x`
  have shift : ∀ (s : List α) (j : Nat) (t : List α), s ++ x :: rest ≠ replicate (j + 1) o ++ (double q s ++ t) := by
    intro s
    induction s with
    | nil =>
      intro j t h
      rw [replicate_succ, cons_append, nil_append, cons.injEq] at h
      exact hx h.1
    | cons c s ih =>
      intro j t h
      rw [replicate_succ, cons_append, cons_append, cons.injEq] at h
      obtain ⟨rfl, h⟩ := h
      refine ih j t ?_
      rw [h, double_cons_ne hoq, replicate_succ']
      simp
  intro h
  have hs := (readBody_sound h).1
  rw [double_cons_ne hoq, double_append, cons_append, append_assoc] at hs
  exact shift s 0 (double q z ++ q :: r) hs

end VirtualMssql.Delimited
