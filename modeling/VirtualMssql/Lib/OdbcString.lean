/-
  ODBC CONNECTION STRINGS — how a driver reads `key=value;key=value;`.

  Pairs are split at `;`.  A value that starts with `{` runs to the closing `}`, with `}}` standing for
  one `}` inside it.  Keys are compared without case, and the FIRST occurrence of a key wins.  A piece
  without `=` and text between a closing `}` and the next `;` make the string unreadable.

  The question a writer has to answer is when a string it concatenated reads as the pairs it meant.
  Every value it writes either reads as meant whatever follows (`Field.Reads`), or reads as something
  else whatever follows (`Field.Misreads`), and then no later text can repair it, because the first
  occurrence wins: `gives_iff` says that a string gives the pairs meant exactly when every field reads.
  For a raw value the line between the two is drawn by `Field.Raw.reads_iff`: it contains no `;`, does not
  start with `{`, and nothing was cut off behind a NUL.
-/
import VirtualMssql.Lib.TSqlLex
import Mathlib.Data.List.TakeWhile

namespace VirtualMssql.Odbc

open Delimited TSql List Option

/-! ## The reader -/

/-- Where the reader stands: between pairs, in a key, at the first character of a value, in a plain
    value, in a braced value, or behind a `}` that may close it. -/
inductive Mode
  | start
  | key (k : List Nat)
  | value (k : List Nat)
  | plain (k v : List Nat)
  | braced (k v : List Nat)
  | closed (k v : List Nat)
  deriving DecidableEq, Repr

/-- The pairs read from `mode` on, in the order of the text; `none` when it cannot be read. -/
def pairsFrom : Mode → List Nat → Option (List (List Nat × List Nat))
  | .start, [] => some []
  | .start, c :: s =>
    if c = 59 then pairsFrom .start s
    else if c = 61 then none
    else pairsFrom (.key [c]) s
  | .key _, [] => none
  | .key k, c :: s =>
    if c = 61 then pairsFrom (.value k) s
    else if c = 59 then none
    else pairsFrom (.key (k ++ [c])) s
  | .value k, [] => some [(k, [])]
  | .value k, c :: s =>
    if c = 59 then (pairsFrom .start s).map ((k, []) :: ·)
    else if c = 123 then pairsFrom (.braced k []) s
    else pairsFrom (.plain k [c]) s
  | .plain k v, [] => some [(k, v)]
  | .plain k v, c :: s =>
    if c = 59 then (pairsFrom .start s).map ((k, v) :: ·) else pairsFrom (.plain k (v ++ [c])) s
  | .braced _ _, [] => none
  | .braced k v, c :: s =>
    if c = 125 then pairsFrom (.closed k v) s else pairsFrom (.braced k (v ++ [c])) s
  | .closed k v, [] => some [(k, v)]
  | .closed k v, c :: s =>
    if c = 125 then pairsFrom (.braced k (v ++ [125])) s
    else if c = 59 then (pairsFrom .start s).map ((k, v) :: ·)
    else none

def pairs (s : List Nat) : Option (List (List Nat × List Nat)) := pairsFrom .start s

/-- Keys are compared without case. -/
def sameKey (a b : List Nat) : Bool := a.map asciiLower == b.map asciiLower

/-- The value a key has: that of its first occurrence. -/
def valueOf (ps : List (List Nat × List Nat)) (key : List Nat) : Option (List Nat) :=
  (ps.find? fun p => sameKey p.1 key).map Prod.snd

/-- The string gives exactly the pairs meant: every key has the value it was meant to have, and no
    other key has one. -/
def Gives (s : List Nat) (meant : List (List Nat × List Nat)) : Prop :=
  ∃ ps, pairs s = some ps ∧ ∀ key, valueOf ps key = valueOf meant key

example : pairs (wide "Driver=\x7ba\x7d\x7db;c\x7d;UID=x;PWD=") =
    some [(wide "Driver", wide "a\x7db;c"), (wide "UID", wide "x"), (wide "PWD", [])] := by decide

/-! ## Reading one field -/

theorem pairsFrom_key {s : List Nat} : ∀ (k' k : List Nat), 61 ∉ k' → 59 ∉ k' →
    pairsFrom (.key k) (k' ++ 61 :: s) = pairsFrom (.value (k ++ k')) s
  | [], k, _, _ => by simp [pairsFrom]
  | c :: k', k, h61, h59 => by
    rw [mem_cons, not_or] at h61 h59
    rw [cons_append, pairsFrom, if_neg (Ne.symm h61.1), if_neg (Ne.symm h59.1),
      pairsFrom_key k' _ h61.2 h59.2, append_assoc]
    rfl

/-- A key of at least one character, without `=` or `;`. -/
def GoodKey (k : List Nat) : Prop := k ≠ [] ∧ 61 ∉ k ∧ 59 ∉ k

instance (k : List Nat) : Decidable (GoodKey k) := inferInstanceAs (Decidable (_ ∧ _ ∧ _))

variable {k s : List Nat}

theorem pairsFrom_start_key (h : GoodKey k) : pairsFrom .start (k ++ 61 :: s) = pairsFrom (.value k) s := by
  obtain ⟨hne, h61, h59⟩ := h
  obtain ⟨c, k', rfl⟩ := exists_cons_of_ne_nil hne
  rw [mem_cons, not_or] at h61 h59
  rw [cons_append, pairsFrom, if_neg (Ne.symm h59.1), if_neg (Ne.symm h61.1), pairsFrom_key k' _ h61.2 h59.2]
  rfl

/-- A plain value runs to the first `;`. -/
theorem pairsFrom_plain {k s : List Nat} : ∀ (t v : List Nat), ∃ r, pairsFrom (.plain k v) (t ++ 59 :: s) =
        (pairsFrom .start r).map ((k, v ++ t.takeWhile fun c => c != 59) :: ·) ∧ (59 ∉ t → r = s)
  | [], v => ⟨s, by simp [pairsFrom], fun _ => rfl⟩
  | c :: t, v => by
    by_cases hc : c = 59
    · subst hc
      exact ⟨t ++ 59 :: s, by simp [pairsFrom], fun h => absurd mem_cons_self h⟩
    · obtain ⟨r, hr, hrest⟩ := pairsFrom_plain (k := k) (s := s) t (v ++ [c])
      refine ⟨r, ?_, fun h => hrest fun hm => h (mem_cons_of_mem _ hm)⟩
      rw [cons_append, pairsFrom, if_neg hc, hr]
      simp [hc]

/-- A braced value is read by the reader of doubled delimiters. -/
theorem pairsFrom_braced {k : List Nat} : ∀ (s v : List Nat), pairsFrom (.braced k v) s =
      (readBody 125 s).bind fun b => pairsFrom (.closed k (v ++ b.1)) b.2
  | [], v => by simp [pairsFrom, readBody]
  | [c], v => by
    by_cases hc : c = 125
    all_goals simp [pairsFrom, readBody, hc]
  | c :: d :: s, v => by
    by_cases hc : c = 125
    · by_cases hd : d = 125
      · subst hc hd
        rw [readBody_pair, pairsFrom, if_pos rfl, pairsFrom, if_pos rfl, pairsFrom_braced s (v ++ [125])]
        cases readBody 125 s <;> simp
      · subst hc
        rw [readBody_close (by simpa using hd), pairsFrom, if_pos rfl]
        simp
    · rw [readBody_skip hc, pairsFrom, if_neg hc, pairsFrom_braced (d :: s) (v ++ [c])]
      cases readBody 125 (d :: s) <;> simp

theorem pairsFrom_value {t : List Nat} (ht : t.head? ≠ some 123) : ∃ r, pairsFrom (.value k) (t ++ 59 :: s) =
        (pairsFrom .start r).map ((k, t.takeWhile fun c => c != 59) :: ·) ∧ (59 ∉ t → r = s) := by
  cases t with
  | nil => exact ⟨s, by simp [pairsFrom], fun _ => rfl⟩
  | cons c t =>
    by_cases hc : c = 59
    · subst hc
      exact ⟨t ++ 59 :: s, by simp [pairsFrom], fun h => absurd mem_cons_self h⟩
    · obtain ⟨r, hr, hrest⟩ := pairsFrom_plain (k := k) (s := s) t [c]
      have hbrace : c ≠ 123 := by simpa using ht
      refine ⟨r, ?_, fun h => hrest fun hm => h (mem_cons_of_mem _ hm)⟩
      rw [cons_append, pairsFrom, if_neg hc, if_neg hbrace, hr]
      simp [hc]

variable {v : List Nat}

theorem pairsFrom_closed {ps : List (List Nat × List Nat)} (hs : s.head? ≠ some 125)
    (h : pairsFrom (.closed k v) s = some ps) : ∃ tl, ps = (k, v) :: tl := by
  cases s with
  | nil => exact ⟨[], (some.inj h).symm⟩
  | cons c s =>
    have hc : c ≠ 125 := by simpa using hs
    rw [pairsFrom, if_neg hc] at h
    split_ifs at h
    obtain ⟨tl, _, rfl⟩ := map_eq_some_iff.mp h
    exact ⟨tl, rfl⟩

/-! ## Fields, and what a written string gives -/

/-- One `key=text;` of a written string, and the value it is meant to give the key. -/
structure Field where
  key : List Nat
  text : List Nat
  value : List Nat

def render (fs : List Field) : List Nat := fs.flatMap fun f => f.key ++ 61 :: (f.text ++ [59])

def meant (fs : List Field) : List (List Nat × List Nat) := fs.map fun f => (f.key, f.value)

/-- The field reads as meant, whatever follows. -/
def Field.Reads (f : Field) : Prop :=
  ∀ rest, pairs (f.key ++ 61 :: (f.text ++ 59 :: rest)) = (pairs rest).map ((f.key, f.value) :: ·)

/-- The field gives its key another value, whatever follows. -/
def Field.Misreads (f : Field) : Prop :=
  ∀ rest ps, pairs (f.key ++ 61 :: (f.text ++ 59 :: rest)) = some ps →
    ∃ v tl, ps = (f.key, v) :: tl ∧ v ≠ f.value

/-- A raw value, possibly the part of the value meant before its first NUL. -/
structure Field.Raw (f : Field) : Prop where
  key : GoodKey f.key
  cut : f.value = f.text ∨ ∃ z, f.value = f.text ++ 0 :: z

/-- A raw value that is left intact: no `;`, no `{` at the front, nothing cut off. -/
def Field.Intact (f : Field) : Prop :=
  59 ∉ f.text ∧ f.text.head? ≠ some 123 ∧ f.value = f.text

variable {f : Field}

theorem Field.Raw.reads (hf : f.Raw) (h : f.Intact) : f.Reads := by
  obtain ⟨h59, hbrace, hvalue⟩ := h
  intro rest
  obtain ⟨r, hr, hrest⟩ := pairsFrom_value (k := f.key) (s := rest) hbrace
  have htake : f.text.takeWhile (fun c => c != 59) = f.text := by
    rw [takeWhile_eq_self_iff]
    intro c hc
    simp only [bne_iff_ne]
    rintro rfl
    exact h59 hc
  rw [pairs, pairs, pairsFrom_start_key hf.key, hr, hrest h59, htake, hvalue]

theorem Field.Raw.misreads (hf : f.Raw) (h : ¬ f.Intact) : f.Misreads := by
  intro rest ps hps
  rw [pairs, pairsFrom_start_key hf.key] at hps
  obtain ⟨z, hz, hz0⟩ : ∃ z, f.value = f.text ++ z ∧ (z = [] → f.value = f.text) := by
    rcases hf.cut with h' | ⟨z, h'⟩
    · exact ⟨[], by rw [h', append_nil], fun _ => h'⟩
    · exact ⟨0 :: z, h', fun he => absurd he (by simp)⟩
  by_cases hbrace : f.text.head? = some 123
  · -- the reader skips the brace and looks for a closing one
    obtain ⟨t, ht⟩ := head?_eq_some_iff.mp hbrace
    rw [ht, cons_append, pairsFrom, if_neg (by decide), if_pos rfl, pairsFrom_braced] at hps
    obtain ⟨⟨b, r⟩, hread, hps⟩ := bind_eq_some_iff.mp hps
    obtain ⟨tl, rfl⟩ := pairsFrom_closed (readBody_sound hread).2 hps
    refine ⟨_, tl, rfl, ?_⟩
    rw [hz, ht, nil_append]
    rintro rfl
    exact readBody_opened_ne (by decide) (by decide) t z hread
  · -- the value read stops at the first `;` of the text, or at its end
    obtain ⟨r, hr, _⟩ := pairsFrom_value (k := f.key) (s := rest) hbrace
    rw [hr] at hps
    obtain ⟨tl, _, rfl⟩ := map_eq_some_iff.mp hps
    refine ⟨_, tl, rfl, fun heq => h ⟨?_, hbrace, ?_⟩⟩
    · intro hm
      have : (59 : Nat) ∈ f.text.takeWhile (fun c => c != 59) := by
        rw [heq, hz]; exact mem_append_left _ hm
      exact absurd (mem_takeWhile_imp this) (by decide)
    · apply hz0
      have hle := ( takeWhile_prefix (fun c => c != 59) (l := f.text)).length_le
      rw [heq, hz, length_append] at hle
      exact length_eq_zero_iff.mp (by omega)

theorem Field.Raw.reads_or_misreads (hf : f.Raw) : f.Reads ∨ f.Misreads := by
  by_cases h : f.Intact
  · exact .inl (hf.reads h)
  · exact .inr (hf.misreads h)

theorem Field.Raw.reads_iff (hf : f.Raw) : f.Reads ↔ f.Intact := by
  refine ⟨fun hr => ?_, hf.reads⟩
  by_contra h
  have hnil := hr []
  simp only [pairs, pairsFrom, map_some] at hnil
  obtain ⟨v, tl, heq, hv⟩ := hf.misreads h [] _ hnil
  exact hv (congrArg Prod.snd (List.cons.inj heq).1).symm

/-- A value written in braces reads as itself when it has no closing brace in it. -/
theorem braced_reads (hk : GoodKey k) (hv : 125 ∉ v) : Field.Reads ⟨k, 123 :: (v ++ [125]), v⟩ := by
  intro rest
  have hread : readBody 125 (v ++ 125 :: 59 :: rest) = some (v, 59 :: rest) := readBody_plain (by simp) hv
  rw [pairs, pairs, pairsFrom_start_key hk, cons_append, pairsFrom, if_neg (by decide),
    if_pos rfl, pairsFrom_braced, append_assoc]
  simp only [cons_append, nil_append, hread, bind_some]
  rw [pairsFrom, if_neg (by decide), if_pos rfl]

theorem pairs_render {pre : List Field} (h : ∀ f ∈ pre, f.Reads) (s : List Nat) :
    pairs (render pre ++ s) = (pairs s).map (meant pre ++ ·) := by
  induction pre with
  | nil => simp [render, meant]
  | cons f pre ih =>
    have hf := h f mem_cons_self (render pre ++ s)
    have hshape : render (f :: pre) ++ s = f.key ++ 61 :: (f.text ++ 59 :: (render pre ++ s)) := by
      simp [render]
    rw [hshape, hf, ih (List.forall_mem_cons.mp h).2, Option.map_map]
    rfl

theorem valueOf_first {ps tl : List (List Nat × List Nat)} (h : ∀ p ∈ ps, sameKey p.1 k = false) :
    valueOf (ps ++ (k, v) :: tl) k = some v := by
  have hself : sameKey k k = true := by simp [sameKey]
  have hnone : ps.find? (fun p => sameKey p.1 k) = none := by
    rw [find?_eq_none]
    intro p hp
    rw [h p hp]
    decide
  rw [valueOf, find?_append, hnone, none_or]
  simp [hself]

/-- **A string gives the pairs meant exactly when every field of it reads.**  The first field that
    does not read settles its key for good. -/
theorem gives_iff {fs : List Field} (hkeys : fs.Pairwise fun f g => sameKey f.key g.key = false)
    (hfs : ∀ f ∈ fs, f.Reads ∨ f.Misreads) : Gives (render fs) (meant fs) ↔ ∀ f ∈ fs, f.Reads := by
  constructor
  · rintro ⟨ps, hps, hvalue⟩
    by_contra hnot
    -- the fields before the first that does not read
    obtain ⟨pre, f, post, rfl, hpre, hf⟩ :
        ∃ pre f post, fs = pre ++ f :: post ∧ (∀ g ∈ pre, g.Reads) ∧ ¬ f.Reads := by
      clear hkeys hfs hps hvalue
      induction fs with
      | nil => exact absurd (fun f hf => absurd hf not_mem_nil) hnot
      | cons g fs ih =>
        by_cases hg : g.Reads
        · obtain ⟨pre, f, post, rfl, hpre, hf⟩ := ih fun hall =>
            hnot (forall_mem_cons.mpr ⟨hg, hall⟩)
          exact ⟨g :: pre, f, post, rfl, forall_mem_cons.mpr ⟨hg, hpre⟩, hf⟩
        · exact ⟨[], g, fs, rfl, by simp, hg⟩
    have hmis := (hfs f (by simp)).resolve_left hf
    have hshape : render (pre ++ f :: post) = render pre ++ (f.key ++ 61 :: (f.text ++ 59 :: render post)) := by
      simp [render]
    rw [hshape, pairs_render hpre] at hps
    obtain ⟨qs, hqs, rfl⟩ := map_eq_some_iff.mp hps
    obtain ⟨v, tl, rfl, hv⟩ := hmis _ _ hqs
    have hdiff : ∀ p ∈ meant pre, sameKey p.1 f.key = false := by
      intro p hp
      obtain ⟨g, hg, rfl⟩ := mem_map.mp hp
      exact (pairwise_append.mp hkeys).2.2 g hg f mem_cons_self
    have hread := hvalue f.key
    have hmeant : meant (pre ++ f :: post) = meant pre ++ (f.key, f.value) :: meant post := by
      simp [meant]
    rw [hmeant, valueOf_first hdiff, valueOf_first hdiff] at hread
    exact hv (some.inj hread)
  · intro hall
    have hread := pairs_render hall []
    rw [append_nil] at hread
    exact ⟨meant fs, by rw [hread]; simp [pairs, pairsFrom], fun _ => rfl⟩

end VirtualMssql.Odbc
