/-
  REDACTION — `vms_redact`, which hides secrets in a line of the log.

  A secret is the value behind `PWD=`, `PASSWORD=`, `SECRET=` or `TOKEN=` in any case, up to the next semicolon
  (`hidden` masks them all).  `find_secret_value` looks for one key after the other, and the search goes on behind the
  value that was found: what stands in front of it is never looked at again.

  So the result is right exactly when every turn finds the secret that comes first in the text (`redact_iff`).
-/
import VirtualMssql.Lib.TSqlLex
import Mathlib.Data.List.Infix
import Mathlib.Data.List.TakeWhile

namespace VirtualMssql.Redact

open List
open TSql (asciiLower wide)

/-- The keys of `find_secret_value`, in lower case. -/
def keys : List (List Nat) := [wide "pwd", wide "password", wide "secret", wide "token"]

/-- The comparison of `find_ci` at one place. -/
def startsCi (key s : List Nat) : Bool := key.isPrefixOf (s.map asciiLower)

/-- The value that a text starts with. -/
def value (v : List Nat) : List Nat := v.takeWhile fun c => c != 59

/-- The loop of `find_secret_value` for one key: the text from a value on.  Behind a key that has none the search
    goes on behind the key; `skip` characters of it are still to be passed.  (`find_ci` gives up early when the end
    of the text matches the beginning of the key; there is no room for the key then.) -/
def findKey (key : List Nat) : Nat → List Nat → Option (List Nat)
  | _, [] => none
  | skip + 1, _ :: s => findKey key skip s
  | 0, c :: s =>
    if startsCi key (c :: s) then
      let eq := (c :: s).drop key.length
      if eq.head? = some 61 ∧ value eq.tail ≠ [] then some eq.tail else findKey key (key.length - 1) s
    else findKey key 0 s

/-- `find_secret_value`: the text from the value on. -/
def findSecretValue (text : List Nat) : Option (List Nat) := keys.findSome? fun key => findKey key 0 text

/-- The loop of `vms_redact`, with what is behind `pos`; each turn passes a character at least. -/
def redactLoop : Nat → List Nat → List Nat
  | 0, rest => rest
  | n + 1, rest =>
    match findSecretValue rest with
    | none => rest
    | some v =>
      rest.take (rest.length - v.length) ++ (List.replicate (value v).length 42 ++
        redactLoop n (v.drop (value v).length))

/-- `vms_redact`. -/
def vmsRedact (text : List Nat) : List Nat := redactLoop text.length text

/-! ## What should be hidden -/

/-- A key and its equals sign at the front. -/
def opensValue (w : List Nat) : Bool := keys.any fun key => startsCi (key ++ [61]) w

/-- A value has begun in `before`, and no semicolon has ended it. -/
def inValue (before : List Nat) : Bool := before.tails.any fun w => opensValue w && !w.contains 59

/-- The characters of all values masked, behind `before`. -/
def hidden : List Nat → List Nat → List Nat
  | _, [] => []
  | before, c :: s => (if inValue before && c != 59 then 42 else c) :: hidden (before ++ [c]) s

/-- Each turn finds a value with no secret in front of it. -/
def InOrder : Nat → List Nat → Prop
  | 0, _ => True
  | n + 1, rest =>
    match findSecretValue rest with
    | none => True
    | some v =>
      let front := rest.take (rest.length - v.length)
      hidden [] front = front ∧ InOrder n (v.drop (value v).length)

/-! ## Masking -/

theorem hidden_append : ∀ (s before t : List Nat), hidden before (s ++ t) = hidden before s ++ hidden (before ++ s) t
  | [], before, t => by simp [hidden]
  | c :: s, before, t => by
    rw [cons_append, hidden, hidden, hidden_append s, append_assoc]
    rfl

theorem length_hidden : ∀ (s before : List Nat), (hidden before s).length = s.length
  | [], _ => rfl
  | _ :: s, _ => congrArg (· + 1) (length_hidden s _)

theorem inValue_iff {before : List Nat} : inValue before = true ↔
    ∃ w, w <:+ before ∧ (∃ key ∈ keys, key ++ [61] <+: w.map asciiLower) ∧ 59 ∉ w := by
  simp [inValue, opensValue, startsCi]

/-- A value goes on up to the semicolon. -/
theorem inValue_snoc {before : List Nat} {c : Nat} (h : inValue before = true) (hc : c ≠ 59) :
    inValue (before ++ [c]) = true := by
  obtain ⟨w, hw, ⟨key, hkey, hstarts⟩, h59⟩ := inValue_iff.mp h
  refine inValue_iff.mpr ⟨w ++ [c], ?_, ⟨key, hkey, ?_⟩, by simp [h59, Ne.symm hc]⟩
  · obtain ⟨a, rfl⟩ := hw
    exact ⟨a, by simp⟩
  · rw [map_append]
    exact hstarts.trans (prefix_append _ _)

theorem hidden_value : ∀ (v before : List Nat), inValue before = true → 59 ∉ v →
    hidden before v = List.replicate v.length 42
  | [], _, _, _ => rfl
  | c :: v, before, h, hv => by
    rw [mem_cons, not_or] at hv
    rw [hidden, hidden_value v _ (inValue_snoc h (Ne.symm hv.1)) hv.2, h]
    simp [Ne.symm hv.1, replicate_succ]

/-- A semicolon ends every value. -/
theorem inValue_semicolon (before t : List Nat) : inValue (before ++ 59 :: t) = inValue t := by
  rw [Bool.eq_iff_iff, inValue_iff, inValue_iff]
  refine exists_congr fun w => and_congr_left fun hw => ⟨fun h => ?_, fun h => ?_⟩
  · rcases suffix_or_suffix_of_suffix h (suffix_append before (59 :: t)) with h | h
    · rcases suffix_cons_iff.mp h with rfl | h
      · exact absurd mem_cons_self hw.2
      · exact h
    · exact absurd (h.mem mem_cons_self) hw.2
  · exact (h.trans (suffix_cons _ _)).trans (suffix_append _ _)

theorem hidden_semicolon (before : List Nat) : ∀ (u t : List Nat), hidden (before ++ 59 :: t) u = hidden t u
  | [], _ => rfl
  | c :: u, t => by
    have htail := hidden_semicolon before u (t ++ [c])
    rw [hidden, hidden, inValue_semicolon, append_assoc]
    exact congrArg _ htail

/-- Nothing is masked where no value has begun. -/
theorem hidden_eq_self : ∀ (s before : List Nat),
    (∀ x c y, s = x ++ c :: y → inValue (before ++ x) = true → c = 59) → hidden before s = s
  | [], _, _ => rfl
  | c :: s, before, h => by
    have hc : inValue before = true → c = 59 := fun hin => h [] c s rfl (by rwa [append_nil])
    have htail : hidden (before ++ [c]) s = s :=
      hidden_eq_self s _ fun x d y hs hin => h (c :: x) d y (by rw [hs]; rfl) (by simpa using hin)
    rw [hidden, htail]
    grind

/-! ## Searching -/

theorem inValue_append {t : List Nat} (h : inValue t = true) (before : List Nat) : inValue (before ++ t) = true := by
  obtain ⟨w, hw, hopens⟩ := inValue_iff.mp h
  exact inValue_iff.mpr ⟨w, hw.trans (suffix_append _ _), hopens⟩

/-- **A value that was found** stands behind a key. -/
theorem findKey_some {key : List Nat} (hkey : key ∈ keys) {v : List Nat} (skip : Nat) (text : List Nat) :
    findKey key skip text = some v → ∃ front, text = front ++ v ∧ inValue front = true ∧ value v ≠ [] := by
  have h59 : ∀ key ∈ keys, 59 ∉ key := by decide
  fun_induction findKey key skip text
  case case1 => rintro ⟨⟩
  case case3 c s hstarts eq hvalue =>
    rintro ⟨⟩
    obtain ⟨hhead, hne⟩ := hvalue
    have hlower := prefix_iff_eq_take.mp ( isPrefixOf_iff_prefix.mp hstarts)
    have heq : eq = 61 :: eq.tail := (cons_head?_tail hhead).symm
    refine ⟨(c :: s).take key.length ++ [61], ?_, inValue_iff.mpr ⟨_, suffix_rfl, ⟨key, hkey, ?_⟩, ?_⟩, hne⟩
    · rw [append_assoc, singleton_append, ← heq, take_append_drop]
    · rw [map_append, map_take, ← hlower]
      exact prefix_rfl
    · rw [mem_append, not_or]
      refine ⟨fun hmem => h59 key hkey ?_, by decide⟩
      rw [hlower, ← map_take]
      exact mem_map.mpr ⟨59, hmem, rfl⟩
  all_goals
    rename_i ih
    intro h
    obtain ⟨front, rfl, hin, hne⟩ := ih h
    exact ⟨_ :: front, rfl, inValue_append hin [_], hne⟩

/-- The keys do not overlap themselves. -/
theorem keys_apart : ∀ key ∈ keys, ∀ d < key.length, 0 < d → ¬ key.drop d <+: key := by decide

/-- The equals sign behind a key. -/
theorem head_of_starts {key x : List Nat} (h : key ++ [61] <+: x.map asciiLower) :
    (x.drop key.length).head? = some 61 := by
  obtain ⟨t, ht⟩ := h
  have hdrop : (x.drop key.length).map asciiLower = 61 :: t := by
    rw [map_drop, ← ht, append_assoc, drop_left]
    rfl
  cases hx : x.drop key.length with
  | nil => simp [hx] at hdrop
  | cons d r =>
    rw [hx, map_cons, List.cons.injEq, asciiLower] at hdrop
    grind

/-- **No value is overlooked**: where a key with its equals sign stands and was not found, its value is empty. -/
theorem findKey_none {key : List Nat} (hkey : key ∈ keys) (skip : Nat) (text : List Nat) :
    findKey key skip text = none → ∀ a x, text = a ++ x → skip ≤ a.length → key ++ [61] <+: x.map asciiLower →
      value (x.drop (key.length + 1)) = [] := by
  fun_induction findKey key skip text
  case case1 =>
    rintro - a x htext - hx
    obtain ⟨-, rfl⟩ := append_eq_nil_iff.mp htext.symm
    simp at hx
  case case2 skip c s ih =>
    intro h a x htext hskip hx
    cases a with
    | nil => simp at hskip
    | cons d a =>
      cases htext
      exact ih h a x rfl (by simpa using hskip) hx
  case case3 => rintro ⟨⟩
  case case4 c s hstarts eq hvalue ih =>
    intro h a x htext _ hx
    cases a with
    | nil =>
      obtain rfl : c :: s = x := htext
      rw [← tail_drop]
      exact not_not.mp fun hne => hvalue ⟨head_of_starts hx, hne⟩
    | cons d a =>
      obtain ⟨rfl, hs⟩ := List.cons.inj htext
      refine ih h a x hs (not_lt.mp fun hlt => ?_) hx
      -- the key would begin again inside itself
      have hinside := ( isPrefixOf_iff_prefix.mp hstarts).drop (a.length + 1)
      rw [← map_drop, drop_succ_cons, hs, append_eq, drop_left] at hinside
      refine keys_apart key hkey (a.length + 1) (by omega) (by omega) ?_
      exact prefix_of_prefix_length_le hinside ((prefix_append _ _).trans hx) (by simp)
  case case5 c s hstarts ih =>
    intro h a x htext _ hx
    cases a with
    | nil =>
      obtain rfl : c :: s = x := htext
      exact absurd ( isPrefixOf_iff_prefix.mpr ((prefix_append _ _).trans hx)) hstarts
    | cons d a =>
      cases htext
      exact ih h a x rfl (Nat.zero_le _) hx

/-- Where nothing is found, nothing is to hide. -/
theorem hidden_none {text : List Nat} (h : findSecretValue text = none) : hidden [] text = text := by
  refine hidden_eq_self _ _ fun x c y htext hin => ?_
  rw [nil_append] at hin
  obtain ⟨w, ⟨a, rfl⟩, ⟨key, hkey, hstarts⟩, h59⟩ := inValue_iff.mp hin
  have hnone := findSome?_eq_none_iff.mp h key hkey
  have hempty := findKey_none hkey 0 text hnone a (w ++ c :: y) (by rw [htext, append_assoc]) (Nat.zero_le _)
    (by rw [map_append]; exact hstarts.trans (prefix_append _ _))
  have hlen : key.length + 1 ≤ w.length := by simpa using hstarts.length_le
  rw [drop_append_of_le_length hlen] at hempty
  by_contra hc
  cases hd : w.drop (key.length + 1) with
  | nil => simp [hd, value, hc] at hempty
  | cons d r =>
    have hne : d ≠ 59 := fun heq => h59 (mem_of_mem_drop (by rw [hd, heq]; exact mem_cons_self))
    simp [hd, value, hne] at hempty

/-- **A turn of the loop.** -/
theorem hidden_some {text v : List Nat} (h : findSecretValue text = some v) :
    ∃ front, text = front ++ v ∧ value v ≠ [] ∧
    hidden [] text = hidden [] front ++ (List.replicate (value v).length 42 ++
      hidden [] (v.drop (value v).length)) := by
  obtain ⟨key, hkey, hfind⟩ := exists_of_findSome?_eq_some h
  obtain ⟨front, rfl, hin, hne⟩ := findKey_some hkey 0 text hfind
  refine ⟨front, rfl, hne, ?_⟩
  have h59 : 59 ∉ value v := fun hmem => absurd (mem_takeWhile_imp hmem) (by simp)
  have hsplit : value v ++ v.dropWhile (fun c => c != 59) = v := takeWhile_append_dropWhile
  have hdrop : v.drop (value v).length = v.dropWhile fun c => c != 59 :=
    (congrArg (List.drop (value v).length) hsplit).symm.trans drop_left
  have hrest : hidden (front ++ value v) (v.dropWhile fun c => c != 59) = hidden [] (v.dropWhile fun c => c != 59) := by
    cases hd : v.dropWhile fun c => c != 59 with
    | nil => rfl
    | cons d t =>
      obtain rfl : d = 59 := by
        have hstop := head_dropWhile_not (fun c => c != 59) (l := v) (by simp [hd])
        simpa [hd] using hstop
      have hreset := (hidden_semicolon (front ++ value v) t []).trans (hidden_semicolon [] t []).symm
      simpa [hidden] using hreset
  rw [hidden_append, nil_append, hdrop]
  nth_rewrite 1 [← hsplit]
  rw [hidden_append, hidden_value _ _ hin h59, hrest]

/-- **When redaction is right**: exactly when each turn finds the first secret that is left. -/
theorem redactLoop_iff : ∀ (n : Nat) (rest : List Nat), rest.length ≤ n →
    (redactLoop n rest = hidden [] rest ↔ InOrder n rest)
  | 0, rest, h => by
    obtain rfl := length_eq_zero_iff.mp (Nat.le_zero.mp h)
    simp [redactLoop, hidden, InOrder]
  | n + 1, rest, h => by
    rw [redactLoop, InOrder]
    cases hfind : findSecretValue rest with
    | none => simp [hidden_none hfind]
    | some v =>
      obtain ⟨front, rfl, hne, hhidden⟩ := hidden_some hfind
      have hfront : (front ++ v).take ((front ++ v).length - v.length) = front := by simp
      have hpos := length_pos_iff.mpr hne
      have ih := redactLoop_iff n (v.drop (value v).length) (by simp at h ⊢; omega)
      simp only [hfront, hhidden]
      rw [← ih]
      constructor
      · intro heq
        obtain ⟨hfirst, htail⟩ := append_inj heq (length_hidden front []).symm
        exact ⟨hfirst.symm, append_cancel_left htail⟩
      · rintro ⟨hfirst, htail⟩
        rw [hfirst, htail]

end VirtualMssql.Redact
