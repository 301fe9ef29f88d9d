/-
  THE DECODER'S MEMORY — what `vms_identity_decode` reads, writes, allocates and releases.

  Identity says what a token means; here the same loop leaves a trace.  The token is a C string of `len` characters, so
  the indices up to `len` are its own, the terminator with them.  A buffer is named by the number of its request, and it
  has `blen + 1` bytes, computed in `size_t`.

  The trace is judged twice.  Along it every read has to stay in the token, no sum may wrap and every write has to stay
  in its buffer (`InBounds`); and behind it some buffers are live (Lib.Ledger).  Neither comes out as it should:

    * the hexadecimal digits are read in pairs, and the first of a pair is looked at only after both are read.  Digits
      that end early, behind a whole pair, take the loop one character past the terminator; `decode_in_bounds_iff` says
      that nothing else does, a length of 2^32-1 apart where `size_t` has 32 bits;
    * a text is copied, and the buffer it was copied from is forgotten; and nothing that earlier parts own is released
      when a later part fails (`decode_owns_iff`).
-/
import VirtualMssql.Identity
import VirtualMssql.Lib.Ledger
import VirtualMssql.Lib.Run

namespace VirtualMssql.DecodeMemory

open Items Identity Ledger Run List Option Function
open DmlSql (VmsValue)
open TSql (asciiDigit wide)

variable {F : Type} (dt : TokenDoubles F)

/-! ## The trace -/

inductive SizeT
  | bits32
  | bits64
  deriving DecidableEq

def SizeT.limit : SizeT → Nat
  | .bits32 => 2 ^ 32
  | .bits64 => 2 ^ 64

/-- What is done to memory: a character of the token is read, `len + 1` bytes are asked for, a byte of a buffer is
    written, a buffer is released. -/
inductive Event
  | read (i : Nat)
  | alloc (buf len : Nat) (granted : Bool)
  | write (buf i : Nat)
  | free (buf : Nat)
  deriving DecidableEq

/-- `n` characters are read from `p` on, where `p` is what is left of a token of `len` characters. -/
def reads (len n : Nat) (p : List Nat) : List Event := (List.range' (len - p.length) n).map Event.read

/-- `strncmp` looks at a character of the token only as long as those before it are equal. -/
def compared : List Nat → List Nat → Nat
  | [], _ => 0
  | _ :: _, [] => 1
  | c :: cs, d :: ds => if c = d then compared cs ds + 1 else 1

/-- The loop over the hexadecimal digits: both are read, then both are looked at. -/
def hexEvents (len buf : Nat) : Nat → Nat → List Nat → List Event
  | _, 0, _ => []
  | i, n + 1, hi :: lo :: p =>
    reads len 2 (hi :: lo :: p) ++
      if (hexDigit hi).isSome && (hexDigit lo).isSome then .write buf i :: hexEvents len buf (i + 1) n p
      else [.free buf]
  | _, _ + 1, p => reads len 2 p ++ [.free buf]

/-- `heap_bytes`, for a text. -/
def keepEvents (heap : Nat → Bool) (k n : Nat) : BytesKind → List Event
  | .text =>
    if heap (k + 1) then .alloc (k + 1) n true :: (List.range (n + 1)).map (Event.write (k + 1))
    else [.alloc (k + 1) n false, .free k]
  | .blob => []

def bytesEvents (len : Nat) (heap : Nat → Bool) (kind : BytesKind) (k : Nat) (p : List Nat) : List Event :=
  let lenbuf := (p.takeWhile (· != 58)).take 15
  reads len (lenbuf.length + 1) p ++
    match colon (p.drop lenbuf.length) with
    | none => []
    | some q =>
      let n := strtoul lenbuf
      if !heap k then [.alloc k n false]
      else
        .alloc k n true :: (hexEvents len k 0 n q ++
          match readHex n q with
          | none => []
          | some _ => keepEvents heap k n kind)

/-- What `decodePart` does; `strtod` looks at the text up to the colon, at most. -/
def partEvents (len : Nat) (heap : Nat → Bool) (k : Nat) : List Nat → List Event
  | [] => []
  | kind :: p =>
    if kind = 110 then reads len ((p.takeWhile (· != 58)).length + 1) p
    else if kind = 105 then
      reads len (p.length - (takeSign p).2.length + ((takeSign p).2.takeWhile asciiDigit).length + 1) p
    else if kind = 102 then reads len ((p.takeWhile (· != 58)).length + 1) p
    else if kind = 115 then bytesEvents len heap .text k p
    else if kind = 98 then bytesEvents len heap .blob k p
    else []

/-- An entry of `parts`: its value and its two pointers. -/
structure Slot (F : Type) where
  value : VmsValue F
  text : Option Nat
  blob : Option Nat

/-- The entry of a part whose first request was the `k`-th. -/
def slot (k : Nat) : VmsValue F → Slot F
  | .text t => ⟨.text t, some (k + 1), none⟩
  | .blob b => ⟨.blob b, none, some k⟩
  | v => ⟨v, none, none⟩

/-- What the call did, the parts it had finished, and what it returned. -/
structure Outcome (F : Type) where
  events : List Event
  parts : List (Slot F)
  ok : Bool

/-- The loop over the parts. -/
def decodeLoop (len : Nat) (heap : Nat → Bool) : Nat → Nat → List Nat → Outcome F
  | _, _, [] => ⟨reads len 1 [], [], true⟩
  | 0, _, c :: t => ⟨reads len 1 (c :: t), [], false⟩
  | room + 1, k, c :: t =>
    let es := reads len 1 (c :: t) ++ partEvents len heap k (c :: t)
    match decodePart dt heap k (c :: t) with
    | none => ⟨es, [], false⟩
    | some (v, [], _) => ⟨es ++ reads len 1 [], [slot k v], true⟩
    | some (v, d :: rest, k') =>
      if d = 124 then
        let r := decodeLoop len heap room k' rest
        ⟨es ++ (reads len 1 (d :: rest) ++ r.events), slot k v :: r.parts, r.ok⟩
      else ⟨es ++ reads len 1 (d :: rest), [slot k v], false⟩

/-- `vms_identity_decode`, with its trace. -/
def decode (heap : Nat → Bool) (maxParts : Nat) (token : List Nat) : Outcome F :=
  let t := cstr token
  let es := reads t.length (compared (wide "v1|") t) t
  match t with
  | 118 :: 49 :: 124 :: p =>
    let r := decodeLoop dt t.length heap maxParts 0 p
    ⟨es ++ r.events, r.parts, r.ok⟩
  | _ => ⟨es, [], false⟩

/-- `vms_identity_free`: the buffers it releases. -/
def vmsIdentityFree (parts : List (Slot F)) : List Nat := parts.flatMap fun s => s.text.toList ++ s.blob.toList

/-! ## The trace is the decoder's -/

theorem slot_value (k : Nat) (v : VmsValue F) : (slot k v).value = v := by cases v <;> rfl

/-- What a call returned. -/
def Outcome.result (o : Outcome F) : Option (List (VmsValue F)) := if o.ok then some (o.parts.map Slot.value) else none

theorem result_cons (es : List Event) (k : Nat) (v : VmsValue F) (r : Outcome F) :
    (Outcome.mk es (slot k v :: r.parts) r.ok).result = r.result.map (v :: ·) := by
  cases h : r.ok <;> simp [Outcome.result, h, slot_value]

theorem decodeLoop_result (len : Nat) (heap : Nat → Bool) (room k : Nat) (p : List Nat) :
    (decodeLoop dt len heap room k p).result = (readAll (decodePart dt heap) 124 room k p).map Prod.fst := by
  fun_induction decodeLoop dt len heap room k p with
  | case1 room => cases room <;> rfl
  | case2 => rfl
  | case3 | case6 => rw [readAll]; simp [*, Outcome.result]
  | case4 => rw [readAll]; simp [*, Outcome.result, slot_value]
  | case5 room k c t es v rest k' r hpart ih => rw [result_cons, ih, readAll, hpart]; simp [comp_def]

/-- **The trace belongs to the decoder**: it returns what `vmsIdentityDecode` returns. -/
theorem decode_result (heap : Nat → Bool) (maxParts : Nat) (token : List Nat) :
    (decode dt heap maxParts token).result = vmsIdentityDecode dt heap maxParts token := by
  unfold decode vmsIdentityDecode
  generalize cstr token = t
  split
  · exact decodeLoop_result dt _ heap maxParts 0 _
  · simp [Outcome.result]

/-! ## Bounds -/

/-- How large the buffers are. -/
def resize (w : SizeT) (size : Nat → Nat) : Event → Nat → Nat
  | .alloc buf len true => update size buf ((len + 1) % w.limit)
  | .free buf => update size buf 0
  | _ => size

def Within (w : SizeT) (len : Nat) (size : Nat → Nat) : Event → Prop
  | .read i => i ≤ len
  | .alloc _ n _ => n + 1 < w.limit
  | .write buf i => i < size buf
  | .free _ => True

instance (w : SizeT) (len : Nat) (size : Nat → Nat) : ∀ e, Decidable (Within w len size e)
  | .read i => inferInstanceAs (Decidable (i ≤ len))
  | .alloc _ n _ => inferInstanceAs (Decidable (n + 1 < w.limit))
  | .write buf i => inferInstanceAs (Decidable (i < size buf))
  | .free _ => inferInstanceAs (Decidable True)

/-- Every read stays in the token, no sum wraps and every write stays in its buffer. -/
def InBounds (w : SizeT) (len : Nat) (es : List Event) : Prop := Along (resize w) (Within w len) (fun _ => 0) es

/-- The digits end early, behind a whole pair. -/
def Short (n : Nat) (p : List Nat) : Prop := (∀ c ∈ p, (hexDigit c).isSome = true) ∧ p.length % 2 = 0 ∧ p.length < 2 * n

/-- A text or a blob that takes the decoder out of bounds. -/
def Overrun (w : SizeT) (t : List Nat) : Prop :=
  ∃ (kind : BytesKind) (length rest : List Nat), t = kind.letter :: (length ++ 58 :: rest) ∧
    58 ∉ length ∧ length.length ≤ 15 ∧ (w.limit ≤ strtoul length + 1 ∨ Short (strtoul length) rest)

section Bounds
variable {w : SizeT} {len n : Nat} {size : Nat → Nat} {p : List Nat}

theorem resize_of_mem_reads : ∀ e ∈ reads len n p, resize w size e = size := by
  intro e he
  obtain ⟨i, -, rfl⟩ := mem_map.mp he
  rfl

@[simp] theorem run_reads (n : Nat) : run (resize w) size (reads len n p) = size := run_still resize_of_mem_reads

/-- The characters that are left, and the terminator. -/
theorem along_reads (hp : p.length ≤ len) (n : Nat) :
    Along (resize w) (Within w len) size (reads len n p) ↔ n ≤ p.length + 1 := by
  rw [along_still resize_of_mem_reads]
  constructor
  · intro h
    cases n with
    | zero => exact Nat.zero_le _
    | succ n =>
      have hlast : len - p.length + n ≤ len :=
        h (.read (len - p.length + n)) (mem_map_of_mem (mem_range'_1.mpr ⟨by omega, by omega⟩))
      omega
  · intro hn e he
    obtain ⟨i, hi, rfl⟩ := mem_map.mp he
    have hrange := mem_range'_1.mp hi
    show i ≤ len
    omega

theorem short_cons {hi lo : Nat} :
    Short (n + 1) (hi :: lo :: p) ↔ ((hexDigit hi).isSome = true ∧ (hexDigit lo).isSome = true) ∧ Short n p := by
  have hmod : (p.length + 1 + 1) % 2 = 0 ↔ p.length % 2 = 0 := by omega
  have hlt : p.length + 1 + 1 < 2 * (n + 1) ↔ p.length < 2 * n := by omega
  simp [Short, hmod, hlt, and_assoc]

/-- **The loop over the digits** leaves the token exactly when they end behind a whole pair. -/
theorem along_hexEvents {buf : Nat} : ∀ {n i : Nat} {p : List Nat}, p.length ≤ len → i + n ≤ size buf →
    (Along (resize w) (Within w len) size (hexEvents len buf i n p) ↔ ¬ Short n p)
  | 0, i, p, _, _ => by
    exact iff_of_true trivial fun h => absurd h.2.2 (by omega)
  | n + 1, i, [], hp, _ => by
    rw [hexEvents, along_append, along_reads hp]
    refine iff_of_false (fun h => ?_) (not_not.mpr ⟨nofun, rfl, by simp⟩)
    exact absurd h.1 (by simp)
    exact nofun
  | n + 1, i, [c], hp, _ => by
    rw [hexEvents, along_append, along_reads hp]
    · exact iff_of_true ⟨le_rfl, trivial, trivial⟩ fun h => absurd h.2.1 (by simp)
    · exact nofun
  | n + 1, i, hi :: lo :: p, hp, hsize => by
    have hp' : p.length ≤ len := by
      simp only [length_cons] at hp
      omega
    rw [hexEvents, along_append, along_reads hp, run_reads, short_cons]
    have hpair : 2 ≤ (hi :: lo :: p).length + 1 := by simp
    rw [and_iff_right hpair, ← Bool.and_eq_true]
    by_cases hdigits : ((hexDigit hi).isSome && (hexDigit lo).isSome) = true
    · rw [if_pos hdigits, and_iff_right hdigits]
      have hrest : Along (resize w) (Within w len) size (hexEvents len buf (i + 1) n p) ↔ ¬ Short n p :=
        along_hexEvents hp' (by omega)
      have hwrite : Within w len size (.write buf i) := show i < size buf by omega
      rw [Along, and_iff_right hwrite]
      exact hrest
    · rw [if_neg hdigits]
      exact iff_of_true ⟨trivial, trivial⟩ fun h => hdigits h.1

variable {heap : Nat → Bool} {k : Nat}

/-- The copy of a text is as long as its buffer. -/
theorem along_keepEvents {kind : BytesKind} (hn : n + 1 < w.limit) :
    Along (resize w) (Within w len) size (keepEvents heap k n kind) := by
  cases kind with
  | blob => trivial
  | text =>
    rw [keepEvents]
    split_ifs
    · refine ⟨hn, (along_still ?_).mpr ?_⟩
      · intro e he
        obtain ⟨i, -, rfl⟩ := mem_map.mp he
        rfl
      · intro e he
        obtain ⟨i, hi, rfl⟩ := mem_map.mp he
        show i < update size (k + 1) ((n + 1) % w.limit) (k + 1)
        rw [update_self, Nat.mod_eq_of_lt hn]
        exact mem_range.mp hi
    · exact ⟨hn, trivial, trivial⟩

/-- The length of a text or a blob stands before the colon, and has at most 15 characters. -/
theorem colon_lenbuf {q : List Nat} (h : colon (p.drop ((p.takeWhile (· != 58)).take 15).length) = some q) :
    p = (p.takeWhile (· != 58)).take 15 ++ 58 :: q := by
  have hbuf : (p.takeWhile (· != 58)).take 15 <+: p := ( take_prefix _ _).trans ( takeWhile_prefix _)
  rw [← colon_some.mp h]
  exact (prefix_iff_eq_append.mp hbuf).symm

theorem lenbuf_eq {length rest : List Nat} (hcolon : 58 ∉ length) (hlen : length.length ≤ 15) :
    ((length ++ 58 :: rest).takeWhile (· != 58)).take 15 = length := by
  rw [takeWhile_colon hcolon, take_of_length_le hlen]

theorem along_bytesEvents {kind : BytesKind} (hp : p.length ≤ len) :
    Along (resize w) (Within w len) size (bytesEvents len heap kind k p) ↔
      ∀ q, colon (p.drop ((p.takeWhile (· != 58)).take 15).length) = some q →
        strtoul ((p.takeWhile (· != 58)).take 15) + 1 < w.limit ∧
          (heap k = true → ¬ Short (strtoul ((p.takeWhile (· != 58)).take 15)) q) := by
  have hread : ((p.takeWhile (· != 58)).take 15).length + 1 ≤ p.length + 1 :=
    Nat.succ_le_succ ((( take_prefix _ _).trans ( takeWhile_prefix _)).length_le)
  rw [bytesEvents, along_append, run_reads, along_reads hp, and_iff_right hread]
  cases hcolon : colon (p.drop ((p.takeWhile (· != 58)).take 15).length) with
  | none => exact iff_of_true trivial nofun
  | some q =>
    have hq : q.length ≤ len := by
      have hlen := congrArg List.length (colon_lenbuf hcolon)
      simp only [length_append, length_cons] at hlen
      omega
    generalize strtoul ((p.takeWhile (· != 58)).take 15) = n
    simp only [Option.some.injEq, forall_eq']
    cases hheap : heap k with
    | false => simp [Along, Within]
    | true =>
      simp only [Bool.not_true, Bool.false_eq_true, if_false, Along, forall_const]
      refine and_congr_right fun hn => ?_
      have hsize : 0 + n ≤ resize w size (.alloc k n true) k := by
        show 0 + n ≤ update size k ((n + 1) % w.limit) k
        have hn' : n + 1 < w.limit := hn
        rw [update_self, Nat.mod_eq_of_lt hn']
        omega
      rw [along_append, along_hexEvents hq hsize, and_iff_left]
      cases readHex n q with
      | none => trivial
      | some r => exact along_keepEvents hn

variable {c : Nat}

theorem overrun_cons : Overrun w (c :: p) ↔ (c = 115 ∨ c = 98) ∧
    ∃ q, colon (p.drop ((p.takeWhile (· != 58)).take 15).length) = some q ∧
      (w.limit ≤ strtoul ((p.takeWhile (· != 58)).take 15) + 1 ∨
        Short (strtoul ((p.takeWhile (· != 58)).take 15)) q) := by
  constructor
  · rintro ⟨kind, length, rest, heq, hcolon, hlen, hbad⟩
    obtain ⟨rfl, rfl⟩ := cons_eq_cons.mp heq
    refine ⟨by cases kind <;> simp [BytesKind.letter], rest, ?_, ?_⟩
    · rw [lenbuf_eq hcolon hlen, drop_left]
      rfl
    · rwa [lenbuf_eq hcolon hlen]
  · rintro ⟨hc, q, hq, hbad⟩
    have hp := colon_lenbuf hq
    have hcolon : 58 ∉ (p.takeWhile (· != 58)).take 15 := fun h => colon_notMem_takeWhile p (mem_of_mem_take h)
    rcases hc with rfl | rfl
    · exact ⟨.text, _, q, by rw [← hp]; rfl, hcolon, length_take_le .., hbad⟩
    · exact ⟨.blob, _, q, by rw [← hp]; rfl, hcolon, length_take_le .., hbad⟩

theorem along_of_not_overrun (hp : p.length ≤ len) (h : ¬ Overrun w (c :: p)) :
    Along (resize w) (Within w len) size (partEvents len heap k (c :: p)) := by
  have hwhile : (p.takeWhile (· != 58)).length + 1 ≤ p.length + 1 := Nat.succ_le_succ ( takeWhile_prefix _).length_le
  have hbytes (kind : BytesKind) (hc : c = 115 ∨ c = 98) :
      Along (resize w) (Within w len) size (bytesEvents len heap kind k p) := by
    refine (along_bytesEvents hp).mpr fun q hq => ?_
    have hgood := fun hbad => h (overrun_cons.mpr ⟨hc, q, hq, hbad⟩)
    exact ⟨Nat.lt_of_not_le fun hle => hgood (.inl hle), fun _ hshort => hgood (.inr hshort)⟩
  rw [partEvents]
  split_ifs with hn hi hf hs hb
  · exact (along_reads hp _).mpr hwhile
  · obtain ⟨sign, hsign, -⟩ := takeSign_spelled p
    have hlen := congrArg List.length hsign
    have hdigits := ( takeWhile_prefix asciiDigit (l := (takeSign p).2)).length_le
    rw [length_append] at hlen
    exact (along_reads hp _).mpr (by omega)
  · exact (along_reads hp _).mpr hwhile
  · exact hbytes .text (.inl hs)
  · exact hbytes .blob (.inr hb)
  · trivial

theorem not_along_of_overrun (hp : p.length ≤ len) (h : Overrun w (c :: p)) :
    ¬ Along (resize w) (Within w len) size (partEvents len (fun _ => true) k (c :: p)) := by
  obtain ⟨hc, q, hq, hbad⟩ := overrun_cons.mp h
  have hbytes (kind : BytesKind) :
      ¬ Along (resize w) (Within w len) size (bytesEvents len (fun _ => true) kind k p) := by
    intro halong
    obtain ⟨hlt, hshort⟩ := (along_bytesEvents hp).mp halong q hq
    exact hbad.elim (fun hle => absurd hlt (by omega)) (hshort rfl)
  rcases hc with rfl | rfl
  · exact hbytes .text
  · exact hbytes .blob

/-- Parts the decoder takes, each with its bar. -/
def barred (ws : List (Spelling F)) : List Nat := ws.flatMap fun x => x.text ++ [124]

theorem barred_cons (x : Spelling F) (ws : List (Spelling F)) (t : List Nat) :
    barred (x :: ws) ++ t = x.text ++ 124 :: (barred ws ++ t) := by
  simp [barred]

/-- Some parts the decoder takes, and then one that takes it out of bounds. -/
def Reaches (w : SizeT) (room : Nat) (p : List Nat) : Prop :=
  ∃ (ws : List (Spelling F)) (t : List Nat), ws.length < room ∧ (∀ x ∈ ws, x.Ok dt) ∧ Overrun w t ∧ p = barred ws ++ t

variable {room : Nat}

theorem reaches_nil_cons {t : List Nat} (h : Overrun w t) : Reaches dt w (room + 1) t :=
  ⟨[], t, Nat.succ_pos _, nofun, h, rfl⟩

theorem Reaches.cons {x : Spelling F} (hx : x.Ok dt) (h : Reaches dt w room p) :
    Reaches dt w (room + 1) (x.text ++ 124 :: p) := by
  obtain ⟨ws, t, hlen, hok, hbad, rfl⟩ := h
  exact ⟨x :: ws, t, Nat.succ_lt_succ hlen, forall_mem_cons.mpr ⟨hx, hok⟩, hbad, (barred_cons x ws t).symm⟩

/-- **The loop over the parts**, and any heap: it leaves the bounds in one way only. -/
theorem along_decodeLoop (hp : p.length ≤ len) (h : ¬ Reaches dt w room p) :
    Along (resize w) (Within w len) size (decodeLoop dt len heap room k p).events := by
  have hfirst (size : Nat → Nat) (q : List Nat) (hq : q.length ≤ len) :
      Along (resize w) (Within w len) size (reads len 1 q) := (along_reads hq 1).mpr (by omega)
  have hes (size : Nat → Nat) {room k c : Nat} {t : List Nat} (hp : (c :: t).length ≤ len)
      (h : ¬ Reaches dt w (room + 1) (c :: t)) :
      Along (resize w) (Within w len) size (reads len 1 (c :: t) ++ partEvents len heap k (c :: t)) := by
    refine along_append.mpr ⟨hfirst size _ hp, ?_⟩
    exact along_of_not_overrun (by rw [length_cons] at hp; omega) fun hbad => h (reaches_nil_cons dt hbad)
  -- a part that decodes is a spelling, and what is left behind it is shorter
  have hrest {k k' : Nat} {t rest : List Nat} {v : VmsValue F} (hp : t.length ≤ len)
      (hpart : decodePart dt heap k t = some (v, rest, k')) : rest.length ≤ len := by
    obtain ⟨x, -, -, htext, -⟩ := spelling_of_decodePart dt hpart
    have hlen := congrArg List.length htext
    rw [length_append] at hlen
    omega
  fun_induction decodeLoop dt len heap room k p generalizing size with
  | case1 | case2 => exact hfirst _ _ hp
  | case3 => exact hes _ hp h
  | case4 => exact along_append.mpr ⟨hes _ hp h, hfirst _ _ (Nat.zero_le _)⟩
  | case5 =>
    rename_i hpart ih
    obtain ⟨x, hx, -, htext, -⟩ := spelling_of_decodePart dt hpart
    have hlen := hrest hp hpart
    refine along_append.mpr ⟨hes _ hp h, along_append.mpr ⟨hfirst _ _ hlen, ?_⟩⟩
    refine ih (by rw [length_cons] at hlen; omega) fun hreach => h ?_
    rw [htext]
    exact hreach.cons dt hx
  | case6 =>
    rename_i hpart _
    exact along_append.mpr ⟨hes _ hp h, hfirst _ _ (hrest hp hpart)⟩

/-- Where there is memory, it does so. -/
theorem not_along_decodeLoop {t : List Nat} (hbad : Overrun w t) : ∀ {ws : List (Spelling F)} {room k : Nat}
    {size : Nat → Nat}, ws.length < room → (∀ x ∈ ws, x.Ok dt) → (barred ws ++ t).length ≤ len →
    ¬ Along (resize w) (Within w len) size (decodeLoop dt len (fun _ => true) room k (barred ws ++ t)).events
  | _, 0, _, _, hroom, _, _, _ => absurd hroom (Nat.not_lt_zero _)
  | [], room + 1, k, size, _, _, hlen, halong => by
    obtain ⟨kind, length, rest, rfl, -⟩ := id hbad
    have hpart : Along (resize w) (Within w len) size
        (partEvents len (fun _ => true) k (kind.letter :: (length ++ 58 :: rest))) := by
      have hes : Along (resize w) (Within w len) size (reads len 1 (kind.letter :: (length ++ 58 :: rest)) ++
          partEvents len (fun _ => true) k (kind.letter :: (length ++ 58 :: rest))) := by
        rw [barred, flatMap_nil, nil_append, decodeLoop] at halong
        revert halong
        cases decodePart dt (fun _ => true) k (kind.letter :: (length ++ 58 :: rest)) with
        | none => exact id
        | some out =>
          obtain ⟨v, rest', k'⟩ := out
          cases rest' with
          | nil => exact fun h => (along_append.mp h).1
          | cons d rest' =>
            dsimp only
            split_ifs
            all_goals exact fun h => (along_append.mp h).1
      simpa using (along_append.mp hes).2
    refine not_along_of_overrun ?_ hbad hpart
    simp only [barred, flatMap_nil, nil_append, length_cons] at hlen ⊢
    omega
  | x :: ws, room + 1, k, size, hroom, hok, hlen, halong => by
    obtain ⟨hx, hws⟩ := forall_mem_cons.mp hok
    obtain ⟨hne, hread⟩ := reads_spelling dt hx
    obtain ⟨k', hitem⟩ := hread k (124 :: (barred ws ++ t)) (.inr ⟨_, rfl⟩)
    obtain ⟨c, u, hcu⟩ := exists_cons_of_ne_nil hne
    rw [barred_cons, length_append, length_cons] at hlen
    rw [hcu, cons_append] at hitem
    rw [barred_cons, hcu, cons_append, decodeLoop, hitem] at halong
    have hloop := (along_append.mp (along_append.mp halong).2).2
    exact not_along_decodeLoop hbad (Nat.lt_of_succ_lt_succ hroom) hws (by omega) hloop

end Bounds

/-- `strncmp` never reads past the terminator. -/
theorem compared_le : ∀ s t : List Nat, compared s t ≤ t.length + 1
  | [], _ => Nat.zero_le _
  | _ :: _, [] => Nat.le_refl _
  | c :: cs, d :: ds => by
    have h := compared_le cs ds
    rw [compared, length_cons]
    split_ifs <;> omega

/-- A token with some parts the decoder takes and then one that takes it out of bounds. -/
def Overruns (w : SizeT) (maxParts : Nat) (token : List Nat) : Prop :=
  ∃ p, cstr token = wide "v1|" ++ p ∧ Reaches dt w maxParts p

/-- **Bounds.**  Whatever the heap grants, the decoder stays in the token and in its buffers, and no size wraps, exactly
    for the tokens in which it does not reach a text or a blob whose digits end early behind a whole pair, or, where
    `size_t` has 32 bits, whose length is 2^32-1. -/
theorem decode_in_bounds_iff (w : SizeT) (maxParts : Nat) (token : List Nat) :
    (∀ heap, InBounds w (cstr token).length (decode dt heap maxParts token).events) ↔
      ¬ Overruns dt w maxParts token := by
  constructor
  · rintro h ⟨p, hp, ws, t, hroom, hok, hbad, rfl⟩
    have hrun := h fun _ => true
    rw [decode, InBounds, hp] at hrun
    exact not_along_decodeLoop dt hbad hroom hok (by simp only [length_append]; omega) (along_append.mp hrun).2
  · intro h heap
    have hfront : ∀ size, Along (resize w) (Within w (cstr token).length) size
        (reads (cstr token).length (compared (wide "v1|") (cstr token)) (cstr token)) :=
      fun _ => (along_reads le_rfl _).mpr (compared_le _ _)
    rw [decode, InBounds]
    split
    · rename_i p hp
      refine along_append.mpr ⟨hfront _, along_decodeLoop dt ?_ fun hreach => h ⟨p, hp, hreach⟩⟩
      rw [hp]
      simp only [length_cons]
      omega
    · exact hfront _

/-- `v1|b1:` has no digits: the character behind the terminator is read.  `v1|b-1:00` asks for 0 bytes and writes one,
    where `size_t` has 32 bits. -/
theorem decode_out_of_bounds : Event.read 7 ∈ (decode twoTokenDoubles (fun _ => true) 1 (wide "v1|b1:")).events ∧
      ¬ InBounds .bits64 6 (decode twoTokenDoubles (fun _ => true) 1 (wide "v1|b1:")).events ∧
      ¬ InBounds .bits32 6 (decode twoTokenDoubles (fun _ => true) 1 (wide "v1|b1:")).events ∧
      Event.write 0 0 ∈ (decode twoTokenDoubles (fun _ => true) 1 (wide "v1|b-1:00")).events ∧
      (strtoul (wide "-1") + 1) % SizeT.bits32.limit = 0 ∧
      ¬ InBounds .bits32 9 (decode twoTokenDoubles (fun _ => true) 1 (wide "v1|b-1:00")).events := by
  unfold InBounds
  decide +kernel

/-! ## Ownership -/

/-- What an event is to the buffers. -/
def acts : Event → List (Act Nat)
  | .alloc buf _ true => [⟨.take, buf⟩]
  | .write buf _ => [⟨.use, buf⟩]
  | .free buf => [⟨.give, buf⟩]
  | _ => []

/-- The status of the buffers behind a trace. -/
def book (es : List Event) (b : Book Nat) : Book Nat := (es.flatMap acts).foldl Book.enter b

/-- The call keeps what `vms_identity_free` will release, each buffer once, and nothing when it fails. -/
def Outcome.OwnsExactly (o : Outcome F) : Prop :=
  if o.ok then (book o.events Book.empty).Held (vmsIdentityFree o.parts) ∧ (vmsIdentityFree o.parts).Nodup
  else (book o.events Book.empty).Closed

def isText : VmsValue F → Bool
  | .text _ => true
  | _ => false

/-- The buffers a part has taken and not released: a text has its copy, and the buffer it was copied from. -/
def Slot.taken (s : Slot F) : List Nat := s.text.toList.flatMap (fun c => [c, c - 1]) ++ s.blob.toList

theorem book_append (es fs : List Event) (b : Book Nat) : book (es ++ fs) b = book fs (book es b) := by
  rw [book, flatMap_append, foldl_append]
  rfl

theorem book_cons (e : Event) (es : List Event) (b : Book Nat) :
    book (e :: es) b = book es ((acts e).foldl Book.enter b) := by
  rw [book, flatMap_cons, foldl_append]
  rfl

theorem book_reads (len n : Nat) (p : List Nat) (b : Book Nat) : book (reads len n p) b = b := by
  have hnone : (reads len n p).flatMap acts = [] := by
    refine flatMap_eq_nil_iff.mpr fun e he => ?_
    obtain ⟨i, -, rfl⟩ := mem_map.mp he
    rfl
  rw [book, hnone]
  rfl

variable {l p : List Nat} {b : Book Nat} {k len : Nat} {heap : Nat → Bool}

/-- Only the members of the list matter. -/
theorem held_congr {l' : List Nat} (h : b.Held l) (hmem : ∀ r, r ∈ l' ↔ r ∈ l) : b.Held l' where
  held r hr := h.held r ((hmem r).mp hr)
  rest r hr := h.rest r fun hl => hr ((hmem r).mpr hl)

/-- What is held is the same whatever list says it. -/
theorem mem_of_held {l' : List Nat} (h : b.Held l) (h' : b.Held l') {r : Nat} (hr : r ∈ l) : r ∈ l' := by
  by_contra hno
  have hover := h'.rest r hno
  rw [h.held r hr] at hover
  exact hover.elim nofun nofun

theorem held_writes {buf : Nat} {l : List Nat} (hbuf : buf ∈ l) : ∀ (is : List Nat) {b : Book Nat}, b.Held l →
    (book (is.map (Event.write buf)) b).Held l
  | [], _, h => h
  | _ :: is, b, h => by
    exact held_writes hbuf is (h.use hbuf)

/-- **The digits**: the buffer is released if one is wrong. -/
theorem held_hexEvents {len buf : Nat} {l : List Nat} (hbuf : buf ∈ l) :
    ∀ {n i : Nat} {p : List Nat} {b : Book Nat}, b.Held l →
    (book (hexEvents len buf i n p) b).Held (if (readHex n p).isSome then l else l.filter (· ≠ buf))
  | 0, _, _, _, h => h
  | n + 1, i, [], b, h => by
    rw [hexEvents, book_append, book_reads]
    · exact h.give hbuf
    · exact nofun
  | n + 1, i, [c], b, h => by
    rw [hexEvents, book_append, book_reads]
    · exact h.give hbuf
    · exact nofun
  | n + 1, i, hi :: lo :: p, b, h => by
    rw [hexEvents, book_append, book_reads, readHex]
    cases hexDigit hi with
    | none => exact h.give hbuf
    | some x =>
      cases hexDigit lo with
      | none => exact h.give hbuf
      | some y =>
        have hrest : (book (hexEvents len buf (i + 1) n p) (b.enter ⟨.use, buf⟩)).Held
            (if (readHex n p).isSome then l else l.filter (· ≠ buf)) := held_hexEvents hbuf (h.use hbuf)
        cases hread : readHex n p with
        | none | some r =>
          rw [hread] at hrest
          exact hrest

theorem filter_cons_self (hk : ∀ r ∈ l, r < k) : (k :: l).filter (· ≠ k) = l := by
  rw [filter_cons_of_neg (by simp), filter_eq_self]
  intro r hr
  simpa using Nat.ne_of_lt (hk r hr)

/-- What a part owns when it is finished, and what it leaves behind when it is not. -/
def kept (k : Nat) : Option (VmsValue F × List Nat × Nat) → List Nat
  | some (v, _, _) => (slot k v).taken
  | none => []

/-- **The bytes of a text or a blob.** -/
theorem held_bytesEvents {kind : BytesKind} (h : b.Held l) (hk : ∀ r ∈ l, r < k) :
    (book (bytesEvents len heap kind k p) b).Held
      (kept k (decodeBytes heap kind k p : Option (VmsValue F × List Nat × Nat)) ++ l) := by
  have hfresh : k ∉ l := fun hr => absurd (hk k hr) (Nat.lt_irrefl k)
  rw [bytesEvents, book_append, book_reads, decodeBytes]
  generalize (p.takeWhile (· != 58)).take 15 = lenbuf
  cases colon (p.drop lenbuf.length) with
  | none => exact h
  | some q =>
    simp only [bind_eq_bind, bind_some]
    cases hheap : heap k with
    | false => exact h
    | true =>
      simp only [Bool.not_true, Bool.false_eq_true, if_false]
      have hhex : (book (hexEvents len k 0 (strtoul lenbuf) q) (b.enter ⟨.take, k⟩)).Held
          (if (readHex (strtoul lenbuf) q).isSome then k :: l else (k :: l).filter (· ≠ k)) :=
        held_hexEvents mem_cons_self (h.take hfresh)
      rw [filter_cons_self hk] at hhex
      rw [book_cons, book_append]
      cases hread : readHex (strtoul lenbuf) q with
      | none =>
        rw [hread] at hhex
        exact hhex
      | some r =>
        rw [hread] at hhex
        simp only [bind_some, isSome_some, if_true] at hhex ⊢
        cases kind with
        | blob => exact hhex
        | text =>
          rw [keepEvents, keepBytes]
          cases hcopy : heap (k + 1) with
          | false =>
            have hgive := hhex.give mem_cons_self
            rw [filter_cons_self hk] at hgive
            exact hgive
          | true =>
            have hnew : k + 1 ∉ k :: l := by
              intro hr
              rcases mem_cons.mp hr with heq | hr
              · omega
              · exact absurd (hk _ hr) (by omega)
            exact held_writes mem_cons_self _ (hhex.take hnew)

/-- A part without bytes owns nothing. -/
theorem kept_plain {c : Nat} (hs : c ≠ 115) (hb : c ≠ 98) : kept k (decodePart dt heap k (c :: p)) = [] := by
  cases hpart : decodePart dt heap k (c :: p) with
  | none => rfl
  | some out =>
    obtain ⟨w, -, hvalue, htext, -⟩ := spelling_of_decodePart dt hpart
    rw [kept, ← hvalue]
    cases w with
    | null | int | float => rfl
    | bytes kind =>
      cases kind with
      | text => exact absurd (cons_eq_cons.mp htext).1 hs
      | blob => exact absurd (cons_eq_cons.mp htext).1 hb

/-- **One part.** -/
theorem held_partEvents {c : Nat} (h : b.Held l) (hk : ∀ r ∈ l, r < k) :
    (book (partEvents len heap k (c :: p)) b).Held (kept k (decodePart dt heap k (c :: p)) ++ l) := by
  rw [partEvents]
  split_ifs with _ _ _ hs hb
  iterate 3
    rw [book_reads, kept_plain dt (by omega) (by omega)]
    exact h
  · subst hs
    exact held_bytesEvents h hk
  · subst hb
    exact held_bytesEvents h hk
  · rw [kept_plain dt hs hb]
    exact h

/-- The requests of a part: as many as it has buffers. -/
theorem decodePart_next {k' : Nat} {t rest : List Nat} {v : VmsValue F}
    (h : decodePart dt heap k t = some (v, rest, k')) :
    k ≤ k' ∧ (slot k v).taken.Nodup ∧ ∀ r ∈ (slot k v).taken, k ≤ r ∧ r < k' := by
  obtain ⟨w, -, rfl, -, rfl, -⟩ := spelling_of_decodePart dt h
  cases w with
  | null | int | float => exact ⟨le_rfl, nodup_nil, nofun⟩
  | bytes kind => cases kind <;> simp [Spelling.value, BytesKind.value, Spelling.requests, slot, Slot.taken]

/-- **The loop over the parts** keeps exactly what the finished parts have taken. -/
theorem decodeLoop_held {room : Nat} (h : b.Held l) (hk : ∀ r ∈ l, r < k) :
    (book (decodeLoop dt len heap room k p).events b).Held
      ((decodeLoop dt len heap room k p).parts.flatMap Slot.taken ++ l) := by
  have hes {k c : Nat} {t l : List Nat} {b : Book Nat} {out : Option (VmsValue F × List Nat × Nat)}
      (hpart : decodePart dt heap k (c :: t) = out) (h : b.Held l) (hk : ∀ r ∈ l, r < k) :
      (book (reads len 1 (c :: t) ++ partEvents len heap k (c :: t)) b).Held (kept k out ++ l) := by
    rw [book_append, book_reads, ← hpart]
    exact held_partEvents dt h hk
  have hone (k k' : Nat) (v : VmsValue F) (rest l : List Nat) :
      [slot k v].flatMap Slot.taken ++ l = kept k (some (v, rest, k')) ++ l := by
    rw [flatMap_singleton]
    rfl
  fun_induction decodeLoop dt len heap room k p generalizing l b with
  | case1 | case2 => rw [book_reads]; exact h
  | case3 =>
    rename_i hpart
    exact hes hpart h hk
  | case4 =>
    rename_i k' hpart
    rw [book_append, book_reads, hone _ k' _ []]
    exact hes hpart h hk
  | case5 =>
    rename_i k _ _ _ v rest k' _ hpart ih
    obtain ⟨hle, -, hids⟩ := decodePart_next dt hpart
    have hk' : ∀ r ∈ kept k (some (v, 124 :: rest, k')) ++ l, r < k' := by
      intro r hr
      rcases mem_append.mp hr with hr | hr
      · exact (hids r hr).2
      · exact Nat.lt_of_lt_of_le (hk r hr) hle
    rw [book_append, book_append, book_reads, flatMap_cons]
    refine held_congr (ih (hes hpart h hk) hk') fun r => ?_
    simp only [mem_append, kept]
    tauto
  | case6 =>
    rename_i d rest k' hpart _
    rw [book_append, book_reads, hone _ k' _ (d :: rest)]
    exact hes hpart h hk

/-- The buffers of the parts are all different. -/
theorem decodeLoop_ids {room : Nat} : ((decodeLoop dt len heap room k p).parts.flatMap Slot.taken).Nodup ∧
      (∀ r ∈ (decodeLoop dt len heap room k p).parts.flatMap Slot.taken, k ≤ r) ∧
      ∀ s ∈ (decodeLoop dt len heap room k p).parts, ∃ j v, s = slot j v := by
  have hone {k k' : Nat} {v : VmsValue F} {t rest : List Nat} (hpart : decodePart dt heap k t = some (v, rest, k')) :
      ([slot k v].flatMap Slot.taken).Nodup ∧ (∀ r ∈ [slot k v].flatMap Slot.taken, k ≤ r) ∧
        ∀ s ∈ [slot k v], ∃ j v, s = slot (F := F) j v := by
    obtain ⟨-, hnodup, hids⟩ := decodePart_next dt hpart
    rw [flatMap_singleton]
    exact ⟨hnodup, fun r hr => (hids r hr).1, fun s hs => ⟨k, v, mem_singleton.mp hs⟩⟩
  fun_induction decodeLoop dt len heap room k p with
  | case1 | case2 | case3 => exact ⟨nodup_nil, by simp, by simp⟩
  | case4 room k c t es v k' hpart | case6 room k c t es v d rest k' hpart => exact hone hpart
  | case5 room k c t es v rest k' r hpart ih =>
    obtain ⟨hle, hnodup, hids⟩ := decodePart_next dt hpart
    obtain ⟨hrest, hge, hslots⟩ := ih
    refine ⟨nodup_append.mpr ⟨hnodup, hrest, ?_⟩, ?_, forall_mem_cons.mpr ⟨⟨k, v, rfl⟩, hslots⟩⟩
    · intro r hr q hq heq
      have hlt := (hids r hr).2
      have hge' := hge q hq
      omega
    · intro r hr
      rcases mem_append.mp hr with hr | hr
      · exact (hids r hr).1
      · exact Nat.le_trans hle (hge r hr)

/-- `vms_identity_free` releases one buffer less than a text has taken. -/
theorem taken_slot (j : Nat) (v : VmsValue F) :
    ((slot j v).text.toList ++ (slot j v).blob.toList).Sublist (slot j v).taken ∧
      (slot j v).taken.length = ((slot j v).text.toList ++ (slot j v).blob.toList).length + (isText v).toNat ∧
      ((slot j v).taken = [] ↔ asks v = false) := by
  cases v <;> simp [slot, Slot.taken, isText, asks]

theorem free_of_taken : ∀ {parts : List (Slot F)}, (∀ s ∈ parts, ∃ j v, s = slot j v) →
    (vmsIdentityFree parts).Sublist (parts.flatMap Slot.taken) ∧ (parts.flatMap Slot.taken).length =
        (vmsIdentityFree parts).length + parts.countP (fun s => isText s.value)
  | [], _ => ⟨List.Sublist.refl _, rfl⟩
  | s :: parts, h => by
    obtain ⟨⟨j, v, rfl⟩, hparts⟩ := forall_mem_cons.mp h
    obtain ⟨hsub, hlen, -⟩ := taken_slot j v
    obtain ⟨hsub', hlen'⟩ := free_of_taken hparts
    refine ⟨hsub.append hsub', ?_⟩
    have hcons : vmsIdentityFree (slot j v :: parts) =
        ((slot j v).text.toList ++ (slot j v).blob.toList) ++ vmsIdentityFree parts := flatMap_cons
    have hcount : (slot j v :: parts).countP (fun s => isText s.value) =
        parts.countP (fun s => isText s.value) + (isText v).toNat := by
      rw [countP_cons, slot_value]
      cases isText v <;> rfl
    have hlength := congrArg List.length hcons
    rw [length_append] at hlength
    rw [flatMap_cons, length_append]
    omega

variable {parts : List (Slot F)}

/-- Where the parts hold what they have taken, they hold what is released exactly when no part is a text. -/
theorem held_free_iff (hslots : ∀ s ∈ parts, ∃ j v, s = slot j v)
    (hnodup : (parts.flatMap Slot.taken).Nodup) (h : b.Held (parts.flatMap Slot.taken)) :
    (b.Held (vmsIdentityFree parts) ∧ (vmsIdentityFree parts).Nodup) ↔ ∀ s ∈ parts, isText s.value = false := by
  obtain ⟨hsub, hlen⟩ := free_of_taken hslots
  constructor
  · rintro ⟨hfree, hfreeNodup⟩
    have hperm : (vmsIdentityFree parts).Perm (parts.flatMap Slot.taken) :=
      (perm_ext_iff_of_nodup hfreeNodup hnodup).mpr fun r => ⟨mem_of_held hfree h, mem_of_held h hfree⟩
    have hzero : parts.countP (fun s => isText s.value) = 0 := by
      have hsame := hperm.length_eq
      omega
    intro s hs
    simpa using countP_eq_zero.mp hzero s hs
  · intro hno
    have hzero : parts.countP (fun s => isText s.value) = 0 := countP_eq_zero.mpr fun s hs => by simp [hno s hs]
    have heq := hsub.eq_of_length (by omega)
    rw [heq]
    exact ⟨h, hnodup⟩

theorem closed_taken_iff (hslots : ∀ s ∈ parts, ∃ j v, s = slot j v)
    (h : b.Held (parts.flatMap Slot.taken)) : b.Closed ↔ ∀ s ∈ parts, asks s.value = false := by
  have hempty : b.Closed ↔ parts.flatMap Slot.taken = [] := by
    constructor
    · intro hclosed
      exact eq_nil_iff_forall_not_mem.mpr fun r hr => not_mem_nil (mem_of_held h hclosed.held hr)
    · intro hnil
      rw [hnil] at h
      exact h.closed
  rw [hempty, flatMap_eq_nil_iff]
  refine forall₂_congr fun s hs => ?_
  obtain ⟨j, v, rfl⟩ := hslots s hs
  rw [slot_value]
  exact (taken_slot j v).2.2

/-! ## What a token owns -/

/-- The heap grants what the parts ask for, from its `k`-th request on. -/
def Granted (heap : Nat → Bool) : Nat → List (Spelling F) → Prop
  | _, [] => True
  | k, w :: ws => (∀ i < w.requests, heap (k + i) = true) ∧ Granted heap (k + w.requests) ws

/-- The decoder gets as far as this value: parts it takes, each with its bar, and then the part of the value, whatever
    follows it; there is room for all of them, and memory. -/
def Finished (heap : Nat → Bool) (k room : Nat) (p : List Nat) (v : VmsValue F) : Prop :=
  ∃ (ws : List (Spelling F)) (x : Spelling F) (rest : List Nat), ws.length < room ∧ (∀ w ∈ ws ++ [x], w.Ok dt) ∧
    Granted heap k (ws ++ [x]) ∧ p = barred ws ++ (x.text ++ rest) ∧ x.value = v

/-- Parts the decoder takes and nothing else; there is room for all of them, and memory. -/
def Accepted (heap : Nat → Bool) (k room : Nat) (p : List Nat) : Prop :=
  ∃ (ws : List (Spelling F)) (trailing : Bool), ws.length ≤ room ∧ (∀ w ∈ ws, w.Ok dt) ∧ Granted heap k ws ∧
    p = row 124 trailing (ws.map Spelling.text)

variable {room : Nat} {v : VmsValue F}

theorem finished_succ : Finished dt heap k (room + 1) p v ↔ ∃ u rest k', decodePart dt heap k p = some (u, rest, k') ∧
    (u = v ∨ ∃ q, rest = 124 :: q ∧ Finished dt heap k' room q v) := by
  constructor
  · rintro ⟨ws, x, rest, hlen, hok, hgranted, rfl, rfl⟩
    cases ws with
    | nil => exact ⟨_, _, _, decodePart_spelling dt (hok x (mem_singleton_self x)) hgranted.1 rest, .inl rfl⟩
    | cons w ws =>
      obtain ⟨hw, hws⟩ := forall_mem_cons.mp hok
      rw [barred_cons]
      exact ⟨_, _, _, decodePart_spelling dt hw hgranted.1 _,
        .inr ⟨_, rfl, ws, x, rest, Nat.lt_of_succ_lt_succ hlen, hws, hgranted.2, rfl, rfl⟩⟩
  · rintro ⟨u, rest, k', hpart, hv⟩
    obtain ⟨w, hw, hvalue, htext, rfl, hgranted⟩ := spelling_of_decodePart dt hpart
    rcases hv with rfl | ⟨q, rfl, ws, x, rest', hlen, hok, hws, rfl, hx⟩
    · exact ⟨[], w, rest, Nat.succ_pos _, forall_mem_singleton.mpr hw, ⟨hgranted, trivial⟩, htext, hvalue⟩
    · exact ⟨w :: ws, x, rest', Nat.succ_lt_succ hlen, forall_mem_cons.mpr ⟨hw, hok⟩, ⟨hgranted, hws⟩,
        htext.trans (barred_cons w ws _).symm, hx⟩

theorem accepted_succ (hp : p ≠ []) : Accepted dt heap k (room + 1) p ↔ ∃ u rest k',
    decodePart dt heap k p = some (u, rest, k') ∧ (rest = [] ∨ ∃ q, rest = 124 :: q ∧ Accepted dt heap k' room q) := by
  constructor
  · rintro ⟨ws, trailing, hlen, hok, hgranted, rfl⟩
    cases ws with
    | nil => exact absurd rfl hp
    | cons w ws =>
      obtain ⟨hw, hws⟩ := forall_mem_cons.mp hok
      refine ⟨_, _, _, decodePart_spelling dt hw hgranted.1 _, ?_⟩
      refine (behind_cases 124 trailing (ws.map Spelling.text)).imp And.left fun hmore => ⟨_, hmore, ?_⟩
      exact ⟨ws, trailing, Nat.le_of_succ_le_succ hlen, hws, hgranted.2, rfl⟩
  · rintro ⟨u, rest, k', hpart, hrest⟩
    obtain ⟨w, hw, -, htext, rfl, hgranted⟩ := spelling_of_decodePart dt hpart
    rcases hrest with rfl | ⟨q, rfl, ws, trailing, hlen, hok, hws, rfl⟩
    · exact ⟨[w], false, Nat.succ_le_succ (Nat.zero_le _), forall_mem_singleton.mpr hw, ⟨hgranted, trivial⟩, htext⟩
    · -- nothing behind the bar: it was the trailing one
      refine ⟨w :: ws, trailing || ws.isEmpty, Nat.succ_le_succ hlen, forall_mem_cons.mpr ⟨hw, hok⟩,
        ⟨hgranted, hws⟩, ?_⟩
      rw [htext]
      cases ws with
      | nil => simp [row, behind]
      | cons => simp [row, behind]

/-- **The loop over the parts**, by its token and its heap: the values it finishes, and whether it succeeds. -/
theorem decodeLoop_spec : (∀ v, (∃ s ∈ (decodeLoop dt len heap room k p).parts, s.value = v) ↔
    Finished dt heap k room p v) ∧
    ((decodeLoop dt len heap room k p).ok = true ↔ Accepted dt heap k room p) := by
  fun_induction decodeLoop dt len heap room k p with
  | case1 room k =>
    refine ⟨fun v => iff_of_false (by simp) ?_, iff_of_true rfl ⟨[], false, Nat.zero_le _, nofun, trivial, rfl⟩⟩
    rintro ⟨ws, x, rest, -, hok, -, hp, -⟩
    have hx := (reads_spelling dt (hok x (mem_append_right _ (mem_singleton_self x)))).1
    simp [hx] at hp
  | case2 k c t =>
    refine ⟨fun v => iff_of_false (by simp) ?_, iff_of_false nofun ?_⟩
    · rintro ⟨ws, x, rest, hlen, -⟩
      exact absurd hlen (Nat.not_lt_zero _)
    · rintro ⟨ws, trailing, hlen, -, -, hp⟩
      obtain rfl := eq_nil_of_length_eq_zero (Nat.le_zero.mp hlen)
      cases hp
  | case3 room k c t es hpart =>
    constructor
    · intro v
      rw [finished_succ, hpart]
      simp
    · rw [accepted_succ dt (cons_ne_nil c t), hpart]
      simp
  | case4 room k c t es u k' hpart =>
    constructor
    · intro v
      rw [finished_succ, hpart]
      simp [slot_value]
    · rw [accepted_succ dt (cons_ne_nil c t), hpart]
      simp
  | case5 room k c t es u rest k' r hpart ih =>
    constructor
    · intro v
      rw [finished_succ, hpart]
      simp [slot_value, ← ih.1, r]
    · rw [accepted_succ dt (cons_ne_nil c t), hpart]
      simp [← ih.2, r]
  | case6 room k c t es u d rest k' hpart hd =>
    constructor
    · intro v
      rw [finished_succ, hpart]
      simp [slot_value, hd]
    · rw [accepted_succ dt (cons_ne_nil c t), hpart]
      simp [hd]

/-- What the decoder reads behind `v1|` holds no text that it finishes, and a blob that it finishes only where it takes
    everything. -/
def Releasable (heap : Nat → Bool) (maxParts : Nat) (token : List Nat) : Prop :=
  ∀ p v, cstr token = wide "v1|" ++ p → Finished dt heap 0 maxParts p v →
    isText v = false ∧ (asks v = true → Accepted dt heap 0 maxParts p)

/-- **Ownership.**  Whatever is refused, a call keeps exactly what `vms_identity_free` releases if it succeeds, and
    nothing if it fails, exactly when the decoder finishes no text and, in a token that it will not accept, no blob. -/
theorem decode_owns_iff (heap : Nat → Bool) (maxParts : Nat) (token : List Nat) :
    (decode dt heap maxParts token).OwnsExactly ↔ Releasable dt heap maxParts token := by
  unfold decode
  dsimp only
  split
  · rename_i p hp
    generalize hrun : decodeLoop dt (cstr token).length heap maxParts 0 p = r
    obtain ⟨hnodup, -, hslots⟩ := hrun ▸ decodeLoop_ids dt
    obtain ⟨hparts, hok⟩ := hrun ▸ decodeLoop_spec dt
    have hheld : (book (reads (cstr token).length (compared (wide "v1|") (cstr token)) (cstr token) ++ r.events)
        Book.empty).Held (r.parts.flatMap Slot.taken) := by
      rw [book_append, book_reads, ← append_nil (List.flatMap _ _), ← hrun]
      exact decodeLoop_held dt Book.closed_empty.held nofun
    have hcond : Releasable dt heap maxParts token ↔
        ∀ s ∈ r.parts, isText s.value = false ∧ (asks s.value = true → r.ok = true) := by
      constructor
      · intro h s hs
        exact (h p s.value hp ((hparts _).mp ⟨s, hs, rfl⟩)).imp_right fun haccepted hasks => hok.mpr (haccepted hasks)
      · intro h q v hq hv
        obtain rfl : q = p := append_cancel_left (hq.symm.trans hp)
        obtain ⟨s, hs, rfl⟩ := (hparts v).mpr hv
        exact (h s hs).imp_right fun hsucceeds hasks => hok.mp (hsucceeds hasks)
    rw [hcond, Outcome.OwnsExactly]
    cases hr : r.ok with
    | true => simpa using held_free_iff hslots hnodup hheld
    | false =>
      refine (closed_taken_iff hslots hheld).trans (forall₂_congr fun s _ => ?_)
      cases s.value <;> simp [isText, asks]
  · rename_i hno
    refine iff_of_true ?_ fun p v hp => absurd hp (hno p)
    show (book (reads _ _ _) Book.empty).Closed
    rw [book_reads]
    exact Book.closed_empty

/-- A text leaves the buffer it was copied from behind; a token that is wrong behind a blob leaves the blob. -/
theorem decode_leaks : (decode twoTokenDoubles (fun _ => true) 1 (wide "v1|s1:61")).ok = true ∧
      vmsIdentityFree (decode twoTokenDoubles (fun _ => true) 1 (wide "v1|s1:61")).parts = [1] ∧
      book (decode twoTokenDoubles (fun _ => true) 1 (wide "v1|s1:61")).events Book.empty 0 = .held ∧
      (decode twoTokenDoubles (fun _ => true) 2 (wide "v1|b1:61|x")).ok = false ∧
      book (decode twoTokenDoubles (fun _ => true) 2 (wide "v1|b1:61|x")).events Book.empty 0 = .held := by
  decide +kernel

end VirtualMssql.DecodeMemory
