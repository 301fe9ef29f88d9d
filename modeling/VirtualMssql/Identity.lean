/-
  IDENTITY TOKENS — `vms_identity_encode` and `vms_identity_decode`.

  A token is `v1|` and its parts, with a `|` between them.  A part is a letter for its kind, a number or a length
  up to a colon, and for texts and blobs the bytes in hexadecimal.  So a part finds its own end, and a token is a
  row of items (Lib.Items).

  The decoder takes more than the encoder writes.  `Spelling` is what a part may look like to it: anything between `n`
  and the colon, a plus sign or leading zeros, an integer of any size (it wraps around), a length that `strtoul` makes
  sense of; and a `|` at the end.  Every token that is accepted is a row of spellings (`spelled_of_decode`) and every
  spelling is read (`reads_spelling`); the encoder writes one of them (`spell`).  `identity_roundtrip` is the one
  direction, `token_canonical_iff` the other.

  The heap answers each request: `heap k` says whether the `k`-th one is granted.  `size_t` has 64 bits, and lengths
  that fit into memory do not reach them; `unsigned long` has 32.
-/
import VirtualMssql.Lib.Items
import VirtualMssql.DmlSql

namespace VirtualMssql.Identity

open Items List Option Function
open DmlSql (VmsValue)
open TSql (asciiDigit asciiSpace wide)

variable {F : Type}

/-- `double`, with what the tokens need of it. -/
structure TokenDoubles (F : Type) extends DoubleText F where
  /-- `strtod` reads a text to its end; it never reads past a colon. -/
  whole : List Nat → Bool
  whole_print : ∀ f, finite f = true → whole (print f) = true
  print_token : ∀ f, (print f).length ≤ 24 ∧ 58 ∉ print f

variable (dt : TokenDoubles F)

/-! ## `vms_identity_encode` -/

/-- The table `hx`. -/
def hx (n : Nat) : Nat := (wide "0123456789abcdef").getD n 0

/-- `hex_encode`. -/
def hexEncode : List Nat → List Nat
  | [] => []
  | b :: bs => hx (b / 16 % 16) :: hx (b % 16) :: hexEncode bs

/-- `PUTS`, and `PUTCH` of one character. -/
def puts (cap : Nat) (o s : List Nat) : Option (List Nat) :=
  if cap ≤ o.length + s.length then none else some (o ++ s)

variable (heap : Nat → Bool)

/-- The texts and the blobs. -/
def encodeBytes (cap k : Nat) (o : List Nat) (letter : Nat) (bytes : List Nat) :
    Option (List Nat × Nat) :=
  if !heap k then none
  else do
    let o ← puts cap o ((letter :: (decimal bytes.length ++ [58])).take 31)
    let o ← puts cap o (hexEncode bytes)
    some (o, k + 1)

/-- One part. -/
def encodePart (cap k : Nat) (o : List Nat) : VmsValue F → Option (List Nat × Nat)
  | .null => (puts cap o (wide "n0:")).map (·, k)
  | .int i => (puts cap o ((105 :: (lldText i.val ++ [58])).take 31)).map (·, k)
  | .float f => (puts cap o ((102 :: (dt.print f ++ [58])).take 39)).map (·, k)
  | .text t => encodeBytes heap cap k o 115 t
  | .blob b => encodeBytes heap cap k o 98 b

/-- `if (i) PUTCH('|')`. -/
def bar (cap i : Nat) (o : List Nat) : Option (List Nat) := if i = 0 then some o else puts cap o [124]

/-- The loop over the parts, from the `i`-th on. -/
def encodeParts (cap : Nat) : Nat → Nat → List Nat → List (VmsValue F) → Option (List Nat)
  | _, _, o, [] => some o
  | i, k, o, p :: ps => do
    let o ← bar cap i o
    let (o, k) ← encodePart dt heap cap k o p
    encodeParts cap (i + 1) k o ps

/-- `vms_identity_encode`. -/
def vmsIdentityEncode (parts : List (VmsValue F)) (cap : Nat) : Option (List Nat) := do
  let o ← puts cap [] (wide "v1|")
  let o ← encodeParts dt heap cap 0 0 o parts
  if cap ≤ o.length + 1 then none else some o

/-! ## `vms_identity_decode` -/

/-- `hex_digit`. -/
def hexDigit (c : Nat) : Option Nat :=
  if 48 ≤ c ∧ c ≤ 57 then some (c - 48)
  else if 97 ≤ c ∧ c ≤ 102 then some (c - 97 + 10)
  else none

/-- The loop over the hexadecimal digits. -/
def readHex : Nat → List Nat → Option (List Nat × List Nat)
  | 0, p => some ([], p)
  | n + 1, hi :: lo :: p => do
    let h ← hexDigit hi
    let l ← hexDigit lo
    let (raw, rest) ← readHex n p
    some ((h * 16 + l) :: raw, rest)
  | _ + 1, _ => none

/-- `*p == ':'`, and the text behind it. -/
def colon : List Nat → Option (List Nat)
  | c :: p => if c = 58 then some p else none
  | [] => none

/-- `strtoul(lenbuf, NULL, 10)`. -/
def strtoul (t : List Nat) : Nat :=
  let (neg, rest) := takeSign (t.dropWhile asciiSpace)
  let v := digitsValue (rest.takeWhile asciiDigit)
  if 2 ^ 32 ≤ v then 2 ^ 32 - 1
  else if neg then (2 ^ 32 - v) % 2 ^ 32
  else v

/-- The digits of an integer, modulo 2^64. -/
def accumulate (digits : List Nat) : I64 :=
  digits.foldl (fun v (c : Nat) => I64.wrap (v.val * 10 + ((c : Int) - 48))) (I64.wrap 0)

def decodeNull (k : Nat) (p : List Nat) : Option (VmsValue F × List Nat × Nat) := do
  let p ← colon (p.dropWhile (· != 58))
  some (.null, p, k)

def decodeInt (k : Nat) (p : List Nat) : Option (VmsValue F × List Nat × Nat) :=
  let (neg, q) := takeSign p
  let digits := q.takeWhile asciiDigit
  if digits = [] then none
  else do
    let p ← colon (q.dropWhile asciiDigit)
    some (.int (I64.wrap ((accumulate digits).val * if neg then -1 else 1)), p, k)

def decodeFloat (k : Nat) (p : List Nat) : Option (VmsValue F × List Nat × Nat) := do
  let t := p.takeWhile (· != 58)
  let f ← dt.strtod t
  if !dt.whole t then none
  else do
    let p ← colon (p.dropWhile (· != 58))
    some (.float f, p, k)

/-- What a part with bytes is. -/
inductive BytesKind
  | text
  | blob
  deriving DecidableEq

/-- A text is copied once more. -/
def keepBytes (kind : BytesKind) (k : Nat) (raw p : List Nat) :
    Option (VmsValue F × List Nat × Nat) :=
  match kind with
  | .text => if !heap (k + 1) then none else some (.text raw, p, k + 2)
  | .blob => some (.blob raw, p, k + 1)

def decodeBytes (kind : BytesKind) (k : Nat) (p : List Nat) :
    Option (VmsValue F × List Nat × Nat) := do
  let lenbuf := (p.takeWhile (· != 58)).take 15
  let p ← colon (p.drop lenbuf.length)
  if !heap k then none
  else do
    let (raw, p) ← readHex (strtoul lenbuf) p
    keepBytes heap kind k raw p

/-- One part. -/
def decodePart (k : Nat) : List Nat → Option (VmsValue F × List Nat × Nat)
  | [] => none
  | kind :: p =>
    if kind = 110 then decodeNull k p
    else if kind = 105 then decodeInt k p
    else if kind = 102 then decodeFloat dt k p
    else if kind = 115 then decodeBytes heap .text k p
    else if kind = 98 then decodeBytes heap .blob k p
    else none

/-- `vms_identity_decode`. -/
def vmsIdentityDecode (maxParts : Nat) (token : List Nat) : Option (List (VmsValue F)) :=
  match cstr token with
  | 118 :: 49 :: 124 :: p => (readAll (decodePart dt heap) 124 maxParts 0 p).map Prod.fst
  | _ => none

/-! ## Hexadecimal digits -/

theorem hexDigit_hx : ∀ n < 16, hexDigit (hx n) = some n := by decide

theorem hx_of_hexDigit {c n : Nat} (h : hexDigit c = some n) : c = hx n ∧ n < 16 := by
  have hall : ∀ c < 103, ∀ n < 16, hexDigit c = some n → c = hx n := by decide
  have hrange : c < 103 ∧ n < 16 := by
    unfold hexDigit at h
    split_ifs at h <;> cases h <;> omega
  exact ⟨hall c hrange.1 n hrange.2 h, hrange.2⟩

theorem hx_pos : ∀ n < 16, 0 < hx n := by decide

/-- **Bytes are read back.** -/
theorem readHex_hexEncode : ∀ {bytes : List Nat}, (∀ b ∈ bytes, b < 256) → ∀ rest,
    readHex bytes.length (hexEncode bytes ++ rest) = some (bytes, rest)
  | [], _, _ => rfl
  | b :: bs, hb, rest => by
    have hbyte := hb b mem_cons_self
    have hrest := readHex_hexEncode (fun c hc => hb c (mem_cons_of_mem b hc)) rest
    have hsum : b / 16 % 16 * 16 + b % 16 = b := by omega
    simp [hexEncode, readHex, hexDigit_hx _ (Nat.mod_lt _ (by decide)), hrest, hsum]

theorem hexEncode_of_readHex : ∀ {n : Nat} {p raw rest : List Nat}, readHex n p = some (raw, rest) →
    p = hexEncode raw ++ rest ∧ raw.length = n ∧ ∀ b ∈ raw, b < 256
  | 0, p, raw, rest, h => by
    cases h
    exact ⟨rfl, rfl, by simp⟩
  | n + 1, [], raw, rest, h => by cases h
  | n + 1, [_], raw, rest, h => by cases h
  | n + 1, hi :: lo :: p, raw, rest, h => by
    simp only [readHex, bind_eq_bind, bind_eq_some_iff] at h
    obtain ⟨x, hx', y, hy, ⟨raw', rest'⟩, hread, hout⟩ := h
    cases hout
    obtain ⟨hhi, hx16⟩ := hx_of_hexDigit hx'
    obtain ⟨hlo, hy16⟩ := hx_of_hexDigit hy
    obtain ⟨hp, hlen, hbytes⟩ := hexEncode_of_readHex hread
    have hdiv : (x * 16 + y) / 16 % 16 = x := by omega
    have hmod : (x * 16 + y) % 16 = y := by omega
    refine ⟨by rw [hexEncode, hdiv, hmod, ← hhi, ← hlo, hp]; rfl, by rw [length_cons, hlen], ?_⟩
    intro b hb
    rcases mem_cons.mp hb with rfl | hb
    · omega
    · exact hbytes b hb

/-! ## Spellings -/

inductive Sign
  | none
  | plus
  | minus
  deriving DecidableEq

def Sign.text : Sign → List Nat
  | .none => []
  | .plus => [43]
  | .minus => [45]

def Sign.factor : Sign → Int
  | .minus => -1
  | _ => 1

def BytesKind.letter : BytesKind → Nat
  | .text => 115
  | .blob => 98

def BytesKind.value : BytesKind → List Nat → VmsValue F
  | .text, t => .text t
  | .blob, b => .blob b

/-- What a part of a token looks like to the decoder. -/
inductive Spelling (F : Type)
  | null (skipped : List Nat)
  | int (sign : Sign) (digits : List Nat)
  | float (t : List Nat) (f : F)
  | bytes (kind : BytesKind) (length payload : List Nat)

namespace Spelling

def text : Spelling F → List Nat
  | null skipped => 110 :: (skipped ++ [58])
  | int sign digits => 105 :: (sign.text ++ (digits ++ [58]))
  | float t _ => 102 :: (t ++ [58])
  | bytes kind length payload => kind.letter :: (length ++ 58 :: hexEncode payload)

/-- An integer that is too large wraps around. -/
def value : Spelling F → VmsValue F
  | null _ => .null
  | int sign digits => .int (I64.wrap (sign.factor * digitsValue digits))
  | float _ f => .float f
  | bytes kind _ payload => kind.value payload

/-- How often its part asks the heap: a text is copied once more. -/
def requests : Spelling F → Nat
  | bytes .text _ _ => 2
  | bytes .blob _ _ => 1
  | _ => 0

/-- The decoder takes it. -/
def Ok : Spelling F → Prop
  | null skipped => 58 ∉ skipped
  | int _ digits => digits ≠ [] ∧ ∀ c ∈ digits, asciiDigit c = true
  | float t f => 58 ∉ t ∧ dt.strtod t = some f ∧ dt.whole t = true
  | bytes _ length payload =>
    58 ∉ length ∧ length.length ≤ 15 ∧ strtoul length = payload.length ∧ ∀ b ∈ payload, b < 256

/-- It is written as the encoder writes it. -/
def Canonical : Spelling F → Prop
  | null skipped => skipped = wide "0"
  | int sign digits =>
    sign ≠ .plus ∧ PlainDigits digits ∧ (sign = .minus → digits ≠ wide "0") ∧
      int64Min ≤ sign.factor * digitsValue digits ∧ sign.factor * digitsValue digits ≤ int64Max
  | float t f => t = dt.print f
  | bytes _ length payload => length = decimal payload.length

end Spelling

theorem colon_some {p r : List Nat} : colon p = some r ↔ p = 58 :: r := by
  cases p with
  | nil => simp [colon]
  | cons c p => by_cases hc : c = 58 <;> simp [colon, hc]

variable {t : List Nat}

theorem ne_colon (h : 58 ∉ t) : ∀ c ∈ t, (c != 58) = true := by
  intro c hc
  simpa using fun h58 : c = 58 => h (h58 ▸ hc)

/-- A text up to its colon. -/
theorem takeWhile_colon (h : 58 ∉ t) (q : List Nat) : (t ++ 58 :: q).takeWhile (· != 58) = t := by
  rw [takeWhile_append_of_pos (ne_colon h)]
  simp

theorem dropWhile_colon (h : 58 ∉ t) (q : List Nat) : (t ++ 58 :: q).dropWhile (· != 58) = 58 :: q := by
  rw [dropWhile_append_of_pos (ne_colon h)]
  simp

theorem colon_notMem_takeWhile (p : List Nat) : 58 ∉ p.takeWhile (· != 58) := fun h => by
  simpa using mem_takeWhile_imp h

variable {digits : List Nat}

theorem accumulate_eq (h : ∀ c ∈ digits, asciiDigit c = true) :
    accumulate digits = I64.wrap (digitsValue digits) := by
  -- the loop started at any number
  have hloop : ∀ (ds : List Nat) (a : Nat), (∀ c ∈ ds, asciiDigit c = true) →
      ds.foldl (fun v (c : Nat) => I64.wrap (v.val * 10 + ((c : Int) - 48))) (I64.wrap a) =
        I64.wrap (ds.foldl (fun v d => v * 10 + (d - 48)) a : Nat) := by
    intro ds
    induction ds with
    | nil => intro a _; rfl
    | cons c ds ih =>
      intro a hds
      have hc := hds c mem_cons_self
      simp only [asciiDigit, Bool.and_eq_true, decide_eq_true_eq] at hc
      have hdigit : ((a * 10 + (c - 48) : Nat) : Int) = (a : Int) * 10 + ((c : Int) - 48) := by omega
      have hstep : I64.wrap ((I64.wrap a).val * 10 + ((c : Int) - 48)) =
          I64.wrap ((a * 10 + (c - 48) : Nat) : Int) := by
        rw [← I64.wrap_add, I64.wrap_mul, I64.wrap_add, hdigit]
      rw [foldl_cons, foldl_cons, hstep]
      exact ih _ fun d hd => hds d (mem_cons_of_mem c hd)
  exact hloop digits 0 h

theorem takeSign_text (sign : Sign) {q : List Nat} (hq : ∀ c ∈ q.head?, asciiDigit c = true) :
    takeSign (sign.text ++ q) = (decide (sign = .minus), q) := by
  cases sign with
  | none => exact takeSign_digit hq
  | plus | minus => rfl

theorem takeSign_spelled (p : List Nat) :
    ∃ sign : Sign, p = sign.text ++ (takeSign p).2 ∧ (takeSign p).1 = decide (sign = .minus) := by
  unfold takeSign
  split
  · exact ⟨.minus, rfl, rfl⟩
  · exact ⟨.plus, rfl, rfl⟩
  · exact ⟨.none, rfl, rfl⟩

variable {sign : Sign}

theorem int_value (h : ∀ c ∈ digits, asciiDigit c = true) :
    I64.wrap ((accumulate digits).val * if decide (sign = .minus) then -1 else 1) =
      I64.wrap (sign.factor * digitsValue digits) := by
  have hfactor : (if decide (sign = .minus) then -1 else 1 : Int) = sign.factor := by cases sign <;> rfl
  rw [accumulate_eq h, hfactor, I64.wrap_mul, Int.mul_comm]

variable {w : Spelling F} {heap} {v : VmsValue F} {k k' : Nat}

/-- **Every spelling is read**, when there is memory, whatever follows it. -/
theorem decodePart_spelling (hw : w.Ok dt) (hheap : ∀ i < w.requests, heap (k + i) = true) (rest : List Nat) :
    decodePart dt heap k (w.text ++ rest) = some (w.value, rest, k + w.requests) := by
  cases w with
  | null skipped =>
    simp [Spelling.text, decodePart, decodeNull, dropWhile_colon hw rest, colon_some.mpr rfl, Spelling.value,
      Spelling.requests]
  | int sign digits =>
    obtain ⟨hne, hdigits⟩ := hw
    have hhead : ∀ c ∈ (digits ++ 58 :: rest).head?, asciiDigit c = true := by
      rw [head?_append_of_ne_nil _ hne]
      exact fun c hc => hdigits c (mem_of_mem_head? hc)
    have htake : (digits ++ 58 :: rest).takeWhile asciiDigit = digits := by
      rw [takeWhile_append_of_pos hdigits]
      simp [asciiDigit]
    have hdrop : (digits ++ 58 :: rest).dropWhile asciiDigit = 58 :: rest := by
      rw [dropWhile_append_of_pos hdigits]
      simp [asciiDigit]
    simp only [Spelling.text, cons_append, append_assoc, nil_append, decodePart, decodeInt,
      takeSign_text sign hhead, htake, hdrop, if_neg hne, colon_some.mpr rfl, bind_eq_bind, bind_some,
      int_value hdigits, Spelling.value]
    rfl
  | float t f =>
    obtain ⟨hcolon, hread, hwhole⟩ := hw
    simp only [Spelling.text, cons_append, append_assoc, nil_append, decodePart, decodeFloat,
      takeWhile_colon hcolon rest, dropWhile_colon hcolon rest, hread, hwhole, colon_some.mpr rfl, bind_eq_bind,
      bind_some, if_true, Spelling.value]
    rfl
  | bytes kind len payload =>
    obtain ⟨hcolon, hlen, hcount, hbytes⟩ := hw
    have hbuf : ((len ++ 58 :: (hexEncode payload ++ rest)).takeWhile (· != 58)).take 15 = len := by
      rw [takeWhile_colon hcolon, take_of_length_le hlen]
    have hread := readHex_hexEncode hbytes rest
    have hfirst : heap k = true := hheap 0 (by cases kind <;> exact Nat.zero_lt_succ _)
    have hbody : decodeBytes heap kind k (len ++ 58 :: (hexEncode payload ++ rest)) =
        (keepBytes heap kind k payload rest : Option (VmsValue F × List Nat × Nat)) := by
      simp [decodeBytes, hbuf, colon_some.mpr rfl, hcount, hread, hfirst]
    rw [Spelling.text, cons_append, append_assoc, cons_append]
    cases kind with
    | text =>
      have hcopy : heap (k + 1) = true := hheap 1 Nat.one_lt_two
      exact hbody.trans (by rw [keepBytes, hcopy]; rfl)
    | blob => exact hbody

theorem reads_spelling (hw : w.Ok dt) : ReadsAs (decodePart dt fun _ => true) 124 w.text w.value :=
  ⟨by cases w <;> simp [Spelling.text], fun _ rest _ => ⟨_, decodePart_spelling dt hw (fun _ _ => rfl) rest⟩⟩

theorem keepBytes_some {kind : BytesKind} {raw p rest len : List Nat}
    (h : keepBytes heap kind k raw p = some (v, rest, k')) (hk : heap k = true) : kind.value raw = v ∧ p = rest ∧
      k' = k + (Spelling.bytes kind len raw : Spelling F).requests ∧
      ∀ i < (Spelling.bytes kind len raw : Spelling F).requests, heap (k + i) = true := by
  cases kind with
  | text =>
    rw [keepBytes] at h
    split_ifs at h with hcopy
    cases h
    refine ⟨rfl, rfl, rfl, fun i hi => ?_⟩
    match i, hi with
    | 0, _ => exact hk
    | 1, _ => simpa using hcopy
  | blob =>
    cases h
    refine ⟨rfl, rfl, rfl, fun i hi => ?_⟩
    obtain rfl : i = 0 := Nat.lt_one_iff.mp hi
    exact hk

/-- The part that was read, and what it asked the heap for. -/
def Spelled (heap : Nat → Bool) (k : Nat) (t : List Nat) (v : VmsValue F) (rest : List Nat) (k' : Nat)
    (w : Spelling F) : Prop :=
  w.Ok dt ∧ w.value = v ∧ t = w.text ++ rest ∧ k' = k + w.requests ∧ ∀ i < w.requests, heap (k + i) = true

/-- What `decodeBytes` has read. -/
theorem spelling_of_decodeBytes {kind : BytesKind} {p rest : List Nat}
    (h : decodeBytes heap kind k p = some (v, rest, k')) :
    ∃ w, Spelled dt heap k (kind.letter :: p) v rest k' w := by
  simp only [decodeBytes, bind_eq_bind, bind_eq_some_iff] at h
  obtain ⟨q, hq, h⟩ := h
  split_ifs at h with hheap
  obtain ⟨⟨raw, rest'⟩, hread, hkeep⟩ := bind_eq_some_iff.mp h
  obtain ⟨hvalue, hrest, hrequests⟩ := keepBytes_some hkeep (by simpa using hheap)
  obtain ⟨hhex, hlen, hbytes⟩ := hexEncode_of_readHex hread
  have hbuf : (p.takeWhile (· != 58)).take 15 <+: p := ( take_prefix _ _).trans ( takeWhile_prefix _)
  have hp : p = (p.takeWhile (· != 58)).take 15 ++ 58 :: q := by
    rw [← colon_some.mp hq]
    exact (prefix_iff_eq_append.mp hbuf).symm
  refine ⟨.bytes kind ((p.takeWhile (· != 58)).take 15) raw, ⟨?_, ?_, hlen.symm, hbytes⟩, hvalue, ?_, hrequests⟩
  · exact fun h58 => colon_notMem_takeWhile p (mem_of_mem_take h58)
  · exact length_take_le _ _
  · rw [Spelling.text, cons_append, append_assoc, cons_append, ← hrest, ← hhex, ← hp]

/-- **Every part that is read is a spelling.** -/
theorem spelling_of_decodePart {t rest : List Nat} (h : decodePart dt heap k t = some (v, rest, k')) :
    ∃ w, Spelled dt heap k t v rest k' w := by
  cases t with
  | nil => cases h
  | cons kind p =>
    rw [decodePart] at h
    split_ifs at h with hn hi hf hs hb
    · -- `n`
      simp only [decodeNull, bind_eq_bind, bind_eq_some_iff] at h
      obtain ⟨q, hq, hout⟩ := h
      cases hout
      refine ⟨.null (p.takeWhile (· != 58)), colon_notMem_takeWhile p, rfl, ?_, rfl, nofun⟩
      rw [Spelling.text, hn, cons_append, append_assoc, singleton_append, ← colon_some.mp hq,
        takeWhile_append_dropWhile]
    · -- `i`
      obtain ⟨sign, hp, hsign⟩ := takeSign_spelled p
      have hne : (takeSign p).2.takeWhile asciiDigit ≠ [] := by
        intro hnil
        simp only [decodeInt, hnil, if_true] at h
        cases h
      simp only [decodeInt, if_neg hne, bind_eq_bind, bind_eq_some_iff] at h
      obtain ⟨q, hq, hout⟩ := h
      have hdigits : ∀ c ∈ (takeSign p).2.takeWhile asciiDigit, asciiDigit c = true := fun c hc =>
        mem_takeWhile_imp hc
      refine ⟨.int sign ((takeSign p).2.takeWhile asciiDigit), ⟨hne, hdigits⟩, ?_, ?_, ?_, nofun⟩
      · rw [hsign, int_value hdigits] at hout
        cases hout
        rfl
      · cases hout
        rw [Spelling.text, hi, cons_append, append_assoc, append_assoc, singleton_append,
          ← colon_some.mp hq, takeWhile_append_dropWhile, ← hp]
      · cases hout
        rfl
    · -- `f`
      simp only [decodeFloat, bind_eq_bind, bind_eq_some_iff] at h
      obtain ⟨f, hread, h⟩ := h
      split_ifs at h with hwhole
      obtain ⟨q, hq, hout⟩ := bind_eq_some_iff.mp h
      cases hout
      refine ⟨.float (p.takeWhile (· != 58)) f, ⟨colon_notMem_takeWhile p, hread, by simpa using hwhole⟩, rfl, ?_,
        rfl, nofun⟩
      rw [Spelling.text, hf, cons_append, append_assoc, singleton_append, ← colon_some.mp hq,
        takeWhile_append_dropWhile]
    · rw [hs]
      exact spelling_of_decodeBytes dt h
    · rw [hb]
      exact spelling_of_decodeBytes dt h

/-! ## What the encoder writes -/

/-- A value that can be kept in a token. -/
def Encodable : VmsValue F → Prop
  | .float f => dt.finite f = true
  | .text t => t.length < 2 ^ 32 ∧ ∀ b ∈ t, b < 256
  | .blob t => t.length < 2 ^ 32 ∧ ∀ b ∈ t, b < 256
  | _ => True

/-- The spelling of a value. -/
def written : VmsValue F → Spelling F
  | .null => .null (wide "0")
  | .int i => .int (if i.val < 0 then .minus else .none) (decimal i.val.natAbs)
  | .float f => .float (dt.print f) f
  | .text t => .bytes .text (decimal t.length) t
  | .blob b => .bytes .blob (decimal b.length) b

/-- The token of some values. -/
def tokenText (parts : List (VmsValue F)) : List Nat :=
  wide "v1|" ++ row 124 false (parts.map fun v => (written dt v).text)

/-- The values the encoder asks the heap for. -/
def asks : VmsValue F → Bool
  | .text _ => true
  | .blob _ => true
  | _ => false

variable {cap : Nat}

theorem puts_some {o s o' : List Nat} : puts cap o s = some o' ↔ o' = o ++ s ∧ o.length + s.length < cap := by
  unfold puts
  split_ifs with h
  · simp only [false_iff, not_and]
    omega
  · rw [Option.some.injEq, eq_comm]
    exact (and_iff_left (Nat.not_le.mp h)).symm

theorem puts_puts (cap : Nat) (o s t : List Nat) : (puts cap o s).bind (puts cap · t) = puts cap o (s ++ t) := by
  ext o'
  simp only [bind_eq_some_iff, puts_some, length_append]
  constructor
  · rintro ⟨_, ⟨rfl, -⟩, rfl, hlen⟩
    rw [length_append] at hlen
    exact ⟨append_assoc .., by omega⟩
  · rintro ⟨rfl, hlen⟩
    exact ⟨o ++ s, ⟨rfl, by omega⟩, (append_assoc ..).symm, by rw [length_append]; omega⟩

theorem sign_lldText (i : I64) :
    (if i.val < 0 then Sign.minus else Sign.none).text ++ decimal i.val.natAbs = lldText i.val := by
  unfold lldText
  split_ifs <;> rfl

theorem encodeBytes_eq (heap : Nat → Bool) (cap k : Nat) (o : List Nat) (kind : BytesKind) {bytes : List Nat}
    (hlen : bytes.length < 2 ^ 32) : encodeBytes heap cap k o kind.letter bytes = if !heap k then none
      else (puts cap o (Spelling.bytes (F := F) kind (decimal bytes.length) bytes).text).map (·, k + 1) := by
  have hdec : (decimal bytes.length).length ≤ 10 := decimal_length (k := 9) (by omega)
  have htake : (kind.letter :: (decimal bytes.length ++ [58])).take 31 =
      kind.letter :: (decimal bytes.length ++ [58]) :=
    take_of_length_le (by simp only [length_cons, length_append, length_nil]; omega)
  have htext : (Spelling.bytes (F := F) kind (decimal bytes.length) bytes).text =
      kind.letter :: (decimal bytes.length ++ [58]) ++ hexEncode bytes := by
    simp [Spelling.text]
  rw [encodeBytes, htake, htext, ← puts_puts]
  cases puts cap o (kind.letter :: (decimal bytes.length ++ [58])) with
  | none => rfl
  | some o₁ => cases h : puts cap o₁ (hexEncode bytes) <;> simp [h]

/-- **A part is written as its spelling**, if it fits. -/
theorem encodePart_eq (heap : Nat → Bool) (cap k : Nat) (o : List Nat) (hv : Encodable dt v) :
    encodePart dt heap cap k o v =
      if asks v && !heap k then none else (puts cap o (written dt v).text).map (·, k + (asks v).toNat) := by
  cases v with
  | null => rfl
  | int i =>
    have hlen := lldText_length i
    rw [encodePart, take_of_length_le (by simp only [length_cons, length_append, length_nil]; omega),
      ← sign_lldText i, append_assoc]
    rfl
  | float f =>
    have hlen := (dt.print_token f).1
    rw [encodePart, take_of_length_le (by simp only [length_cons, length_append, length_nil]; omega)]
    rfl
  | text t => exact encodeBytes_eq heap cap k o .text hv.1
  | blob b => exact encodeBytes_eq heap cap k o .blob hv.1

/-- What the loop still has to write. -/
def remaining (i : Nat) (parts : List (VmsValue F)) : List Nat :=
  let texts := parts.map fun v => (written dt v).text
  if i = 0 then row 124 false texts else behind 124 false texts

theorem remaining_cons (i : Nat) (v : VmsValue F) (vs : List (VmsValue F)) :
    remaining dt i (v :: vs) = (if i = 0 then [] else [124]) ++ ((written dt v).text ++ remaining dt (i + 1) vs) := by
  cases i with
  | zero | succ i => rfl

theorem puts_nil {o : List Nat} (h : o.length < cap) : puts cap o [] = some o :=
  puts_some.mpr ⟨(append_nil o).symm, h⟩

theorem bar_eq {cap i : Nat} {o : List Nat} (h : o.length < cap) :
    bar cap i o = puts cap o (if i = 0 then [] else [124]) := by
  unfold bar
  split_ifs
  · exact (puts_nil h).symm
  · rfl

/-- **The loop over the parts** writes what remains, if it fits; or the heap has refused something. -/
theorem encodeParts_eq : ∀ {parts : List (VmsValue F)} {i k : Nat} {o : List Nat},
    (∀ v ∈ parts, Encodable dt v) → o.length < cap →
    encodeParts dt heap cap i k o parts = puts cap o (remaining dt i parts) ∨
      encodeParts dt heap cap i k o parts = none ∧ ∃ k, heap k = false
  | [], i, k, o, _, hcap => by simp [encodeParts, remaining, row, behind, puts_nil hcap]
  | v :: vs, i, k, o, hparts, hcap => by
    rw [remaining_cons, ← puts_puts, encodeParts, bar_eq hcap]
    cases puts cap o (if i = 0 then [] else [124]) with
    | none => exact .inl rfl
    | some o₁ =>
      simp only [bind_eq_bind, bind_some, encodePart_eq dt heap cap k o₁ (hparts v mem_cons_self), ← puts_puts]
      split_ifs with hheap
      · exact .inr ⟨rfl, k, by simpa using (Bool.and_eq_true_iff.mp hheap).2⟩
      cases htext : puts cap o₁ (written dt v).text with
      | none => exact .inl rfl
      | some o₂ =>
        obtain ⟨rfl, hlen⟩ := puts_some.mp htext
        exact encodeParts_eq (fun u hu => hparts u (mem_cons_of_mem v hu)) (by rwa [length_append])

variable {parts : List (VmsValue F)}

theorem encode_some {token : List Nat}
    (hparts : ∀ v ∈ parts, Encodable dt v) (h : vmsIdentityEncode dt heap parts cap = some token) :
    token = tokenText dt parts := by
  simp only [vmsIdentityEncode, bind_eq_bind, bind_eq_some_iff] at h
  obtain ⟨o, hputs, o', hloop, hout⟩ := h
  split_ifs at hout
  cases hout
  obtain ⟨rfl, hlen⟩ := puts_some.mp hputs
  rw [← length_append] at hlen
  rcases encodeParts_eq dt hparts hlen with hwritten | ⟨hnone, -⟩
  · exact (puts_some.mp (hwritten.symm.trans hloop)).1
  · cases hnone.symm.trans hloop

theorem encode_fits (hparts : ∀ v ∈ parts, Encodable dt v) (hcap : (tokenText dt parts).length + 1 < cap) :
    vmsIdentityEncode dt (fun _ => true) parts cap = some (tokenText dt parts) := by
  have hlen : (tokenText dt parts).length = (wide "v1|").length + (remaining dt 0 parts).length := length_append
  have hputs : puts cap [] (wide "v1|") = some (wide "v1|") := puts_some.mpr ⟨rfl, by rw [length_nil]; omega⟩
  have hloop : encodeParts dt (fun _ => true) cap 0 0 (wide "v1|") parts = some (tokenText dt parts) := by
    rcases encodeParts_eq dt hparts (show (wide "v1|").length < cap by omega) with hwritten | ⟨-, _, hrefused⟩
    · exact hwritten.trans (puts_some.mpr ⟨rfl, by omega⟩)
    · cases hrefused
  simp only [vmsIdentityEncode, hputs, hloop, bind_eq_bind, bind_some]
  rw [if_neg (by omega)]

/-! ## The round trip -/

theorem dropWhile_space_decimal (n : Nat) : (decimal n).dropWhile asciiSpace = decimal n := by
  rw [dropWhile_eq_self_iff]
  intro hl
  have hdigit := asciiDigit_of_mem_decimal (getElem_mem hl)
  rw [not_space_of_digit hdigit]
  decide

theorem strtoul_decimal {n : Nat} (hn : n < 2 ^ 32) : strtoul (decimal n) = n := by
  simp only [strtoul, dropWhile_space_decimal, takeSign_decimal, takeWhile_decimal, digitsValue_decimal]
  rw [if_neg (by omega), if_neg (by decide)]

theorem strtoul_lt (t : List Nat) : strtoul t < 2 ^ 32 := by
  unfold strtoul
  dsimp only
  split_ifs with hbig
  · decide
  · exact Nat.mod_lt _ (by decide)
  · omega

theorem notMem_decimal {c : Nat} (hc : asciiDigit c = false) (n : Nat) : c ∉ decimal n := fun h => by
  simp [asciiDigit_of_mem_decimal h] at hc

theorem written_bytes_ok (kind : BytesKind) {bytes : List Nat} (hlen : bytes.length < 2 ^ 32)
    (hbytes : ∀ b ∈ bytes, b < 256) : (Spelling.bytes (F := F) kind (decimal bytes.length) bytes).Ok dt := by
  have hdec : (decimal bytes.length).length ≤ 10 := decimal_length (k := 9) (by omega)
  exact ⟨notMem_decimal rfl _, by omega, strtoul_decimal hlen, hbytes⟩

theorem written_ok (hv : Encodable dt v) : (written dt v).Ok dt := by
  cases v with
  | null =>
    show 58 ∉ wide "0"
    decide
  | int i => exact ⟨decimal_ne_nil _, fun _ => asciiDigit_of_mem_decimal⟩
  | float f => exact ⟨(dt.print_token f).2, dt.strtod_print f, dt.whole_print f hv⟩
  | text t => exact written_bytes_ok dt .text hv.1 hv.2
  | blob b => exact written_bytes_ok dt .blob hv.1 hv.2

theorem written_value (v : VmsValue F) : (written dt v).value = v := by
  cases v with
  | int i =>
    have hval : (if i.val < 0 then Sign.minus else Sign.none).factor * (i.val.natAbs : Int) = i.val := by
      split_ifs
      · show -1 * (i.val.natAbs : Int) = i.val
        omega
      · show 1 * (i.val.natAbs : Int) = i.val
        omega
    simp only [written, Spelling.value, digitsValue_decimal, hval, I64.wrap_val]
  | _ => rfl

theorem zero_notMem_hexEncode : ∀ (bytes : List Nat), 0 ∉ hexEncode bytes
  | [] => by simp [hexEncode]
  | b :: bs => by
    have hhi := hx_pos (b / 16 % 16) (Nat.mod_lt _ (by decide))
    have hlo := hx_pos (b % 16) (Nat.mod_lt _ (by decide))
    have hrest := zero_notMem_hexEncode bs
    simp only [hexEncode, mem_cons, not_or]
    exact ⟨by omega, by omega, hrest⟩

theorem zero_notMem_written (v : VmsValue F) : 0 ∉ (written dt v).text := by
  cases v with
  | null =>
    show 0 ∉ wide "n0:"
    decide
  | int i =>
    rw [written, Spelling.text]
    split_ifs <;> simp [Sign.text, notMem_decimal (c := 0) rfl]
  | float f =>
    have hprint : 0 ∉ dt.print f := fun h => absurd (dt.print_ascii f 0 h).1 (by decide)
    simp [written, Spelling.text, hprint]
  | text t | blob b => simp [written, Spelling.text, BytesKind.letter, notMem_decimal (c := 0) rfl,
    zero_notMem_hexEncode]

/-- A token is a C string. -/
theorem cstr_tokenText (parts : List (VmsValue F)) : cstr (tokenText dt parts) = tokenText dt parts := by
  refine cstr_eq_self_iff.mpr fun h => ?_
  rcases mem_append.mp h with h | h
  · exact absurd h (by decide)
  · rcases mem_row h with h | ⟨t, ht, h0⟩
    · cases h
    · obtain ⟨v, -, rfl⟩ := mem_map.mp ht
      exact zero_notMem_written dt v h0

theorem reads_written (hparts : ∀ v ∈ parts, Encodable dt v) :
    ∀ p ∈ parts.map fun v => ((written dt v).text, v), ReadsAs (decodePart dt fun _ => true) 124 p.1 p.2 := by
  intro p hp
  obtain ⟨v, hv, rfl⟩ := mem_map.mp hp
  have hread := reads_spelling dt (written_ok dt (hparts v hv))
  rwa [written_value] at hread

/-- **Encoding and decoding.**  Whatever the encoder has written is read back, when there is memory and room. -/
theorem identity_roundtrip {heap heap' : Nat → Bool} {parts : List (VmsValue F)} {maxParts cap : Nat} {token : List Nat}
    (hparts : ∀ v ∈ parts, Encodable dt v) (hmax : parts.length ≤ maxParts)
    (henc : vmsIdentityEncode dt heap parts cap = some token) (hmem : ∀ k, heap' k = true) :
    vmsIdentityDecode dt heap' maxParts token = some parts := by
  have hheap : heap' = fun _ => true := funext hmem
  obtain ⟨k, hrow⟩ : ∃ k, readAll (decodePart dt fun _ => true) 124 maxParts 0
      (row 124 false ((parts.map fun v => ((written dt v).text, v)).map Prod.fst)) =
        some ((parts.map fun v => ((written dt v).text, v)).map Prod.snd, k) :=
    readAll_row false 0 (reads_written dt hparts) (by rwa [length_map])
  simp only [List.map_map, comp_def, List.map_id'] at hrow
  rw [encode_some dt hparts henc, vmsIdentityDecode, cstr_tokenText, hheap]
  exact congrArg (Option.map Prod.fst) hrow

/-- The two doubles of `twoDoubles`. -/
def twoTokenDoubles : TokenDoubles Bool where
  toDoubleText := twoDoubles
  whole t := t = wide "1.5" || t = wide "-2e+20"
  whole_print := by decide
  print_token := by decide

/-- A negative integer, a text with a NUL and a bar in it, an empty blob, a NULL and a double. -/
def mixedParts : List (VmsValue Bool) :=
  [.int ⟨-1234567890123, by decide, by decide⟩, .text [97, 0, 124], .blob [], .null, .float true]

theorem encodable_mixedParts : ∀ v ∈ mixedParts, Encodable twoTokenDoubles v := by
  intro v hv
  simp only [mixedParts, mem_cons, not_mem_nil, or_false] at hv
  rcases hv with rfl | rfl | rfl | rfl | rfl
  · trivial
  · exact ⟨by decide, by decide⟩
  · exact ⟨by decide, by decide⟩
  · trivial
  · rfl

theorem identity_roundtrip_mixed : vmsIdentityEncode twoTokenDoubles (fun _ => true) mixedParts 64 =
        some (wide "v1|i-1234567890123:|s3:61007c|b0:|n0:|f1.5:") ∧
      vmsIdentityDecode twoTokenDoubles (fun _ => true) 5 (wide "v1|i-1234567890123:|s3:61007c|b0:|n0:|f1.5:") =
        some mixedParts := by
  have hencoded : vmsIdentityEncode twoTokenDoubles (fun _ => true) mixedParts 64 =
      some (wide "v1|i-1234567890123:|s3:61007c|b0:|n0:|f1.5:") := by decide +kernel
  exact ⟨hencoded, identity_roundtrip twoTokenDoubles encodable_mixedParts (by decide) hencoded fun _ => rfl⟩

/-! ## Tokens that are not written by the encoder -/

def isFloat : VmsValue F → Bool
  | .float _ => true
  | _ => false

theorem head_lldText {i : Int} {c : Nat} (h : lldText i = c :: t) (hc : asciiDigit c = false) :
    c = 45 ∧ i < 0 ∧ t = decimal i.natAbs := by
  rw [lldText] at h
  split_ifs at h with hneg
  · cases h
    exact ⟨rfl, hneg, rfl⟩
  · have hmem : c ∈ decimal i.natAbs := by rw [h]; exact mem_cons_self
    rw [asciiDigit_of_mem_decimal hmem] at hc
    cases hc

/-- An integer that is printed as it was spelled has the spelling of the encoder. -/
theorem canonical_of_lldText (hdigits : ∀ c ∈ digits, asciiDigit c = true) {i : Int}
    (hlo : int64Min ≤ i) (hhi : i ≤ int64Max) (h : lldText i = sign.text ++ digits) :
    (Spelling.int (F := F) sign digits).Canonical dt := by
  cases sign with
  | none =>
    have hpos : ¬ i < 0 := by
      intro hneg
      rw [lldText, if_pos hneg] at h
      have h45 := hdigits 45 (by rw [← nil_append digits]; exact h ▸ mem_cons_self)
      cases h45
    rw [lldText, if_neg hpos] at h
    have hdec : decimal i.natAbs = digits := h
    have hval : (digitsValue digits : Int) = i := by
      rw [← hdec, digitsValue_decimal]
      omega
    refine ⟨by decide, hdec ▸ plainDigits_decimal _, by simp, ?_, ?_⟩
    · simpa [Sign.factor, hval] using hlo
    · simpa [Sign.factor, hval] using hhi
  | plus => exact absurd (head_lldText h (by decide)).1 (by decide)
  | minus =>
    obtain ⟨-, hneg, htail⟩ := head_lldText h (by decide)
    have hdec : digits = decimal i.natAbs := htail
    have hval : -1 * (digitsValue digits : Int) = i := by
      rw [hdec, digitsValue_decimal]
      omega
    refine ⟨by decide, hdec ▸ plainDigits_decimal _, fun _ h0 => ?_, ?_, ?_⟩
    · rw [h0] at hval
      have hzero : digitsValue (wide "0") = 0 := by decide
      omega
    · simpa only [Sign.factor, hval] using hlo
    · simpa only [Sign.factor, hval] using hhi

/-- An integer is printed as it was spelled. -/
theorem lldText_eq_iff (hne : digits ≠ []) (hdigits : ∀ c ∈ digits, asciiDigit c = true) :
    lldText (I64.wrap (sign.factor * digitsValue digits)).val = sign.text ++ digits ↔
      (Spelling.int (F := F) sign digits).Canonical dt := by
  constructor
  · exact canonical_of_lldText dt hdigits (I64.lo _) (I64.hi _)
  · rintro ⟨hplus, hplain, hzero, hlo, hhi⟩
    have hdec := decimal_digitsValue hdigits hne hplain
    rw [I64.wrap_of_range hlo hhi]
    cases sign with
    | none =>
      have hval : Sign.none.factor * (digitsValue digits : Int) = digitsValue digits := Int.one_mul _
      rw [hval, lldText, if_neg (by omega), Int.natAbs_natCast, hdec]
      rfl
    | plus => exact absurd rfl hplus
    | minus =>
      have hpos : digitsValue digits ≠ 0 := by
        intro h0
        rw [h0] at hdec
        exact hzero rfl hdec.symm
      have hval : Sign.minus.factor * (digitsValue digits : Int) = -(digitsValue digits : Int) := Int.neg_one_mul _
      rw [hval, lldText, if_pos (by omega), Int.natAbs_neg, Int.natAbs_natCast, hdec]
      rfl

/-- A part is encoded as it was spelled. -/
theorem written_text_iff (hw : w.Ok dt) (hfloat : isFloat w.value = false) :
    (written dt w.value).text = w.text ↔ w.Canonical dt := by
  cases w with
  | null skipped =>
    simp only [Spelling.value, written, Spelling.text, Spelling.Canonical, cons.injEq, true_and,
      append_cancel_right_eq]
    exact eq_comm
  | int sign digits =>
    rw [← lldText_eq_iff dt hw.1 hw.2]
    simp [Spelling.value, written, Spelling.text, ← append_assoc, sign_lldText]
  | float t f => cases hfloat
  | bytes kind len payload =>
    have hwritten : (written dt (Spelling.bytes (F := F) kind len payload).value).text =
        (Spelling.bytes (F := F) kind (decimal payload.length) payload).text := by
      cases kind <;> rfl
    rw [hwritten]
    simp only [Spelling.text, Spelling.Canonical, cons.injEq, true_and, append_cancel_right_eq]
    exact eq_comm

theorem encodable_value (hw : w.Ok dt) (hfloat : isFloat w.value = false) : Encodable dt w.value := by
  cases w with
  | null skipped | int sign digits => trivial
  | float t f => cases hfloat
  | bytes kind len payload =>
    obtain ⟨-, -, hcount, hbytes⟩ := hw
    have hlen : payload.length < 2 ^ 32 := hcount ▸ strtoul_lt len
    cases kind with
    | text | blob => exact ⟨hlen, hbytes⟩

/-- What the decoder accepts is a row of spellings. -/
theorem spelled_of_decode {maxParts : Nat} (h : vmsIdentityDecode dt heap maxParts t = some parts) :
    ∃ (ws : List (Spelling F)) (trailing : Bool), (∀ w ∈ ws, w.Ok dt) ∧ ws.map Spelling.value = parts ∧
      cstr t = wide "v1|" ++ row 124 trailing (ws.map Spelling.text) := by
  unfold vmsIdentityDecode at h
  split at h
  · rename_i p hp
    obtain ⟨⟨vs, k⟩, hread, hout⟩ := map_eq_some_iff.mp h
    cases hout
    obtain ⟨ws, trailing, hok, hvs, -, hrow⟩ := row_of_readAll
      (fun hitem => (spelling_of_decodePart dt hitem).imp fun w h => ⟨h.1, h.2.1, h.2.2.1⟩) hread
    refine ⟨ws, trailing, hok, hvs, ?_⟩
    rw [hp, hrow]
    rfl
  · cases h

/-- **Canonical tokens.**  A token that is accepted is a row of spellings; encoding what was decoded gives it back
    exactly when every part is spelled as the encoder does it and no bar stands at the end. -/
theorem token_canonical_iff {heap : Nat → Bool} {maxParts cap : Nat} {t : List Nat} {parts : List (VmsValue F)}
    (hstr : 0 ∉ t) (hdec : vmsIdentityDecode dt heap maxParts t = some parts)
    (hkinds : ∀ v ∈ parts, isFloat v = false) (hcap : (tokenText dt parts).length + 1 < cap) :
    ∃ (ws : List (Spelling F)) (trailing : Bool), (∀ w ∈ ws, w.Ok dt) ∧ ws.map Spelling.value = parts ∧
      t = wide "v1|" ++ row 124 trailing (ws.map Spelling.text) ∧
      (vmsIdentityEncode dt (fun _ => true) parts cap = some t ↔
        (∀ w ∈ ws, w.Canonical dt) ∧ (ws ≠ [] → trailing = false)) := by
  obtain ⟨ws, trailing, hok, hvalue, htext⟩ := spelled_of_decode dt hdec
  rw [cstr_eq_self_iff.mpr hstr] at htext
  have hfloat : ∀ w ∈ ws, isFloat w.value = false := fun w hw =>
    hkinds w.value (hvalue ▸ mem_map_of_mem hw)
  have hparts : ∀ v ∈ parts, Encodable dt v := by
    intro v hv
    rw [← hvalue] at hv
    obtain ⟨w, hw, rfl⟩ := mem_map.mp hv
    exact encodable_value dt (hok w hw) (hfloat w hw)
  refine ⟨ws, trailing, hok, hvalue, htext, ?_⟩
  rw [encode_fits dt hparts hcap, Option.some.injEq, htext, tokenText, List.append_cancel_left_eq, ← hvalue,
    List.map_map]
  constructor
  · intro h
    have hwritten := reads_written dt hparts
    rw [← hvalue, List.map_map] at hwritten
    have hspelled : ∀ p ∈ ws.map fun w => (w.text, w.value), ReadsAs (decodePart dt fun _ => true) 124 p.1 p.2 := by
      intro p hp
      obtain ⟨w, hw, rfl⟩ := mem_map.mp hp
      exact reads_spelling dt (hok w hw)
    obtain ⟨hsame, hflag⟩ := row_unique 0 hwritten hspelled (by simpa only [List.map_map, comp_def] using h)
    refine ⟨fun w hw => ?_, fun hne => (hflag (by simpa using hne)).symm⟩
    exact (written_text_iff dt (hok w hw) (hfloat w hw)).mp (congrArg Prod.fst (map_inj_left.mp hsame w hw))
  · rintro ⟨hcanonical, htrailing⟩
    have htexts : ws.map ((fun v => (written dt v).text) ∘ Spelling.value) = ws.map Spelling.text :=
      map_congr_left fun w hw => (written_text_iff dt (hok w hw) (hfloat w hw)).mpr (hcanonical w hw)
    rw [htexts]
    cases ws with
    | nil => rfl
    | cons w ws => rw [htrailing (cons_ne_nil w ws)]

theorem token_canonical_pair : ∃ (ws : List (Spelling Bool)) (trailing : Bool), (∀ w ∈ ws, w.Ok twoTokenDoubles) ∧
      ws.map Spelling.value = [.null, .int ⟨-5, by decide, by decide⟩] ∧
      wide "v1|n0:|i-5:" = wide "v1|" ++ row 124 trailing (ws.map Spelling.text) ∧
      (vmsIdentityEncode twoTokenDoubles (fun _ => true) [.null, .int ⟨-5, by decide, by decide⟩] 64 =
          some (wide "v1|n0:|i-5:") ↔ (∀ w ∈ ws, w.Canonical twoTokenDoubles) ∧ (ws ≠ [] → trailing = false)) :=
  @token_canonical_iff _ twoTokenDoubles (fun _ => true) 2 64 _ _ (by decide) (by decide +kernel) (by decide)
    (by decide +kernel)

/-- Five tokens for one identity, the last with an integer that does not fit into 64 bits. -/
theorem token_not_canonical :
    (∀ t ∈ [wide "v1|i5:", wide "v1|i+5:", wide "v1|i005:", wide "v1|i5:|", wide "v1|i18446744073709551621:"],
      vmsIdentityDecode twoTokenDoubles (fun _ => true) 1 t = some [.int ⟨5, by decide, by decide⟩]) ∧
    vmsIdentityEncode twoTokenDoubles (fun _ => true) [.int ⟨5, by decide, by decide⟩] 1024 = some (wide "v1|i5:") := by
  decide +kernel

end VirtualMssql.Identity
