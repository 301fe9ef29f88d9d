/-
  FOUNDATION — the checked arithmetic and the bounded buffers of `vms_foundation.c`.

  A bounded buffer is a block of the heap and two counters: `cap`, what may be stored, and `len`, what is stored.  The
  block has room for one byte more, the terminator.  `vms_buf_append` stores what fits; `vms_buf_append_grow` takes a
  larger block first, or the first one.  Accesses go through `Block`, so a call that left its block would have no
  result.

  `Sound` ties a buffer to the pieces that were appended since it was last initialized or freed.  Every call keeps it,
  whatever the heap answers (`Sound.call`), so it holds along every run (`buffer_sound`).

  `vms_mul_i64` looks for an overflow by dividing the ends of the range by `b`.  For a negative `b` the quotients have
  the other order, and the test fails for every product but zero; at `b = -1` it may come to `INT64_MIN / -1`
  (`mul_exact_iff`).
-/
import VirtualMssql.DecodeMemory
import VirtualMssql.Lib.Block

namespace VirtualMssql.Foundation

open List Run Block
open DecodeMemory (SizeT)

/-! ## Checked arithmetic -/

/-- `vms_add_sz`. -/
def vmsAddSz (w : SizeT) (a b : Nat) : Option Nat :=
  if w.limit - 1 - b < a then none else some ((a + b) % w.limit)

theorem vmsAddSz_some {w : SizeT} {a b n : Nat} (hb : b < w.limit) (h : vmsAddSz w a b = some n) : n = a + b := by
  obtain ⟨hle, h⟩ := Option.ite_none_left_eq_some.mp h
  rw [← Option.some.inj h]
  exact Nat.mod_eq_of_lt (by omega)

/-- What C leaves undefined. -/
inductive Undefined
  | divByZero
  | divOverflow
  | mulOverflow
  deriving DecidableEq

/-- In the range of `int64_t`. -/
def Fits (v : Int) : Prop := int64Min ≤ v ∧ v ≤ int64Max

instance (v : Int) : Decidable (Fits v) := inferInstanceAs (Decidable (_ ∧ _))

/-- `a / b`. -/
def int64Div (a b : Int) : Except Undefined Int :=
  if b = 0 then .error .divByZero
  else if a = int64Min ∧ b = -1 then .error .divOverflow
  else .ok (a.tdiv b)

/-- `a * b`. -/
def int64Mul (a b : Int) : Except Undefined Int := if Fits (a * b) then .ok (a * b) else .error .mulOverflow

/-- `vms_mul_i64`: what it stores, and nothing when it returns 0. -/
def vmsMulI64 (a b : I64) : Except Undefined (Option Int) :=
  if a.val = 0 ∨ b.val = 0 then .ok (some 0)
  else if a.val = -1 ∧ b.val = int64Min then .ok none
  else if b.val = -1 ∧ a.val = int64Min then .ok none
  else do
    let high ← int64Div int64Max b.val
    if high < a.val then .ok none
    else do
      -- behind `||`: the second quotient is computed only now
      let low ← int64Div int64Min b.val
      if a.val < low then .ok none
      else (int64Mul a.val b.val).map some

/-- The quotients of the ends bound the factor, for a positive divisor. -/
theorem fits_iff_quotients {a b : Int} (hb : 0 < b) : Fits (a * b) ↔ int64Min.tdiv b ≤ a ∧ a ≤ int64Max.tdiv b := by
  have hmax : int64Max.tdiv b = int64Max / b := Int.tdiv_eq_ediv_of_nonneg (by decide)
  have hmin : int64Min.tdiv b = -((-int64Min) / b) := by
    rw [← Int.tdiv_eq_ediv_of_nonneg (show 0 ≤ -int64Min by decide), Int.neg_tdiv, Int.neg_neg]
  have hlow := Int.le_ediv_iff_mul_le (a := -a) (b := -int64Min) hb
  rw [Int.neg_mul] at hlow
  rw [Fits, hmax, hmin, Int.le_ediv_iff_mul_le hb]
  refine and_congr ?_ Iff.rfl
  omega

theorem int64Div_ok {a b : Int} (hb : b ≠ 0) (hover : ¬ (a = int64Min ∧ b = -1)) : int64Div a b = .ok (a.tdiv b) := by
  rw [int64Div, if_neg hb, if_neg hover]

/-- **A divisor that is not negative**: the test is exact. -/
theorem mul_nonneg {a b : I64} (h : a.val = 0 ∨ 0 ≤ b.val) :
    vmsMulI64 a b = .ok (if Fits (a.val * b.val) then some (a.val * b.val) else none) := by
  by_cases hzero : a.val = 0 ∨ b.val = 0
  · have hproduct : a.val * b.val = 0 := Int.mul_eq_zero.mpr hzero
    rw [vmsMulI64, if_pos hzero, hproduct, if_pos (by decide)]
  obtain ⟨ha, hb⟩ := not_or.mp hzero
  have hpos : 0 < b.val := by omega
  have hmin : b.val ≠ int64Min := fun heq => absurd (heq ▸ hpos) (by decide)
  have hhigh : int64Div int64Max b.val = _ := int64Div_ok hb (by omega)
  have hlow : int64Div int64Min b.val = _ := int64Div_ok hb (by omega)
  rw [vmsMulI64, if_neg hzero, if_neg (by omega), if_neg (by omega), hhigh]
  simp only [hlow, bind, Except.bind, int64Mul, fits_iff_quotients hpos]
  split_ifs <;> first | rfl | omega

/-- **A negative divisor**: every product is refused, or the second quotient overflows. -/
theorem mul_negative {a b : I64} (ha : a.val ≠ 0) (hb : b.val < 0) :
    vmsMulI64 a b = if a.val = -int64Max ∧ b.val = -1 then .error .divOverflow else .ok none := by
  have hlo := a.lo
  have hmax : int64Min = -int64Max - 1 := by decide
  have hhigh : int64Div int64Max b.val = _ := int64Div_ok (by omega) (by omega)
  have hle : int64Max.tdiv b.val ≤ 0 := Int.tdiv_nonpos_of_nonneg_of_nonpos (by decide) (by omega)
  rw [vmsMulI64, if_neg (by omega), hhigh]
  by_cases hone : b.val = -1
  · have hquotient : int64Max.tdiv b.val = -int64Max := by rw [hone]; decide
    have hlow : int64Div int64Min b.val = .error .divOverflow := by rw [hone]; decide
    simp only [hlow, hquotient, bind, Except.bind]
    split_ifs <;> first | rfl | omega
  · have hlow : int64Div int64Min b.val = _ := int64Div_ok (by omega) (by omega)
    have hge : 0 ≤ int64Min.tdiv b.val := Int.tdiv_nonneg_of_nonpos_of_nonpos (by decide) (by omega)
    simp only [hlow, bind, Except.bind]
    split_ifs <;> first | rfl | omega

/-- **Checked multiplication.**  It stores the product exactly if that fits, for the factors whose second one is not
    negative, or whose product does not fit or is zero; and it divides `INT64_MIN` by -1 for one pair of factors. -/
theorem mul_exact_iff (a b : I64) :
    (vmsMulI64 a b = .ok (if Fits (a.val * b.val) then some (a.val * b.val) else none) ↔
      a.val = 0 ∨ 0 ≤ b.val ∨ ¬ Fits (a.val * b.val)) ∧
    (vmsMulI64 a b = .error .divOverflow ↔ a.val = -int64Max ∧ b.val = -1) := by
  by_cases h : a.val = 0 ∨ 0 ≤ b.val
  · rw [mul_nonneg h]
    refine ⟨iff_of_true rfl (or_assoc.mp (.inl h)), iff_of_false (by simp) ?_⟩
    rintro ⟨ha, hb⟩
    rw [ha, hb] at h
    exact absurd h (by decide)
  · obtain ⟨ha, hb⟩ := not_or.mp h
    have hrest : (a.val = 0 ∨ 0 ≤ b.val ∨ ¬ Fits (a.val * b.val)) ↔ ¬ Fits (a.val * b.val) := by
      rw [← or_assoc, or_iff_right h]
    rw [mul_negative ha (by omega), hrest]
    by_cases hpair : a.val = -int64Max ∧ b.val = -1
    · have hfits : Fits (a.val * b.val) := by rw [hpair.1, hpair.2]; decide
      rw [if_pos hpair, if_pos hfits]
      exact ⟨iff_of_false (by simp) (not_not.mpr hfits), iff_of_true rfl hpair⟩
    · rw [if_neg hpair]
      exact ⟨by split_ifs with hfits <;> simp [hfits], iff_of_false (by simp) hpair⟩

/-- `1 * -2` is refused, and `-INT64_MAX * -1` divides `INT64_MIN` by -1; both products fit. -/
theorem mul_refused : vmsMulI64 (I64.clamp 1) (I64.clamp (-2)) = .ok none ∧ Fits (1 * -2) ∧
      vmsMulI64 (I64.clamp (-int64Max)) (I64.clamp (-1)) = .error .divOverflow ∧ Fits (-int64Max * -1) := by
  decide

/-! ## Bounded buffers -/

/-- `VmsBounded`; `data` may be a null pointer. -/
structure VmsBounded where
  data : Option (List UInt8) := none
  cap : Nat := 0
  len : Nat := 0

/-- What `HeapAlloc` answers: nothing, or a block with these bytes in it. -/
abbrev HeapReply := Option (Nat → UInt8)

def heapAlloc (r : HeapReply) (n : Nat) : Option (List UInt8) := r.map fun fill => (List.range n).map fill

/-- `vms_buf_init`; `hook` is what the hook for faults answers, and the block is cleared. -/
def vmsBufInit (w : SizeT) (cap : Nat) (hook : Bool) (r : HeapReply) : Bool × VmsBounded :=
  if cap = 0 then (true, {})
  else
    match vmsAddSz w cap 1 with
    | none => (false, {})
    | some total =>
      if hook then (false, {})
      else
        match heapAlloc r total with
        | none => (false, {})
        | some block => (true, { data := some (block.map fun _ => 0), cap })

/-- `vms_buf_free`: the block is wiped up to `cap` before it is released. -/
def vmsBufFree (b : VmsBounded) : Option VmsBounded :=
  match b.data with
  | none => some {}
  | some block => (write block 0 (replicate b.cap 0)).map fun _ => {}

/-- The end of both appends: the copy, the length and the terminator. -/
def store (b : VmsBounded) (block src : List UInt8) (need : Nat) : Option (Bool × VmsBounded) := do
  let block ← write block b.len src
  let block ← write block need [0]
  some (true, { b with data := some block, len := need })

/-- `vms_buf_append`; the source may be a null pointer. -/
def vmsBufAppend (w : SizeT) (b : VmsBounded) : Option (List UInt8) → Option (Bool × VmsBounded)
  | none => some (false, b)
  | some src =>
    match b.data with
    | none => some (false, b)
    | some block =>
      if b.cap = 0 then some (false, b)
      else
        match vmsAddSz w b.len src.length with
        | none => some (false, b)
        | some need => if b.cap < need then some (false, b) else store b block src need

/-- The new capacity. -/
def grownCap (cap need : Nat) : Nat :=
  let ncap := if cap ≠ 0 then cap else 4096
  let ncap := if ncap < 4096 then 4096 else ncap
  if ncap < need then need else ncap

/-- The old content comes into the new block, and the old block is wiped. -/
def moveInto (b : VmsBounded) (block : List UInt8) : Option (List UInt8) :=
  match b.data with
  | none => some block
  | some old => do
    let kept ← front old b.len
    let block ← write block 0 kept
    let _ ← write old 0 (replicate b.cap 0)
    some block

/-- `vms_buf_append_grow`; at most one of its two requests is made. -/
def vmsBufAppendGrow (w : SizeT) (b : VmsBounded) (r : HeapReply) : Option (List UInt8) → Option (Bool × VmsBounded)
  | none => some (false, b)
  | some src =>
    if 0 < b.len ∧ b.data.isNone then some (false, b)
    else if 0 < b.cap ∧ b.data.isNone then some (false, b)
    else
      match vmsAddSz w b.len src.length with
      | none => some (false, b)
      | some need =>
        if b.cap < need then
          let ncap := grownCap b.cap need
          if w.limit - 1 - 1 < ncap then some (false, b)
          else
            match heapAlloc r ((ncap + 1) % w.limit) with
            | none => some (false, b)
            | some block => do
              let block ← moveInto b block
              store { b with cap := ncap } block src need
        else
          match b.data with
          | some block => store b block src need
          | none =>
            match heapAlloc r 4096 with
            | none => some (false, b)
            | some block => do
              let block ← write block 0 [0]
              store { b with cap := 4095 } block src need

/-! ## Runs -/

/-- A call; a length is a `size_t`. -/
inductive Call (w : SizeT)
  | init (cap : Fin w.limit) (hook : Bool) (r : HeapReply)
  | free
  | append (src : Option { s : List UInt8 // s.length < w.limit })
  | appendGrow (src : Option { s : List UInt8 // s.length < w.limit }) (r : HeapReply)

def Call.appends {w : SizeT} : Call w → Bool
  | .append _ | .appendGrow _ _ => true
  | _ => false

/-- A buffer, and the pieces that were appended since it was initialized or freed. -/
structure Hist where
  buf : VmsBounded
  appended : List (List UInt8) := []

/-- What a call returned, with the piece noted if it succeeded. -/
def Hist.note (h : Hist) (src : Option (List UInt8)) (out : Bool × VmsBounded) : Bool × Hist :=
  (out.1, ⟨out.2, if out.1 then h.appended ++ src.toList else h.appended⟩)

variable {w : SizeT}

/-- What a call returns, and what it leaves. -/
def Hist.call (h : Hist) : Call w → Option (Bool × Hist)
  | .init cap hook r => some ((vmsBufInit w cap hook r).1, ⟨(vmsBufInit w cap hook r).2, []⟩)
  | .free => (vmsBufFree h.buf).map fun b => (true, ⟨b, []⟩)
  | .append src => (vmsBufAppend w h.buf (src.map (·.val))).map (h.note (src.map (·.val)))
  | .appendGrow src r => (vmsBufAppendGrow w h.buf r (src.map (·.val))).map (h.note (src.map (·.val)))

def step (h : Option Hist) (c : Call w) : Option Hist := h.bind fun h => (h.call c).map Prod.snd

/-- **The buffer is what was appended**: `len` is within `cap`, a block has `cap + 1` bytes and begins with the pieces
    and a terminator, and without a block there is no capacity and no piece. -/
structure Sound (h : Hist) : Prop where
  room : h.buf.len ≤ h.buf.cap
  size : ∀ block, h.buf.data = some block → h.buf.cap + 1 ≤ block.length
  length : h.buf.len = h.appended.flatten.length
  content : ∀ block, h.buf.data = some block → block.take (h.buf.len + 1) = h.appended.flatten ++ [0]
  empty : h.buf.data = none → h.buf.cap = 0 ∧ h.appended = []

theorem sound_empty : Sound ⟨{}, []⟩ := ⟨le_rfl, nofun, rfl, nofun, fun _ => ⟨rfl, rfl⟩⟩

variable {block : List UInt8}

theorem heapAlloc_length {r : HeapReply} {n : Nat} (h : heapAlloc r n = some block) : block.length = n := by
  obtain ⟨fill, _, rfl⟩ := Option.map_eq_some_iff.mp h
  simp

/-- `vms_buf_init`, whatever was there before. -/
theorem sound_init (cap : Nat) (hook : Bool) (r : HeapReply) (hcap : 1 < w.limit) :
    Sound ⟨(vmsBufInit w cap hook r).2, []⟩ := by
  fun_cases vmsBufInit w cap hook r
  case case5 total hadd _ block hblock =>
    have hlen : block.length = cap + 1 := (heapAlloc_length hblock).trans (vmsAddSz_some hcap hadd)
    have hzero : (block.map fun _ => (0 : UInt8)) = 0 :: replicate cap 0 := by
      rw [map_const', hlen, replicate_succ]
    refine ⟨Nat.zero_le _, fun m hm => ?_, rfl, fun m hm => ?_, nofun⟩
    · rw [← Option.some.inj hm, length_map, hlen]
    · rw [← Option.some.inj hm, hzero]
      rfl
  all_goals exact sound_empty

variable {h : Hist} {src : List UInt8}

/-- What an append comes to: nothing has changed, or the piece is in the buffer. -/
def Appends (h : Hist) (src : Option (List UInt8)) (out : Option (Bool × VmsBounded)) : Prop :=
  ∃ ok b, out = some (ok, b) ∧ Sound (h.note src (ok, b)).2 ∧ (ok = false → b = h.buf)

theorem Sound.refused (hs : Sound h) (src : Option (List UInt8)) : Appends h src (some (false, h.buf)) :=
  ⟨false, h.buf, rfl, hs, fun _ => rfl⟩

/-- The piece is stored behind the others, in a block that has room for it. -/
theorem appends_store {b : VmsBounded} {need : Nat} (hs : Sound h) (hlen : b.len = h.buf.len)
    (hblock : block.take b.len = h.appended.flatten) (hsize : b.cap + 1 ≤ block.length)
    (hneed : need = b.len + src.length) (hroom : need ≤ b.cap) : Appends h (some src) (store b block src need) := by
  obtain ⟨m, hm, hmlen, hmtake⟩ := @write_inside _ block src b.len (by omega)
  obtain ⟨m', hm', hmlen', hmtake'⟩ := @write_inside _ m [0] need (by rw [length_singleton]; omega)
  rw [length_singleton] at hmtake'
  refine ⟨true, { b with data := some m', len := need }, by simp [store, hm, hm'], ?_, nofun⟩
  have hpieces : (h.appended ++ [src]).flatten = h.appended.flatten ++ src := by simp
  refine ⟨hroom, fun block' hblock' => ?_, ?_, fun block' hblock' => ?_, nofun⟩
  · rw [← Option.some.inj hblock', hmlen', hmlen]
    exact hsize
  · show need = (h.appended ++ [src]).flatten.length
    rw [hpieces, length_append, ← hs.length, hneed, hlen]
  · show block'.take (need + 1) = (h.appended ++ [src]).flatten ++ [0]
    rw [← Option.some.inj hblock', hmtake', hpieces, ← hblock, ← hmtake, hneed]

theorem Sound.take_len (hs : Sound h) (hblock : h.buf.data = some block) :
    block.take h.buf.len = h.appended.flatten := by
  have htake := congrArg (List.take h.buf.len) (hs.content block hblock)
  rw [take_take, min_eq_left (Nat.le_succ _), hs.length, take_left] at htake
  rw [hs.length, htake]

/-- Without a block there is nothing to keep. -/
theorem Sound.take_none (hs : Sound h) (hnone : h.buf.data = none) (block : List UInt8) :
    block.take h.buf.len = h.appended.flatten := by
  have hroom := hs.room
  obtain ⟨hcap, hpieces⟩ := hs.empty hnone
  rw [show h.buf.len = 0 by omega, hpieces]
  rfl

theorem Sound.append (hs : Sound h) {src : Option (List UInt8)} (hsrc : ∀ s ∈ src, s.length < w.limit) :
    Appends h src (vmsBufAppend w h.buf src) := by
  fun_cases vmsBufAppend w h.buf src
  case case6 src block hblock _ need hadd _ =>
    exact appends_store hs rfl (hs.take_len hblock) (hs.size block hblock) (vmsAddSz_some (hsrc src rfl) hadd)
      (by omega)
  all_goals exact hs.refused _

/-- The larger block has room for the terminator, and begins with the old content. -/
theorem Sound.moved (hs : Sound h) {ncap : Nat} (hle : h.buf.cap ≤ ncap)
    (hsize : block.length = ncap + 1) : ∃ block', moveInto h.buf block = some block' ∧ block'.length = ncap + 1 ∧
      block'.take h.buf.len = h.appended.flatten := by
  unfold moveInto
  split
  · rename_i hnone
    exact ⟨block, rfl, hsize, hs.take_none hnone block⟩
  · rename_i old hold
    have hroom := hs.room
    have hcap := hs.size old hold
    have hkept : front old h.buf.len = some (old.take h.buf.len) := front_inside (by omega)
    have hlen : (old.take h.buf.len).length = h.buf.len := length_take_of_le (by omega)
    obtain ⟨m, hm, hmlen, hmtake⟩ := @write_inside _ block (old.take h.buf.len) 0 (by omega)
    obtain ⟨wiped, hwiped, _⟩ := @write_inside _ old (replicate h.buf.cap 0) 0 (by rw [length_replicate]; omega)
    refine ⟨m, by simp [hkept, hm, hwiped], hmlen.trans hsize, ?_⟩
    rw [hlen, Nat.zero_add] at hmtake
    rw [hmtake, hs.take_len hold]
    rfl

theorem grownCap_spec (cap need : Nat) : cap ≤ grownCap cap need ∧ need ≤ grownCap cap need := by
  unfold grownCap
  dsimp only
  split_ifs <;> omega

theorem Sound.appendGrow (hs : Sound h) {src : Option (List UInt8)} (hsrc : ∀ s ∈ src, s.length < w.limit)
    (r : HeapReply) : Appends h src (vmsBufAppendGrow w h.buf r src) := by
  fun_cases vmsBufAppendGrow w h.buf r src
  case case7 src _ _ need hadd _ ncap _ block hblock =>
    obtain ⟨hcap, hroom⟩ := grownCap_spec h.buf.cap need
    rw [Nat.mod_eq_of_lt (by omega)] at hblock
    obtain ⟨block', hmoved, hsize, htake⟩ := hs.moved hcap (heapAlloc_length hblock)
    simp only [hmoved, Option.bind_eq_bind, Option.bind_some]
    exact appends_store hs rfl htake hsize.ge (vmsAddSz_some (hsrc src rfl) hadd) hroom
  case case8 src _ _ need hadd _ block hblock =>
    exact appends_store hs rfl (hs.take_len hblock) (hs.size block hblock) (vmsAddSz_some (hsrc src rfl) hadd)
      (by omega)
  case case10 src _ _ need hadd _ hnone block hblock =>
    have hsize := heapAlloc_length hblock
    obtain ⟨m, hm, hmlen, _⟩ := @write_inside _ block [0] 0 (by rw [hsize]; decide)
    simp only [hm, Option.bind_eq_bind, Option.bind_some]
    refine appends_store hs rfl (hs.take_none hnone m) (hsize ▸ hmlen).ge (vmsAddSz_some (hsrc src rfl) hadd) ?_
    have hcap := (hs.empty hnone).1
    show need ≤ 4095
    omega
  all_goals exact hs.refused _

/-- **One call**, whatever the heap answers: it stays in its blocks and keeps the buffer sound, and an append that
    fails leaves the buffer as it was. -/
theorem Sound.call (hs : Sound h) (c : Call w) :
    ∃ ok h', h.call c = some (ok, h') ∧ Sound h' ∧ (ok = false → c.appends = true → h'.buf = h.buf) := by
  have hlimit : 1 < w.limit := by cases w <;> decide
  have hshort {src : Option { s : List UInt8 // s.length < w.limit }} : ∀ s ∈ src.map (·.val), s.length < w.limit := by
    intro s hsrc
    obtain ⟨x, _, rfl⟩ := Option.map_eq_some_iff.mp hsrc
    exact x.2
  cases c with
  | init cap hook r => exact ⟨_, _, rfl, sound_init cap hook r hlimit, nofun⟩
  | free =>
    refine ⟨true, ⟨{}, []⟩, ?_, sound_empty, nofun⟩
    rw [Hist.call, vmsBufFree]
    split
    · rfl
    · rename_i block hblock
      have hsize := hs.size block hblock
      obtain ⟨m, hm, _⟩ := @write_inside _ block (replicate h.buf.cap 0) 0 (by rw [length_replicate]; omega)
      rw [hm]
      rfl
  | append src =>
    obtain ⟨ok, b, hout, hsound, hsame⟩ := hs.append hshort
    exact ⟨ok, _, by rw [Hist.call, hout]; rfl, hsound, fun hfail _ => hsame hfail⟩
  | appendGrow src r =>
    obtain ⟨ok, b, hout, hsound, hsame⟩ := hs.appendGrow hshort r
    exact ⟨ok, _, by rw [Hist.call, hout]; rfl, hsound, fun hfail _ => hsame hfail⟩

/-- **Bounded buffers.**  From any memory, behind an initialization and any calls after it, whatever the heap answers:
    no call leaves its blocks, the buffer is what was appended, and a failed append changes nothing; and a failed
    initialization leaves an empty buffer. -/
theorem buffer_sound (w : SizeT) :
    (∀ (h₀ : Hist) (cap : Fin w.limit) (hook : Bool) (r : HeapReply) (calls : List (Call w)),
      ∃ h, run step (some h₀) (.init cap hook r :: calls) = some h ∧ Sound h ∧
        ∀ c : Call w, ∃ ok h', h.call c = some (ok, h') ∧ (ok = false → c.appends = true → h'.buf = h.buf)) ∧
    ∀ (cap : Fin w.limit) (hook : Bool) (r : HeapReply), (vmsBufInit w cap hook r).1 = false →
      (vmsBufInit w cap hook r).2 = {} := by
  have hlimit : 1 < w.limit := by cases w <;> decide
  have hstep : ∀ (o : Option Hist) (c : Call w), (∃ h, o = some h ∧ Sound h) → ∃ h, step o c = some h ∧ Sound h := by
    rintro _ c ⟨h, rfl, hs⟩
    obtain ⟨ok, h', hcall, hs', _⟩ := hs.call c
    exact ⟨h', by rw [step, Option.bind_some, hcall]; rfl, hs'⟩
  refine ⟨fun h₀ cap hook r calls => ?_, fun cap hook r => ?_⟩
  · have hfirst : step (some h₀) (.init cap hook r) = some ⟨(vmsBufInit w cap hook r).2, []⟩ := rfl
    obtain ⟨h, hrun, hs⟩ := run_keeps hstep calls ⟨_, hfirst, sound_init cap hook r hlimit⟩
    refine ⟨h, hrun, hs, fun c => ?_⟩
    obtain ⟨ok, h', hcall, _, hsame⟩ := hs.call c
    exact ⟨ok, h', hcall, hsame⟩
  · fun_cases vmsBufInit w cap hook r <;> simp

end VirtualMssql.Foundation
