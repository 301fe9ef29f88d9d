/-
  THE PAYLOAD, BYTE BY BYTE — where `payload_read` and `payload_write` reach, and how strict they are.

  Three questions about the codec of `MetaCache`, for every buffer and not only for those that it wrote itself.

  Reading is safe (`payload_read_safe`): each access of the reader stays in the payload, in the 512 columns and in
  their buffers.  The accesses are those of the loop as it runs (`colAccess`), failed turns included.

  Reading is not strict (`payload_strict_iff`).  `get_u32` gives all ones and stays where it is when fewer than four
  bytes are left, and only the two bytes behind the numbers are asked for; other bits of the flags are dropped, and
  nobody looks behind the last column.  A payload is what the writer makes of its columns exactly when none of the
  three happens.

  Writing does not respect its capacity (`payload_write_iff`).  The writer asks for ten bytes where it writes
  fourteen, so a capacity of up to four bytes less than the end of a column is overrun.
-/
import VirtualMssql.MetaCache

namespace VirtualMssql.MetaCache

open Bytes List

/-! ## The accesses of the reader -/

/-- A read from the payload, a text written into a column, or its other fields. -/
inductive Access
  | read (off len : Nat)
  | name (col len : Nat)
  | typeName (col len : Nat)
  | fields (col : Nat)
  deriving DecidableEq

/-- Inside the payload of `size` bytes, the output and the buffers of a column. -/
def Access.Inside (size : Nat) : Access → Prop
  | .read off len => off + len ≤ size
  | .name col len => col < vmsMetaMaxColumns ∧ len ≤ vmsMetaMaxName
  | .typeName col len => col < vmsMetaMaxColumns ∧ len ≤ maxTypeName
  | .fields col => col < vmsMetaMaxColumns

/-- The accesses of `get_u32` with `p` left of a payload of `size` bytes. -/
def u32Access (size : Nat) (p : List Nat) : List Access :=
  if p.length < 4 then [] else [.read (size - p.length) 4]

/-- `strnlen_s` looks for the end of a text, and `memcpy` copies it with its zero byte. -/
def textAccess (size cap : Nat) (write : Nat → Access) (p : List Nat) : List Access :=
  let slen := (p.takeWhile (· != 0)).length
  .read (size - p.length) (min (slen + 1) p.length) ::
    if p.length ≤ slen ∨ slen = 0 ∨ cap ≤ slen then [] else [.read (size - p.length) (slen + 1), write (slen + 1)]

/-- The accesses of one turn. -/
def colAccess (size col : Nat) (p : List Nat) : List Access :=
  textAccess size vmsMetaMaxName (.name col) p ++
    match readString vmsMetaMaxName p with
    | none => []
    | some (_, p) =>
      textAccess size maxTypeName (.typeName col) p ++
        match readString maxTypeName p with
        | none => []
        | some (_, p₀) =>
          let p₁ := (getU32 p₀).2
          let p₂ := (getU32 p₁).2
          let p₃ := (getU32 p₂).2
          u32Access size p₀ ++ (u32Access size p₁ ++ (u32Access size p₂ ++
            if p₃.length < 2 then []
            else .fields col :: if (colTypeOf (getU32 p₀).1).isNone then [] else [.read (size - p₃.length) 2]))

/-- The accesses of the loop, from column `col` on. -/
def colsAccess (size : Nat) : Nat → Nat → List Nat → List Access
  | 0, _, _ => []
  | n + 1, col, p =>
    colAccess size col p ++
      match readCol p with
      | none => []
      | some (_, p) => colsAccess size n (col + 1) p

/-- The accesses of `payload_read`. -/
def payloadAccess (buf : List Nat) : List Access :=
  if buf.length < 12 then []
  else
    let p₁ := (getU32 buf).2
    let p₂ := (getU32 p₁).2
    let count := (getU32 p₂).1
    u32Access buf.length buf ++ (u32Access buf.length p₁ ++ (u32Access buf.length p₂ ++
      if (getU32 buf).1 ≠ vmsMcMagic ∨ (getU32 p₁).1 ≠ vmsMcSchemaVersion then []
      else if count = 0 ∨ vmsMetaMaxColumns < count then []
      else colsAccess buf.length count 0 (getU32 p₂).2))

/-- What a column that was read has. -/
structure ReadBack (m : VmsMetaColumn) : Prop where
  name : 0 ∉ m.name ∧ m.name ≠ [] ∧ m.name.length < vmsMetaMaxName
  typeName : 0 ∉ m.typeName ∧ m.typeName ≠ [] ∧ m.typeName.length < maxTypeName
  vtype : m.vtype ≠ .unsupported

/-! ## One text, one number, one column -/

variable {cap : Nat} {p rest : List Nat}

/-- **A text that was read**: it stands at the front, closed by a zero byte. -/
theorem readString_some {s : List Nat} (h : readString cap p = some (s, rest)) :
    p = s ++ 0 :: rest ∧ 0 ∉ s ∧ s ≠ [] ∧ s.length < cap := by
  revert h
  fun_cases readString cap p
  case case3 s' rest' htext hshort =>
    rintro ⟨⟩
    revert htext
    fun_cases readText p
    case case2 c rest hdrop =>
      rintro ⟨⟩
      have hc : c = 0 := by
        have hstop := head_dropWhile_not (fun c => c != 0) (l := p) (by simp [hdrop])
        simpa [hdrop] using hstop
      have hsplit := takeWhile_append_dropWhile (p := fun c => c != 0) (l := p)
      rw [hdrop, hc] at hsplit
      refine ⟨hsplit.symm, fun h0 => ?_, ?_, by omega⟩
      · exact absurd (mem_takeWhile_imp h0) (by simp)
      · intro hnil
        exact hshort (.inl (by rw [hnil]; rfl))
    all_goals rintro ⟨⟩
  all_goals rintro ⟨⟩

theorem readString_length {s : List Nat} (h : readString cap p = some (s, rest)) : rest.length ≤ p.length := by
  rw [(readString_some h).1, length_append, length_cons]
  omega

theorem getU32_length (p : List Nat) : (getU32 p).2.length ≤ p.length := by
  unfold getU32
  fun_cases readLe32 p
  · exact Nat.le_add_right _ 4
  · exact le_rfl

/-- Where four bytes are left, they are the number's. -/
theorem getU32_eq (h : 4 ≤ p.length) (hbytes : ∀ b ∈ p, b < 256) :
    p = le32 (getU32 p).1 ++ (getU32 p).2 ∧ (getU32 p).2 = p.drop 4 := by
  match p with
  | a :: b :: c :: d :: rest =>
    have ha := hbytes a (by simp)
    have hb := hbytes b (by simp)
    have hc := hbytes c (by simp)
    have hd := hbytes d (by simp)
    refine ⟨?_, rfl⟩
    show _ = le32 (a + 256 * b + 65536 * c + 16777216 * d) ++ rest
    simp only [le32, cons_append, nil_append, List.cons.injEq, and_true]
    omega
  | [] | [_] | [_, _] | [_, _, _] => simp at h

/-- Three numbers, where there are the bytes for them. -/
theorem getU32_three (h : 12 ≤ p.length) (hbytes : ∀ b ∈ p, b < 256) :
    p = le32 (getU32 p).1 ++ (le32 (getU32 (getU32 p).2).1 ++ (le32 (getU32 (getU32 (getU32 p).2).2).1 ++
      (getU32 (getU32 (getU32 p).2).2).2)) := by
  obtain ⟨h₁, hdrop₁⟩ := getU32_eq (by omega) hbytes
  have hbytes₁ : ∀ b ∈ (getU32 p).2, b < 256 := fun b hb => hbytes b (mem_of_mem_drop (hdrop₁ ▸ hb))
  have hlen₁ := congrArg List.length hdrop₁
  rw [length_drop] at hlen₁
  obtain ⟨h₂, hdrop₂⟩ := getU32_eq (by omega) hbytes₁
  have hlen₂ := congrArg List.length hdrop₂
  rw [length_drop] at hlen₂
  have hbytes₂ : ∀ b ∈ (getU32 (getU32 p).2).2, b < 256 := fun b hb => hbytes₁ b (mem_of_mem_drop (hdrop₂ ▸ hb))
  obtain ⟨h₃, -⟩ := getU32_eq (by omega) hbytes₂
  rw [← h₃, ← h₂, ← h₁]

variable {size : Nat}

theorem u32Access_inside (h : p.length ≤ size) : ∀ a ∈ u32Access size p, a.Inside size := by
  intro a ha
  unfold u32Access at ha
  split_ifs at ha with hshort
  · cases ha
  · obtain rfl := mem_singleton.mp ha
    show size - p.length + 4 ≤ size
    omega

theorem textAccess_inside {write : Nat → Access} (h : p.length ≤ size) (hwrite : ∀ n ≤ cap, (write n).Inside size) :
    ∀ a ∈ textAccess size cap write p, a.Inside size := by
  intro a ha
  unfold textAccess at ha
  rcases mem_cons.mp ha with rfl | ha
  · show size - p.length + _ ≤ size
    omega
  split_ifs at ha with hstop
  · cases ha
  simp only [mem_cons, not_mem_nil, or_false] at ha
  rcases ha with rfl | rfl
  · show size - p.length + _ ≤ size
    omega
  · exact hwrite _ (by omega)

theorem colTypeOf_some {v : Nat} {t : VmsColType} (h : colTypeOf v = some t) :
    colTypeCode t = v ∧ t ≠ .unsupported := by
  revert h
  fun_cases colTypeOf v <;> rintro ⟨⟩ <;> exact ⟨rfl, by decide⟩

variable {m : VmsMetaColumn}

/-- The flags, from a word with no other bits. -/
theorem flagsOf_word {f : Nat} (h : f < 8) (hnull : m.isNullable = (f &&& vmsMcFlagNullable != 0))
    (hident : m.isIdentity = (f &&& vmsMcFlagIdentity != 0))
    (hcomp : m.isComputed = (f &&& vmsMcFlagComputed != 0)) : flagsOf m = f := by
  rw [flagsOf, hnull, hident, hcomp]
  clear hnull hident hcomp
  revert f
  decide

/-- What is behind the next NUL. -/
def afterNul (p : List Nat) : List Nat := (p.dropWhile (· != 0)).tail

theorem afterNul_append {s : List Nat} (h : 0 ∉ s) (q : List Nat) : afterNul (s ++ 0 :: q) = q := by
  have hall : ∀ c ∈ s, (c != 0) = true := by
    intro c hc
    simpa using fun hzero : c = 0 => h (hzero ▸ hc)
  rw [afterNul, dropWhile_append_of_pos hall]
  rfl

/-- What is behind the two texts of a column. -/
def afterTexts (p : List Nat) : List Nat := afterNul (afterNul p)

theorem afterTexts_eq (h : ReadBack m) (q : List Nat) : afterTexts (m.name ++ 0 :: (m.typeName ++ 0 :: q)) = q := by
  rw [afterTexts, afterNul_append h.name.1, afterNul_append h.typeName.1]

/-- The numbers of a column are all there, and its flags are the three that the writer knows. -/
def Whole (q : List Nat) : Prop := 14 ≤ q.length ∧ (getU32 (q.drop 4)).1 < 8

instance (q : List Nat) : Decidable (Whole q) := by
  unfold Whole
  infer_instance

/-- **A column that was read**: its texts stand at the front, and numbers that are whole behind them. -/
theorem readCol_some (h : readCol p = some (m, rest)) :
    ∃ q, p = m.name ++ 0 :: (m.typeName ++ 0 :: q) ∧ ReadBack m ∧ rest.length ≤ q.length ∧
      (Whole q → (∀ b ∈ q, b < 256) → q = numberBytes m ++ rest) := by
  revert h
  fun_cases readCol p
  case case4 name p₁ hname typeName q htype v q₁ hv f q₂ hf l precision scale _ vtype hcode hl =>
    rintro ⟨⟩
    obtain ⟨hp, hnames⟩ := readString_some hname
    obtain ⟨hp₁, htypes⟩ := readString_some htype
    obtain ⟨hcode, hsupported⟩ := colTypeOf_some hcode
    have h₁ := getU32_length q
    have h₂ := getU32_length q₁
    have h₃ := getU32_length q₂
    rw [hv] at h₁
    rw [hf] at h₂
    rw [hl] at h₃
    simp only [length_cons] at h₁ h₂ h₃
    refine ⟨q, by rw [hp, hp₁], ⟨hnames, htypes, hsupported⟩, by omega, fun ⟨hlen, hflags⟩ hbytes => ?_⟩
    have hdrop := (getU32_eq (by omega) hbytes).2
    have hq := getU32_three (by omega) hbytes
    simp only [hv, hf, hl] at hq hdrop
    have hprec := hbytes precision (by rw [hq]; simp)
    have hscale := hbytes scale (by rw [hq]; simp)
    rw [← hdrop, hf] at hflags
    rw [numberBytes, hcode, flagsOf_word hflags rfl rfl rfl, Nat.mod_eq_of_lt hprec, Nat.mod_eq_of_lt hscale, hq]
    simp
  all_goals rintro ⟨⟩

/-- The writer makes of a column what was read of it when, and only when, its numbers are whole. -/
theorem column_iff (h : readCol p = some (m, rest)) (hbytes : ∀ b ∈ p, b < 256) (x : List Nat) :
    columnBytes m ++ x = p ↔ Whole (afterTexts p) ∧ x = rest := by
  obtain ⟨q, hp, hback, -, hwhole⟩ := readCol_some h
  have hq : ∀ b ∈ q, b < 256 := fun b hb => hbytes b (by simp [hp, hb])
  rw [hp, afterTexts_eq hback, columnBytes_append]
  constructor
  · intro heq
    obtain rfl : numberBytes m ++ x = q := by simpa using heq
    have hw : Whole (numberBytes m ++ x) := by
      have hdrop : (numberBytes m ++ x).drop 4 =
          le32 (flagsOf m) ++ (le32 m.maxLength ++ m.precision % 256 :: m.scale % 256 :: x) := by
        simp [numberBytes, le32]
      rw [Whole, hdrop, getU32_le32 ((flagsOf_lt m).trans (by decide))]
      have hlen : (numberBytes m).length = 14 := rfl
      refine ⟨?_, flagsOf_lt m⟩
      rw [length_append]
      omega
    exact ⟨hw, append_cancel_left (hwhole hw hq)⟩
  · rintro ⟨hw, rfl⟩
    rw [← hwhole hw hq]

theorem colAccess_inside {col : Nat} (h : p.length ≤ size) (hcol : col < vmsMetaMaxColumns) :
    ∀ a ∈ colAccess size col p, a.Inside size := by
  unfold colAccess
  refine forall_mem_append.mpr ⟨textAccess_inside h fun n hn => ⟨hcol, hn⟩, ?_⟩
  split
  · simp
  · rename_i name p' hname
    have hp' := (readString_length hname).trans h
    refine forall_mem_append.mpr ⟨textAccess_inside hp' fun n hn => ⟨hcol, hn⟩, ?_⟩
    split
    · simp
    · rename_i typeName q htype
      have h₀ := (readString_length htype).trans hp'
      have h₁ := (getU32_length q).trans h₀
      have h₂ := (getU32_length _).trans h₁
      have h₃ := (getU32_length _).trans h₂
      refine forall_mem_append.mpr ⟨u32Access_inside h₀, forall_mem_append.mpr ⟨u32Access_inside h₁,
        forall_mem_append.mpr ⟨u32Access_inside h₂, ?_⟩⟩⟩
      split_ifs with hshort hcode
      · simp
      · simpa [Access.Inside] using hcol
      · simp only [Access.Inside, mem_cons, not_mem_nil, or_false, forall_eq_or_imp, forall_eq]
        omega

theorem colsAccess_inside {size : Nat} : ∀ (n col : Nat) (p : List Nat), p.length ≤ size → col + n ≤ vmsMetaMaxColumns →
    ∀ a ∈ colsAccess size n col p, a.Inside size
  | 0, _, _, _, _ => by simp [colsAccess]
  | n + 1, col, p, h, hcol => by
    rw [colsAccess]
    refine forall_mem_append.mpr ⟨colAccess_inside h (by omega), ?_⟩
    split
    · simp
    · rename_i m rest hread
      obtain ⟨q, hp, -, hrest, -⟩ := readCol_some hread
      rw [hp] at h
      simp only [length_append, length_cons] at h
      exact colsAccess_inside n (col + 1) rest (by omega) (by omega)

/-- The loop gives as many columns as the header says, each with texts and a type. -/
theorem readCols_some : ∀ {n : Nat} {p : List Nat} {cols : List VmsMetaColumn}, readCols n p = some cols →
    cols.length = n ∧ ∀ m ∈ cols, ReadBack m
  | 0, _, _, h => by
    cases h
    simp
  | n + 1, p, _, h => by
    rw [readCols] at h
    split at h
    · cases h
    · rename_i m rest hread
      obtain ⟨ms, hms, rfl⟩ := Option.map_eq_some_iff.mp h
      obtain ⟨q, -, hm, -, -⟩ := readCol_some hread
      obtain ⟨hlen, hall⟩ := readCols_some hms
      exact ⟨congrArg (· + 1) hlen, forall_mem_cons.mpr ⟨hm, hall⟩⟩

variable {cols : List VmsMetaColumn}

/-- What `payload_read` found in the header of a payload that it took. -/
theorem payloadRead_some {buf : List Nat} (h : payloadRead buf = some cols) :
    12 ≤ buf.length ∧ (getU32 buf).1 = vmsMcMagic ∧ (getU32 (getU32 buf).2).1 = vmsMcSchemaVersion ∧
      cols.length = (getU32 (getU32 (getU32 buf).2).2).1 ∧ 1 ≤ cols.length ∧ cols.length ≤ vmsMetaMaxColumns ∧
      readCols cols.length (getU32 (getU32 (getU32 buf).2).2).2 = some cols := by
  unfold payloadRead at h
  split_ifs at h with hshort
  simp only at h
  split_ifs at h with hmagic hcount
  have hlen := (readCols_some h).1
  rw [← hlen] at hcount h
  push Not at hmagic
  exact ⟨by omega, hmagic.1, hmagic.2, hlen, by omega, by omega, h⟩

/-! ## Reading is safe -/

/-- **Whatever the bytes are**, `payload_read` reads inside them and writes inside the 512 columns and the buffers
    of their texts; and when it succeeds, it gives as many columns as the header says, each with a name, the name
    of a type and a type of the registry. -/
theorem payload_read_safe (buf : List Nat) :
    (∀ a ∈ payloadAccess buf, a.Inside buf.length) ∧
    ∀ cols, payloadRead buf = some cols →
      cols.length = (getU32 (getU32 (getU32 buf).2).2).1 ∧ 1 ≤ cols.length ∧ cols.length ≤ vmsMetaMaxColumns ∧
        ∀ m ∈ cols, ReadBack m := by
  refine ⟨?_, fun cols h => ?_⟩
  · unfold payloadAccess
    split_ifs with hshort
    · simp
    have h₁ := getU32_length buf
    have h₂ := (getU32_length _).trans h₁
    have h₃ := (getU32_length _).trans h₂
    refine forall_mem_append.mpr ⟨u32Access_inside le_rfl, forall_mem_append.mpr ⟨u32Access_inside h₁,
      forall_mem_append.mpr ⟨u32Access_inside h₂, ?_⟩⟩⟩
    split_ifs with hmagic hcount
    · simp
    · simp
    · exact colsAccess_inside _ 0 _ h₃ (by omega)
  · obtain ⟨-, -, -, hcount, hpos, hmax, hread⟩ := payloadRead_some h
    exact ⟨hcount, hpos, hmax, (readCols_some hread).2⟩

/-! ## Reading is not strict -/

/-- Behind two NULs each of `n` columns has its numbers, and nothing stands behind the last one. -/
def Strict : Nat → List Nat → Prop
  | 0, p => p = []
  | n + 1, p => Whole (afterTexts p) ∧ Strict n ((afterTexts p).drop 14)

theorem readCols_strict : ∀ {p : List Nat} {cols : List VmsMetaColumn}, readCols cols.length p = some cols →
    (∀ b ∈ p, b < 256) → (cols.flatMap columnBytes = p ↔ Strict cols.length p)
  | p, [], _, _ => by simp [Strict, eq_comm]
  | p, m :: ms, h, hbytes => by
    rw [length_cons, readCols] at h
    split at h
    · cases h
    · rename_i m' rest hread
      obtain ⟨ms', hms, heq⟩ := Option.map_eq_some_iff.mp h
      obtain ⟨rfl, rfl⟩ := List.cons.inj heq
      have hcolumn := column_iff hread hbytes
      rw [flatMap_cons, hcolumn, length_cons, Strict]
      refine and_congr_right fun hwhole => ?_
      have hp := (hcolumn rest).mpr ⟨hwhole, rfl⟩
      obtain ⟨-, -, hback, -⟩ := readCol_some hread
      have hrest : (afterTexts p).drop 14 = rest := by
        rw [← hp, columnBytes_append, afterTexts_eq hback]
        exact drop_left' rfl
      rw [hrest]
      exact readCols_strict hms fun b hb => hbytes b (by rw [← hp]; exact mem_append_right _ hb)

/-- **The payloads that come back.**  What `payload_read` makes of some bytes is written back as these bytes when,
    and only when, the numbers of every column are all there, its flags are known ones and nothing follows. -/
theorem payload_strict_iff {buf : List Nat} (hbytes : ∀ b ∈ buf, b < 256)
    (h : payloadRead buf = some cols) :
    payloadOf true cols = some buf ↔ Strict cols.length (buf.drop 12) := by
  obtain ⟨hlong, hmagic, hversion, hcount, -, hmax, hread⟩ := payloadRead_some h
  have hbuf := getU32_three hlong hbytes
  rw [hmagic, hversion, ← hcount] at hbuf
  generalize (getU32 (getU32 (getU32 buf).2).2).2 = p at hread hbuf
  subst hbuf
  have hdrop : (le32 vmsMcMagic ++ (le32 vmsMcSchemaVersion ++ (le32 cols.length ++ p))).drop 12 = p := rfl
  rw [payloadOf_eq hmax, hdrop, ← readCols_strict hread fun b hb => hbytes b (by simp [hb])]
  simp [payload, header]

theorem payload_strict_iff_id :
    (∀ b ∈ payload [idColumn], b < 256) ∧ payloadRead (payload [idColumn]) = some [idColumn] ∧
      (payloadOf true [idColumn] = some (payload [idColumn]) ↔ Strict 1 ((payload [idColumn]).drop 12)) :=
  ⟨by decide, by decide, payload_strict_iff (by decide) (by decide)⟩

/-- The three ways to be taken and not come back: a byte behind the last column, a flag that nobody knows, and
    numbers of which the length is missing. -/
theorem payload_read_lenient :
    let front := header 1 ++ idColumn.name ++ 0 :: idColumn.typeName ++ 0 :: le32 0
    let flagged := front ++ le32 8 ++ le32 4 ++ [10, 0]
    let cut := front ++ le32 0 ++ [10, 0]
    let long := { idColumn with maxLength := 0xFFFFFFFF }
    (payloadRead (payload [idColumn] ++ [0]) = some [idColumn] ∧ payloadRead flagged = some [idColumn] ∧
      payloadRead cut = some [long]) ∧
    payloadOf true [idColumn] ≠ some (payload [idColumn] ++ [0]) ∧ payloadOf true [idColumn] ≠ some flagged ∧
      payloadOf true [long] ≠ some cut := by
  decide

/-! ## Writing does not respect its capacity -/

/-- The spans that the loop of `payload_write` fills, by offset and length. -/
def writtenCols (cap : Nat) : Nat → List VmsMetaColumn → List (Nat × Nat)
  | _, [] => []
  | pos, m :: ms =>
    if cap < pos + (m.name.length + 1) then []
    else
      let typeAt := pos + (m.name.length + 1)
      (pos, m.name.length + 1) ::
        if cap < typeAt + (m.typeName.length + 1) then []
        else
          let numbersAt := typeAt + (m.typeName.length + 1)
          (typeAt, m.typeName.length + 1) ::
            if cap < numbersAt + 10 then [] else (numbersAt, 14) :: writtenCols cap (numbersAt + 14) ms

/-- The spans that `payload_write` fills. -/
def payloadWritten (cap : Nat) (cols : List VmsMetaColumn) : List (Nat × Nat) :=
  if cap < 12 then [] else (0, 12) :: writtenCols cap 12 cols

/-- Respecting a capacity: every span is inside it, and what does not fit is refused. -/
def Respects (cap size : Nat) (written : List (Nat × Nat)) (result : Option (List Nat)) : Prop :=
  (∀ w ∈ written, w.1 + w.2 ≤ cap) ∧ (cap < size → result = none)

theorem respects_cons {off len : Nat} {written : List (Nat × Nat)} {result : Option (List Nat)} :
    Respects cap size ((off, len) :: written) result ↔ off + len ≤ cap ∧ Respects cap size written result := by
  simp [Respects, and_assoc]

theorem writeCols_respects {cap : Nat} : ∀ (cols : List VmsMetaColumn) (buf : List Nat), buf.length ≤ cap →
    (Respects cap (buf.length + (cols.flatMap columnBytes).length) (writtenCols cap buf.length cols)
        (writeCols cap buf cols) ↔
      ∀ n < cols.length, cap < buf.length + ((cols.take (n + 1)).flatMap columnBytes).length →
        cap + 4 < buf.length + ((cols.take (n + 1)).flatMap columnBytes).length)
  | [], buf, h => by simpa [Respects, writtenCols] using fun hlt => absurd h (by omega)
  | m :: ms, buf, h => by
    have hlen := length_columnBytes m
    have hshift : ∀ n, (((m :: ms).take (n + 1)).flatMap columnBytes).length =
        (columnBytes m).length + ((ms.take n).flatMap columnBytes).length := by simp
    -- a capacity that far below the end of this column is below the end of every other one as well
    have hfar : cap + 4 < buf.length + (columnBytes m).length → ∀ n < (m :: ms).length,
        cap < buf.length + (((m :: ms).take (n + 1)).flatMap columnBytes).length →
          cap + 4 < buf.length + (((m :: ms).take (n + 1)).flatMap columnBytes).length := by
      intro hlt n _ _
      rw [hshift]
      omega
    have hpos : buf.length + (m.name.length + 1) + (m.typeName.length + 1) + 14 = (buf ++ columnBytes m).length := by
      rw [length_append]
      omega
    rw [writeCols, writtenCols]
    by_cases hname : cap < buf.length + (m.name.length + 1)
    · rw [if_pos hname, if_pos hname]
      exact iff_of_true ⟨by simp, fun _ => rfl⟩ (hfar (by omega))
    rw [if_neg hname, if_neg hname]
    simp only [length_append, length_cons, length_nil, Nat.zero_add]
    by_cases htype : cap < buf.length + (m.name.length + 1) + (m.typeName.length + 1)
    · rw [if_pos htype, if_pos htype]
      exact iff_of_true ⟨by simpa using hname, fun _ => rfl⟩ (hfar (by omega))
    rw [if_neg htype, if_neg htype]
    by_cases hnumbers : cap < buf.length + (m.name.length + 1) + (m.typeName.length + 1) + 10
    · rw [if_pos hnumbers, if_pos hnumbers]
      refine iff_of_true ⟨?_, fun _ => rfl⟩ (hfar (by omega))
      simp only [mem_cons, not_mem_nil, or_false, forall_eq_or_imp, forall_eq]
      omega
    rw [if_neg hnumbers, if_neg hnumbers]
    by_cases hend : cap < buf.length + (columnBytes m).length
    · rw [respects_cons, respects_cons, respects_cons]
      refine iff_of_false (by omega) fun hall => ?_
      have hfirst := hall 0 (by simp) (by rw [hshift]; omega)
      rw [hshift, take_zero, flatMap_nil, length_nil] at hfirst
      omega
    · have hroom : (buf ++ columnBytes m).length ≤ cap := by
        rw [length_append]
        omega
      have ih := writeCols_respects ms (buf ++ columnBytes m) hroom
      rw [length_append] at ih
      simp only [Nat.add_assoc] at ih
      rw [respects_cons, and_iff_right (by omega), respects_cons, and_iff_right (by omega), respects_cons,
        and_iff_right (by omega), append_columnBytes, hpos, length_append, flatMap_cons, length_append, ih,
        Nat.forall_lt_succ_left]
      simp only [hshift]
      exact (and_iff_right fun hlt => absurd hlt (by simpa using hend)).symm

/-- **The capacities that `payload_write` respects.**  It stays inside the buffer, gives `payload_size` bytes where
    they fit and 0 where they do not, when, and only when, no column ends one to four bytes behind the capacity. -/
theorem payload_write_iff (hmax : cols.length ≤ vmsMetaMaxColumns) (cap : Nat) :
    (∃ size, payloadSize cols = some size ∧ Respects cap size (payloadWritten cap cols) (payloadWrite cap cols) ∧
      (size ≤ cap → (payloadWrite cap cols).map List.length = some size)) ↔
    ∀ n < cols.length, ¬ (cap < (payload (cols.take (n + 1))).length ∧
      (payload (cols.take (n + 1))).length ≤ cap + 4) := by
  have hsize : ∀ n, (payload (cols.take n)).length = 12 + ((cols.take n).flatMap columnBytes).length :=
    fun _ => length_append
  have hfits : (payload cols).length ≤ cap → (payloadWrite cap cols).map List.length = some (payload cols).length := by
    intro hle
    have hlong := length_payload cols
    rw [payloadWrite, if_neg (by omega), writeCols_eq _ _ hle]
    rfl
  simp only [payloadSize_eq hmax, Option.some.injEq, exists_eq_left', hsize, not_and, not_le]
  rw [and_iff_left hfits, payloadWritten, payloadWrite]
  by_cases hcap : cap < 12
  · rw [if_pos hcap, if_pos hcap]
    refine iff_of_true ⟨by simp, fun _ => rfl⟩ fun n hn _ => ?_
    obtain ⟨m, ms, rfl⟩ := exists_cons_of_length_pos (Nat.zero_lt_of_lt hn)
    rw [take_succ_cons, flatMap_cons, length_append, length_columnBytes]
    omega
  · rw [if_neg hcap, if_neg hcap, respects_cons, and_iff_right (by omega)]
    have hloop := writeCols_respects cols (header cols.length) (not_lt.mp hcap)
    have hlen : (payload cols).length = (header cols.length).length + (cols.flatMap columnBytes).length :=
      length_append
    rw [hlen]
    exact hloop

theorem payload_write_iff_id :
    [idColumn].length ≤ vmsMetaMaxColumns ∧ (payload [idColumn]).length = 33 ∧
      ∃ size, payloadSize [idColumn] = some size ∧
        Respects 33 size (payloadWritten 33 [idColumn]) (payloadWrite 33 [idColumn]) ∧
        (size ≤ 33 → (payloadWrite 33 [idColumn]).map List.length = some size) :=
  ⟨by decide, by decide, (payload_write_iff (by decide) 33).mpr (by decide)⟩

/-- Into 29 bytes the writer puts 33. -/
theorem payload_write_overrun :
    payloadSize [idColumn] = some 33 ∧ (19, 14) ∈ payloadWritten 29 [idColumn] ∧
      payloadWrite 29 [idColumn] = some (payload [idColumn]) := by
  decide

end VirtualMssql.MetaCache
