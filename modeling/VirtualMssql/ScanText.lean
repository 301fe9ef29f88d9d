/-
  TWO TEXTS FOR ONE SCAN — `vms_cursor_open` against `vms_plan_build_sql`.

  A full scan outside a transaction sends the text that `vms_cursor_open` writes from the metadata; inside a
  transaction, or with a plan, the text is that of the plan builder.  The two generators are independent:

    * `vms_cursor_open` writes `CAST(` in FRONT of the comma, so an ANSI text column behind the first gives
      `[a]CAST(,[b] AS nvarchar(4000))`, which is no select list;
    * it always writes `.STAsBinary()`, whatever representation the table was declared with;
    * it checks the room for columns, but skips `.STAsBinary()` when that does not fit and cuts the FROM clause off
      at the end of its buffer.

  `scan_texts_agree` says exactly when the two are the same statement, and when the text is whole.
-/
import VirtualMssql.Filter

namespace VirtualMssql.ScanText

open Plan VirtualMssql.Filter TSql Utf Option List Function

/-! ## `vms_cursor_open` -/

variable (c : VmsMetaColumn)

/-- The cast of an ANSI text column, up to the name. -/
def cursorCast (sql : List Nat) : Option (List Nat) :=
  if ansiText c then if 2048 ≤ sql.length + 6 then none else some (sql ++ wide "CAST(") else some sql

/-- The name in brackets; the comma in front of it is written here. -/
def cursorName (first : Bool) (c : VmsMetaColumn) (sql : List Nat) : Option (List Nat) :=
  (wideName 254 c.name).bind fun w =>
    if 2048 ≤ sql.length + (w.length + 1) + 4 then none
    else some (sql ++ ((if first then [] else [44]) ++ 91 :: (w ++ [93])))

/-- The rest of the cast. -/
def castTail : List Nat :=
  if c.vtype = .bigtext then wide " AS nvarchar(max))" else wide " AS nvarchar(4000))"

def cursorAs (sql : List Nat) : Option (List Nat) :=
  if ansiText c then
    if 2048 ≤ sql.length + ((castTail c).length + 1) then none else some (sql ++ castTail c)
  else some sql

/-- The method of a spatial column, when there is room for it. -/
def cursorMethod (sql : List Nat) : List Nat :=
  if c.vtype = .spatial ∧ sql.length + 14 < 2048 then sql ++ wide ".STAsBinary()" else sql

/-- One round of the loop over the columns. -/
def cursorColumn (first : Bool) (c : VmsMetaColumn) (sql : List Nat) : Option (List Nat) :=
  if !vmsMetaIdentValid c.name 128 then none
  else (((cursorCast c sql).bind (cursorName first c)).bind (cursorAs c)).map (cursorMethod c)

def cursorColumns : Bool → List VmsMetaColumn → List Nat → Option (List Nat)
  | _, [], sql => some sql
  | first, c :: cs, sql => (cursorColumn first c sql).bind (cursorColumns false cs)

/-- ` FROM [%hs].[%hs]`. -/
def fromText (schema table : List Nat) : List Nat :=
  wide " FROM [" ++ (schema ++ (wide "].[" ++ (table ++ wide "]")))

/-- `vms_cursor_open`: the text it sends.  The last `_snwprintf_s` truncates. -/
def vmsCursorOpen (cols : List VmsMetaColumn) (schema table : List Nat) : Option (List Nat) :=
  if cols = [] then none
  else if !vmsMetaIdentValid schema 128 || !vmsMetaIdentValid table 128 then none
  else (cursorColumns true cols (wide "SELECT ")).map fun sql =>
    sql ++ (fromText schema table).take (2047 - sql.length)

/-! ## The text without a buffer -/

def castSegs : List Seg := if ansiText c then [.text (wide "CAST(")] else []

def asSegs : List Seg :=
  if ansiText c then [.text (castTail c)] else []

/-- The pieces of a column; `meth` says whether the method was written. -/
def columnSegs (first : Bool) (c : VmsMetaColumn) (meth : Bool) : List Seg :=
  castSegs c ++ ((if first then [] else [.text (wide ",")]) ++ .name (serverName c) ::
    (asSegs c ++ if meth then [.text (wide ".STAsBinary()")] else []))

def isSpatial : Bool := c.vtype = .spatial

def listSegs : Bool → List VmsMetaColumn → List Seg
  | _, [] => []
  | first, c :: cs => columnSegs first c (isSpatial c) ++ listSegs false cs

def fromSegs (schema table : List Nat) : List Seg :=
  [.text (wide " FROM "), .name schema, .text (wide "."), .name table]

/-- **The whole text** of the scan. -/
def wholeSegs (cols : List VmsMetaColumn) (schema table : List Nat) : List Seg :=
  .text (wide "SELECT ") :: (listSegs true cols ++ fromSegs schema table)

theorem fromText_eq (schema table : List Nat) : fromText schema table = renderSegs (fromSegs schema table) := by
  have hfrom : wide " FROM [" = wide " FROM " ++ [91] := by decide
  have hdot : wide "].[" = [93] ++ (wide "." ++ [91]) := by decide
  have hclose : wide "]" = [93] := by decide
  rw [fromText, hfrom, hdot, hclose]
  simp [fromSegs, renderSegs, Seg.render]

variable {c} {sql out schema table : List Nat} {cols : List VmsMetaColumn}

theorem cursorCast_some (h : cursorCast c sql = some out) : out = sql ++ renderSegs (castSegs c) := by
  rw [cursorCast] at h
  rw [castSegs]
  split_ifs at h ⊢
  · rw [← some.inj h]
    simp [renderSegs, Seg.render]
  · rw [← some.inj h]
    simp [renderSegs]

theorem cursorName_some {first : Bool} (h : cursorName first c sql = some out) :
    out = sql ++ renderSegs ((if first then [] else [.text (wide ",")]) ++ [.name (serverName c)]) ∧
      out.length < 2048 := by
  obtain ⟨w, hw, h⟩ := bind_eq_some_iff.mp h
  obtain ⟨hroom, h⟩ := ite_none_left_eq_some.mp h
  have hcomma : wide "," = [44] := by decide
  rw [← some.inj h, wideName_some hw] at *
  constructor
  · cases first <;> simp [renderSegs, Seg.render, serverName, hcomma]
  · cases first <;> simp <;> omega

theorem cursorAs_some (h : cursorAs c sql = some out) (hsql : sql.length < 2048) :
    out = sql ++ renderSegs (asSegs c) ∧ out.length < 2048 := by
  rw [cursorAs] at h
  rw [asSegs]
  split_ifs at h ⊢
  · rw [← some.inj h, length_append]
    exact ⟨by simp [renderSegs, Seg.render], by omega⟩
  · rw [← some.inj h]
    exact ⟨by simp [renderSegs], hsql⟩

theorem cursorMethod_spec (c : VmsMetaColumn) (hsql : sql.length < 2048) :
    (cursorMethod c sql).length < 2048 ∧ ∃ meth, cursorMethod c sql =
        sql ++ renderSegs (if meth then [.text (wide ".STAsBinary()")] else []) ∧ (meth = true → isSpatial c = true) ∧
      (isSpatial c = true → meth = false → 2048 ≤ sql.length + 14) := by
  have hlen : (wide ".STAsBinary()").length = 13 := by decide
  rw [cursorMethod]
  split_ifs with h
  · refine ⟨by rw [length_append, hlen]; omega, true, by simp [renderSegs, Seg.render], fun _ => ?_, by simp⟩
    simpa [isSpatial] using h.1
  · refine ⟨hsql, false, by simp [renderSegs], by simp, fun hs _ => ?_⟩
    have := not_and.mp h (by simpa [isSpatial] using hs)
    omega

/-- **One column**: its pieces, inside the buffer, and the method unless there was no room for it. -/
theorem cursorColumn_some {first : Bool} (h : cursorColumn first c sql = some out) :
    vmsMetaIdentValid c.name 128 = true ∧ out.length < 2048 ∧
      ∃ meth, out = sql ++ renderSegs (columnSegs first c meth) ∧ (meth = true → isSpatial c = true) ∧
        (isSpatial c = true → meth = false → 2048 ≤ out.length + 14) := by
  rw [cursorColumn] at h
  obtain ⟨hvalid, h⟩ := ite_none_left_eq_some.mp h
  obtain ⟨s₃, hs, hout⟩ := map_eq_some_iff.mp h
  obtain ⟨s₂, hs', h₃⟩ := bind_eq_some_iff.mp hs
  obtain ⟨s₁, h₁, h₂⟩ := bind_eq_some_iff.mp hs'
  obtain ⟨hs₂, hlen₂⟩ := cursorName_some h₂
  obtain ⟨hs₃, hlen₃⟩ := cursorAs_some h₃ hlen₂
  obtain ⟨hlen, meth, hmeth, hspatial, hroom⟩ := cursorMethod_spec c hlen₃
  rw [hout] at hlen hmeth
  refine ⟨by simpa using hvalid, hlen, meth, ?_, hspatial, fun hs hm => ?_⟩
  · rw [hmeth, hs₃, hs₂, cursorCast_some h₁, columnSegs]
    cases first <;> simp [renderSegs_append, renderSegs_cons, renderSegs_nil]
  · have := hroom hs hm
    rw [hmeth, length_append]
    omega

/-- All columns. -/
theorem cursorColumns_whole : ∀ {first : Bool} {cs : List VmsMetaColumn} {sql out : List Nat} (k : Nat),
    cursorColumns first cs sql = some out → 0 < k →
    sql.length + (renderSegs (listSegs first cs)).length + k < 2048 → out = sql ++ renderSegs (listSegs first cs)
  | _, [], sql, out, k, h, _, _ => by
    rw [← some.inj h]
    simp [listSegs, renderSegs]
  | first, c :: cs, sql, out, k, h, hk, hfits => by
    obtain ⟨mid, hmid, h⟩ := bind_eq_some_iff.mp h
    obtain ⟨_, _, meth, heq, hspatial, hroom⟩ := cursorColumn_some hmid
    -- the room behind the list is room for the method
    have hmeth : meth = isSpatial c := by
      cases hs : isSpatial c with
      | false => exact Bool.eq_false_iff.mpr fun hm => by rw [hspatial hm] at hs; cases hs
      | true =>
        cases hm : meth with
        | true => rfl
        | false =>
          have hfull := hroom hs hm
          have hlen : (renderSegs (columnSegs first c true)).length =
              (renderSegs (columnSegs first c false)).length + 13 := by
            simp only [columnSegs, renderSegs_append, renderSegs_cons, length_append, if_true,
              Bool.false_eq_true, if_false, renderSegs_nil, length_nil, Seg.render]
            have : (wide ".STAsBinary()").length = 13 := by decide
            omega
          rw [heq, hm, length_append] at hfull
          rw [listSegs, hs, renderSegs_append, length_append, hlen] at hfits
          omega
    rw [hmeth] at heq
    rw [listSegs, renderSegs_append, length_append] at hfits
    have ih := cursorColumns_whole k h hk (by rw [heq, length_append]; omega)
    rw [ih, heq, listSegs, renderSegs_append, append_assoc]

theorem cursorColumns_length : ∀ {first : Bool} {cs : List VmsMetaColumn} {sql out : List Nat},
    cursorColumns first cs sql = some out → sql.length < 2048 → out.length < 2048
  | _, [], sql, out, h, hsql => by rw [← some.inj h]; exact hsql
  | first, c :: cs, sql, out, h, _ => by
    obtain ⟨mid, hmid, h⟩ := bind_eq_some_iff.mp h
    exact cursorColumns_length h (cursorColumn_some hmid).2.1

/-- What acceptance by `vms_cursor_open` says. -/
theorem vmsCursorOpen_some {a : List Nat} (h : vmsCursorOpen cols schema table = some a) :
    ∃ c cs sql, cols = c :: cs ∧ vmsMetaIdentValid schema 128 = true ∧ vmsMetaIdentValid table 128 = true ∧
      cursorColumns true cols (wide "SELECT ") = some sql ∧
      a = sql ++ (fromText schema table).take (2047 - sql.length) := by
  rw [vmsCursorOpen] at h
  obtain ⟨hne, h⟩ := ite_none_left_eq_some.mp h
  obtain ⟨hident, h⟩ := ite_none_left_eq_some.mp h
  obtain ⟨sql, hsql, rfl⟩ := map_eq_some_iff.mp h
  obtain ⟨c, cs, rfl⟩ := exists_cons_of_ne_nil hne
  have hvalid : vmsMetaIdentValid schema 128 = true ∧ vmsMetaIdentValid table 128 = true := by simpa using hident
  exact ⟨c, cs, sql, rfl, hvalid.1, hvalid.2, hsql, rfl⟩

/-- **The text is whole exactly when the whole fits.** -/
theorem cursor_whole_iff {a : List Nat} (h : vmsCursorOpen cols schema table = some a) :
    a = renderSegs (wholeSegs cols schema table) ↔ (renderSegs (wholeSegs cols schema table)).length < 2048 := by
  obtain ⟨c, cs, sql, -, -, -, hsql, rfl⟩ := vmsCursorOpen_some h
  have hwhole : renderSegs (wholeSegs cols schema table) =
      wide "SELECT " ++ (renderSegs (listSegs true cols) ++ fromText schema table) := by
    rw [fromText_eq, wholeSegs, renderSegs_cons, renderSegs_append, Seg.render]
  have hlen := cursorColumns_length hsql (by decide)
  constructor
  · intro heq
    rw [← heq, length_append, length_take]
    omega
  · intro hfits
    rw [hwhole] at hfits ⊢
    simp only [length_append] at hfits
    have hfrom : 0 < (fromText schema table).length := by simp [fromText, wide]
    have heq := cursorColumns_whole _ hsql hfrom (by omega)
    rw [heq, take_of_length_le (by rw [length_append]; omega), append_assoc]

/-! ## The tokens of the text -/

/-- Text that may stand behind a column: it closes a name, and does not go on with a dot. -/
structure Follows (x : List Nat) : Prop where
  closes : x.head? ≠ some 93
  noDot : ∀ r, lex .ascii x ≠ .sym 46 :: r

/-- The FROM clause, wherever it was cut. -/
theorem follows_from (schema table : List Nat) (k : Nat) : Follows ((fromText schema table).take k) := by
  have hshort : ∀ k < 7, ((wide " FROM [").take k).head? ≠ some 93 ∧
      (lex .ascii ((wide " FROM [").take k)).head? ≠ some (.sym 46) := by decide
  have hlen : (wide " FROM [").length = 7 := by decide
  rw [fromText]
  by_cases hk : k < 7
  · rw [take_append_of_le_length (by omega)]
    refine ⟨(hshort k hk).1, fun r h => (hshort k hk).2 ?_⟩
    rw [h]
    rfl
  · rw [take_append, take_of_length_le (by omega), hlen]
    refine ⟨by simp [wide], fun r h => ?_⟩
    have hrun : runPrefix .ascii .start (wide " FROM [") = ([kw "FROM"], .brk []) := by decide
    rw [TSql.lex, lexFrom_of_run _ hrun] at h
    exact absurd (cons.inj h).1 (by simp [kw])

theorem follows_comma (x : List Nat) : Follows (wide "," ++ x) := by
  refine ⟨by simp [wide], fun r h => ?_⟩
  have hcomma : lex .ascii (wide ",") = [.sym 44] := by decide
  rw [lex_text_append (by decide), hcomma] at h
  exact absurd (cons.inj h).1 (by simp)

theorem lex_cast (x : List Nat) : lex .ascii (wide "CAST(" ++ x) = kw "CAST" :: .sym 40 :: lex .ascii x := by
  have hcast : lex .ascii (wide "CAST(") = [kw "CAST", .sym 40] := by decide
  rw [lex_text_append (by decide), hcast]
  rfl

theorem follows_cast (x : List Nat) : Follows (wide "CAST(" ++ x) := by
  refine ⟨by simp [wide], fun r h => ?_⟩
  rw [lex_cast] at h
  exact absurd (cons.inj h).1 (by simp [kw])

/-- A valid name has no bracket. -/
theorem serverName_bracket (h : vmsMetaIdentValid c.name 128 = true) : 93 ∉ serverName c := by
  rw [bracket_mem_serverName]
  exact (ident_wide h).2

theorem not_spatial_of_ansi (h : ansiText c = true) : isSpatial c = false := by
  rw [ansiText, Bool.and_eq_true, Bool.or_eq_true] at h
  rcases h.1 with h | h <;> simp [isSpatial, of_decide_eq_true h]

theorem castTail_eq (c : VmsMetaColumn) : castTail c = castText (c.vtype = .bigtext) := by
  rw [castTail, castText]
  by_cases h : c.vtype = .bigtext <;> simp [h]

theorem lex_castText (big : Bool) (x : List Nat) : lex .ascii (castText big ++ x) =
    kw "AS" :: kw "nvarchar" :: .sym 40 :: lengthTok big :: .sym 41 :: .sym 41 :: lex .ascii x := by
  have hend : ∀ big, endMode (castText big) = .start := by decide
  have htext : ∀ big, lex .ascii (castText big) =
      [kw "AS", kw "nvarchar", .sym 40, lengthTok big, .sym 41, .sym 41] := by decide
  rw [lex_text_append (hend big), htext]
  rfl

theorem castText_head (big : Bool) (x : List Nat) : (castText big ++ x).head? ≠ some 93 := by
  cases big <;> simp [castText, wide]

theorem follows_method (meth : Bool) {x : List Nat} (hx : Follows x) :
    (renderSegs (if meth then [.text (wide ".STAsBinary()")] else []) ++ x).head? ≠ some 93 := by
  cases meth
  · simpa [renderSegs] using hx.closes
  · simp [renderSegs, Seg.render, wide]

/-- **A column that is not cast**, read as the item of the plan. -/
theorem column_match {c : VmsMetaColumn} {meth wkt : Bool} {x : List Nat} {rest : List Tok}
    (hvalid : vmsMetaIdentValid c.name 128 = true) (hansi : ansiText c = false) (hx : Follows x)
    (hmeth : meth = true → isSpatial c = true) (h : lex .ascii (Seg.render (.name (serverName c)) ++
        (renderSegs (if meth then [.text (wide ".STAsBinary()")] else []) ++ x)) = (projOf wkt c).toks ++ rest) :
    (wkt = true → isSpatial c = false) ∧ lex .ascii x = rest := by
  have hmethod : lex .ascii (wide ".STAsBinary()") = [.sym 46, Method.tok .stAsBinary, .sym 40, .sym 41] := by decide
  have hname := serverName_bracket hvalid
  rw [projOf] at h
  cases hm : meth with
  | true =>
    have hs := hmeth hm
    have hs' : c.vtype = .spatial := by simpa [isSpatial] using hs
    have hsegs : renderSegs [.text (wide ".STAsBinary()")] = wide ".STAsBinary()" := by simp [renderSegs, Seg.render]
    rw [hm, if_pos rfl, if_pos hs', hsegs, lex_name_append hname (by simp [wide]), lex_text_append (by decide),
      hmethod] at h
    cases wkt with
    | false => exact ⟨by simp, by simpa [Proj.toks] using h⟩
    | true =>
      have hne : Method.tok .stAsBinary ≠ Method.tok .stAsText := by decide
      simp [Proj.toks, hne] at h
  | false =>
    rw [hm] at h
    simp only [Bool.false_eq_true, if_false, renderSegs_nil, nil_append] at h
    rw [lex_name_append hname hx.closes] at h
    by_cases hs : c.vtype = .spatial
    · rw [if_pos hs] at h
      exact absurd (cons.inj h).2 (hx.noDot _)
    · rw [if_neg hs, hansi, if_neg (by simp)] at h
      exact ⟨fun _ => by simpa [isSpatial] using hs, (cons.inj h).2⟩

/-- **The columns behind the first**: read as the plan's, none of them is cast. -/
theorem columns_match (wkt : Bool) : ∀ {cs : List VmsMetaColumn} {sql out : List Nat},
    cursorColumns false cs sql = some out → ∃ body, out = sql ++ body ∧ ∀ cut, Follows cut → Follows (body ++ cut) ∧
        ∀ rest, lex .ascii (body ++ cut) = cs.flatMap (fun c => .sym 44 :: (projOf wkt c).toks) ++ rest →
          ∀ c ∈ cs, ansiText c = false ∧ (wkt = true → isSpatial c = false)
  | [], sql, out, h => ⟨[], by rw [← some.inj h]; simp, fun cut hcut => ⟨hcut, by simp⟩⟩
  | c :: cs, sql, out, h => by
    obtain ⟨mid, hmid, hrest⟩ := bind_eq_some_iff.mp h
    obtain ⟨hvalid, _, meth, rfl, hmeth, _⟩ := cursorColumn_some hmid
    obtain ⟨body, rfl, hbody⟩ := columns_match wkt hrest
    refine ⟨renderSegs (columnSegs false c meth) ++ body, by rw [append_assoc], fun cut hcut => ?_⟩
    obtain ⟨hfollows, ih⟩ := hbody cut hcut
    rw [append_assoc]
    cases hansi : ansiText c with
    | true =>
      -- `CAST(` stands where the comma should
      obtain ⟨x, hcast⟩ : ∃ x, renderSegs (columnSegs false c meth) ++ (body ++ cut) = wide "CAST(" ++ x := by
        simp [columnSegs, castSegs, hansi, renderSegs_cons, Seg.render]
      rw [hcast]
      refine ⟨follows_cast _, fun rest hlex => ?_⟩
      rw [lex_cast] at hlex
      exact absurd (cons.inj hlex).1 (by simp [kw])
    | false =>
      have hcomma : renderSegs (columnSegs false c meth) ++ (body ++ cut) = wide "," ++
          (Seg.render (.name (serverName c)) ++
            (renderSegs (if meth then [.text (wide ".STAsBinary()")] else []) ++ (body ++ cut))) := by
        simp [columnSegs, castSegs, asSegs, hansi, renderSegs_cons, Seg.render]
      rw [hcomma]
      refine ⟨follows_comma _, fun rest hlex => ?_⟩
      have hsep : lex .ascii (wide ",") = [.sym 44] := by decide
      simp only [lex_text_append (show endMode (wide ",") = .start by decide), hsep, flatMap_cons,
        cons_append, nil_append, append_assoc] at hlex
      obtain ⟨hwkt, hlex⟩ := column_match hvalid hansi hfollows hmeth (cons.inj hlex).2
      intro d hd
      rcases mem_cons.mp hd with rfl | hd
      · exact ⟨hansi, hwkt⟩
      · exact ih rest hlex d hd

/-- **The select list**, read as the plan's. -/
theorem list_match (wkt : Bool) {c : VmsMetaColumn} {cs : List VmsMetaColumn} {out cut : List Nat} {top : Bool}
    {rest : List Tok} (h : cursorColumns true (c :: cs) (wide "SELECT ") = some out) (hcut : Follows cut)
    (hlex : lex .ascii (out ++ cut) = kw "SELECT" :: (topToks top ++
      (joinToks (.sym 44) (((c :: cs).map (projOf wkt)).map Proj.toks) ++ rest))) :
    (∀ d ∈ cs, ansiText d = false) ∧ (wkt = true → ∀ d ∈ c :: cs, d.vtype ≠ .spatial) := by
  obtain ⟨mid, hmid, hrest⟩ := bind_eq_some_iff.mp h
  obtain ⟨hvalid, _, meth, rfl, hmeth, _⟩ := cursorColumn_some hmid
  obtain ⟨body, rfl, hbody⟩ := columns_match wkt hrest
  obtain ⟨hfollows, hmatch⟩ := hbody cut hcut
  have hselect : lex .ascii (wide "SELECT ") = [kw "SELECT"] := by decide
  rw [append_assoc, append_assoc, lex_text_append (by decide), hselect, map_cons, map_cons,
    joinToks_cons, flatMap_map, flatMap_map, append_assoc] at hlex
  replace hlex := (cons.inj hlex).2
  -- the first column, and then the others
  have hfirst : (wkt = true → isSpatial c = false) ∧
      lex .ascii (body ++ cut) = cs.flatMap (fun c => .sym 44 :: (projOf wkt c).toks) ++ rest := by
    cases hansi : ansiText c with
    | true =>
      have hspatial := not_spatial_of_ansi hansi
      have hm : meth = false := Bool.eq_false_iff.mpr fun hm => by rw [hmeth hm] at hspatial; cases hspatial
      have htext : renderSegs (columnSegs true c meth) ++ (body ++ cut) = wide "CAST(" ++
          (Seg.render (.name (serverName c)) ++ (castText (c.vtype = .bigtext) ++ (body ++ cut))) := by
        simp [columnSegs, castSegs, asSegs, hansi, hm, castTail_eq, renderSegs_cons, renderSegs_nil, Seg.render]
      have hproj : projOf wkt c = .cast (serverName c) (c.vtype = .bigtext) := by
        rw [projOf, if_neg (by simpa [isSpatial] using hspatial), if_pos hansi]
      rw [htext, lex_cast, lex_name_append (serverName_bracket hvalid) (castText_head _ _), lex_castText, hproj] at hlex
      cases top with
      | true =>
        have hne : kw "CAST" ≠ kw "TOP" := by decide
        exact absurd (cons.inj hlex).1 hne
      | false =>
        refine ⟨fun _ => hspatial, ?_⟩
        simpa [topToks, Proj.toks] using hlex
    | false =>
      have htext : renderSegs (columnSegs true c meth) ++ (body ++ cut) = Seg.render (.name (serverName c)) ++
          (renderSegs (if meth then [.text (wide ".STAsBinary()")] else []) ++ (body ++ cut)) := by
        simp [columnSegs, castSegs, asSegs, hansi, renderSegs_cons]
      rw [htext] at hlex
      cases top with
      | true =>
        rw [lex_name_append (serverName_bracket hvalid) (follows_method meth hfollows)] at hlex
        exact absurd (cons.inj hlex).1 (by simp [kw])
      | false => exact column_match hvalid hansi hfollows hmeth hlex
  have hothers := hmatch rest hfirst.2
  refine ⟨fun d hd => (hothers d hd).1, fun hwkt d hd => ?_⟩
  rcases mem_cons.mp hd with rfl | hd
  · simpa [isSpatial] using hfirst.1 hwkt
  · simpa [isSpatial] using (hothers d hd).2 hwkt

/-! ## The same statement -/

/-- The scan as a statement. -/
def scanSelect (cols : List VmsMetaColumn) (wkt : Bool) (schema table : List Nat) : Select :=
  ⟨false, cols.map (projOf wkt), schema, table, [], [], .all⟩

/-- A column as the plan writes it. -/
theorem columnSegs_eq (wkt : Bool) (c : VmsMetaColumn) (hspatial : wkt = true → c.vtype ≠ .spatial) :
    columnSegs true c (isSpatial c) = (projOf wkt c).segs ∧
      (ansiText c = false → columnSegs false c (isSpatial c) = .text (wide ",") :: (projOf wkt c).segs) := by
  rw [projOf]
  by_cases hs : c.vtype = .spatial
  · have hansi : ansiText c = false := by simp [ansiText, hs]
    have hwkt : wkt = false := Bool.eq_false_iff.mpr fun hw => hspatial hw hs
    simp [columnSegs, castSegs, asSegs, hansi, isSpatial, hs, hwkt, Proj.segs, Method.text]
  · cases hansi : ansiText c with
    | true => simp [columnSegs, castSegs, asSegs, hansi, isSpatial, hs, Proj.segs, castTail_eq]
    | false => simp [columnSegs, castSegs, asSegs, hansi, isSpatial, hs, Proj.segs]

/-- The list, when no column behind the first is cast and no method is asked for as text. -/
theorem listSegs_eq (wkt : Bool) : ∀ {cs : List VmsMetaColumn}, (wkt = true → ∀ c ∈ cs, c.vtype ≠ .spatial) →
    ((∀ c ∈ cs.tail, ansiText c = false) →
        listSegs true cs = joinSegs (wide ",") ((cs.map (projOf wkt)).map Proj.segs)) ∧
      (cs ≠ [] → (∀ c ∈ cs, ansiText c = false) → listSegs false cs =
        .text (wide ",") :: joinSegs (wide ",") ((cs.map (projOf wkt)).map Proj.segs))
  | [], _ => ⟨fun _ => rfl, fun h => absurd rfl h⟩
  | [c], hs => by
    obtain ⟨hfirst, hlater⟩ := columnSegs_eq wkt c fun hw => hs hw c (by simp)
    refine ⟨fun _ => by simp [listSegs, joinSegs, hfirst], fun _ ha => ?_⟩
    simp [listSegs, joinSegs, hlater (ha c (by simp))]
  | c :: d :: cs, hs => by
    obtain ⟨hfirst, hlater⟩ := columnSegs_eq wkt c fun hw => hs hw c (by simp)
    have ih := (listSegs_eq wkt fun hw e (he : e ∈ d :: cs) => hs hw e (mem_cons_of_mem _ he)).2 (by simp)
    refine ⟨fun ha => ?_, fun _ ha => ?_⟩
    · rw [listSegs, hfirst, ih ha]
      rfl
    · rw [listSegs, hlater (ha c (by simp)), ih (forall_mem_cons.mp ha).2]
      rfl

/-- The plan's separator is one character longer. -/
theorem joinSegs_length : ∀ l : List (List Seg),
    (renderSegs (joinSegs (wide ",") l)).length ≤ (renderSegs (joinSegs (wide ", ") l)).length
  | [] => le_refl _
  | [a] => le_refl _
  | a :: b :: l => by
    have ih := joinSegs_length (b :: l)
    have hsep : (wide ",").length = 1 ∧ (wide ", ").length = 2 := by decide
    simp only [joinSegs, renderSegs_append, renderSegs_cons, length_append, Seg.render, hsep]
    omega

/-- **The whole text is the statement**, when its list is the plan's. -/
theorem lex_whole {wkt : Bool}
    (hlist : listSegs true cols = joinSegs (wide ",") ((cols.map (projOf wkt)).map Proj.segs))
    (hnames : ∀ c ∈ cols, 93 ∉ serverName c) (hschema : 93 ∉ schema) (htable : 93 ∉ table) :
    lex .ascii (renderSegs (wholeSegs cols schema table)) = (scanSelect cols wkt schema table).toks := by
  have hok : SegsOk (wholeSegs cols schema table) := by
    have hdot : SegsOk [.text (wide "."), .name table] := by
      refine ⟨fun c hc => ?_, by simp [renderSegs], trivial⟩
      obtain rfl : 91 = c := by simpa [renderSegs, Seg.render] using hc
      decide
    have hname : SegsOk (.name schema :: _) := segsOk_name_text hdot (by decide) (by decide)
    have hfrom : Tail (fromSegs schema table) := tail_text (hname.open (by decide)) (.inl (by decide))
    rw [wholeSegs, hlist]
    refine SegsOk.open ?_ (by decide)
    exact segsOk_joinSegs "," (fun p _ => segsOk_proj p) (by decide) (.inr (by decide)) hfrom _
  have hselect : lex .ascii (wide "SELECT ") = [kw "SELECT"] := by decide
  have hfrom : lex .ascii (wide " FROM ") = [kw "FROM"] := by decide
  have hdot : lex .ascii (wide ".") = [.sym 46] := by decide
  have hcomma : lex .ascii (wide ",") = [.sym 44] := by decide
  have htoks : tokenSegs (wholeSegs cols schema table) = (scanSelect cols wkt schema table).toks := by
    rw [wholeSegs, hlist]
    simp only [fromSegs, tokenSegs_cons, tokenSegs_append, tokenSegs_joinSegs hcomma, List.map_map, comp_def,
      tokenSegs_proj, Seg.tokens, hselect, hfrom, hdot, scanSelect, Select.toks]
    rfl
  rw [← htoks, lex_segs_iff _ hok]
  intro n hn
  rw [wholeSegs, hlist] at hn
  simp only [fromSegs, mem_cons, mem_append, reduceCtorEq, false_or, name_mem_joinSegs, List.mem_map,
    exists_exists_and_eq_and, name_mem_proj, projOf_name, Option.some.injEq, Seg.name.injEq, not_mem_nil,
    or_false] at hn
  rcases hn with ⟨c, hc, rfl⟩ | rfl | rfl
  · exact hnames c hc
  · exact hschema
  · exact htable

/-- Every column was validated. -/
theorem cursorColumns_valid : ∀ {first : Bool} {cs : List VmsMetaColumn} {sql out : List Nat},
    cursorColumns first cs sql = some out → ∀ c ∈ cs, vmsMetaIdentValid c.name 128 = true
  | _, [], _, _, _ => by simp
  | first, c :: cs, sql, out, h => by
    obtain ⟨mid, hmid, hrest⟩ := bind_eq_some_iff.mp h
    intro d hd
    rcases mem_cons.mp hd with rfl | hd
    · exact (cursorColumn_some hmid).1
    · exact cursorColumns_valid hrest d hd

/-- The plan's text is read as the plan's statement when the names are identifiers. -/
theorem read_build {wkt : Bool} {plan : VmsPlan} {b : List Nat} {n : Int}
    (hb : vmsPlanBuildSql sqlWchars cols wkt plan schema table = some (b, n))
    (htop : ¬ writesTop plan) (hcols : ∀ c ∈ cols, vmsMetaIdentValid c.name 128 = true)
    (hschema : vmsMetaIdentValid schema 128 = true) (htable : vmsMetaIdentValid table 128 = true) :
    readSelect b = some (planSelect cols wkt plan schema table) := by
  have hcolumn : ∀ c ∈ cols, 93 ∉ serverName c := fun c hc => serverName_bracket (hcols c hc)
  have hat : ∀ i, 93 ∉ columnName cols i := by
    intro i
    rw [bracket_columnName]
    exact fun c hc => (ident_wide (hcols c (columnAt_some hc).2)).2
  have hnames : ∀ m ∈ (planSelect cols wkt plan schema table).names, 93 ∉ m := by
    intro m hm
    simp only [Select.names, planSelect, mem_append, mem_cons, not_mem_nil, or_false, List.map_map,
      filterMap_map, mem_filterMap, List.mem_map, comp] at hm
    rcases hm with ((⟨p, hp, hname⟩ | rfl | rfl) | ⟨t, _, hname⟩) | ⟨o, _, rfl⟩
    · obtain ⟨c, hc, rfl⟩ := mem_planProjection_names.mp ⟨p, hp, hname⟩
      exact hcolumn c (mem_of_projected hc)
    · exact ident_free hschema
    · exact ident_free htable
    · rw [condOf] at hname
      split_ifs at hname
      · simp [Cond.name?] at hname
      · cases hop : t.op <;> rw [hop] at hname <;> simp only [Cond.name?, Option.some.injEq, reduceCtorEq] at hname <;>
          exact hname ▸ hat _
    · exact hat _
  rw [readSelect, (build_lex_iff hb).mpr ⟨htop, hnames⟩]
  exact parseSelect_toks _ (planSelect_wellFormed _ _ _ _ _)

/-- **Two texts for one scan.**  For a plan of all columns: the two are statements that select the same expressions in
    the same order from the same table exactly when no ANSI text column stands behind the first, and no spatial column
    is asked for as text.  The cursor's text is whole exactly when the whole fits its buffer; the plan's always is. -/
theorem scan_texts_agree (cols : List VmsMetaColumn) (schema table : List Nat) (wkt : Bool) (plan : VmsPlan)
    (hmask : plan.usedMask = 0 ∨ plan.usedMask = 0xFFFFFFFF) (htop : ¬ writesTop plan) :
    (∀ a b n, vmsCursorOpen cols schema table = some a →
      vmsPlanBuildSql sqlWchars cols wkt plan schema table = some (b, n) →
      ((∃ s s', readSelect a = some s ∧ readSelect b = some s' ∧ s.cols = s'.cols ∧ s.schema = s'.schema ∧
          s.table = s'.table) ↔
        (∀ c ∈ cols.tail, ansiText c = false) ∧ (wkt = true → ∀ c ∈ cols, c.vtype ≠ .spatial))) ∧
    (∀ a, vmsCursorOpen cols schema table = some a → (a = renderSegs (wholeSegs cols schema table) ↔
      (renderSegs (wholeSegs cols schema table)).length < 2048)) ∧
    ∀ b n, vmsPlanBuildSql sqlWchars cols wkt plan schema table = some (b, n) →
      b = renderSegs (planSelect cols wkt plan schema table).segs := by
  refine ⟨fun a b n ha hb => ?_, fun a ha => cursor_whole_iff ha, fun b n hb => build_plain hb htop⟩
  obtain ⟨c, cs, sql, rfl, hschema, htable, hsql, rfl⟩ := vmsCursorOpen_some ha
  have hvalid := cursorColumns_valid hsql
  have hread := read_build hb htop hvalid hschema htable
  have hcols : (planSelect (c :: cs) wkt plan schema table).cols = (c :: cs).map (projOf wkt) := by
    rw [planSelect, planProjection, if_pos hmask]
  constructor
  · rintro ⟨s, s', hs, hs', hcols', _, _⟩
    obtain rfl := some.inj (hread.symm.trans hs')
    obtain ⟨_, htoks⟩ := parseSelect_eq_some.mp hs
    rw [Select.toks, hcols', hcols] at htoks
    exact list_match wkt hsql (follows_from schema table _) htoks
  · rintro ⟨hansi, hspatial⟩
    have hlist := (listSegs_eq wkt hspatial).1 hansi
    -- the plan's text is the longer one, and fits
    have hlen : (renderSegs (wholeSegs (c :: cs) schema table)).length ≤ b.length := by
      have hjoin := joinSegs_length (((c :: cs).map (projOf wkt)).map Proj.segs)
      rw [build_plain hb htop, wholeSegs, hlist, Select.segs, hcols]
      simp only [planSelect, fromSegs, (ident_wide hschema).1, (ident_wide htable).1, renderSegs_cons,
        renderSegs_append, length_append, renderSegs_nil, length_nil]
      omega
    have hwhole := (cursor_whole_iff ha).mpr (lt_of_le_of_lt hlen (build_text hb).2)
    refine ⟨scanSelect (c :: cs) wkt schema table, _, ?_, hread, hcols.symm, ?_, ?_⟩
    · rw [hwhole, readSelect, lex_whole hlist (fun d hd => serverName_bracket (hvalid d hd)) (ident_wide hschema).2
        (ident_wide htable).2]
      exact parseSelect_toks _ (fun h => absurd rfl h)
    · exact (ident_wide hschema).1.symm
    · exact (ident_wide htable).1.symm

def textColumn (name : List Nat) : VmsMetaColumn := { name, typeName := wide "varchar", vtype := .text }
def numberColumn (name : List Nat) : VmsMetaColumn := { name, typeName := wide "int", vtype := .int64 }

theorem scan_texts_agree_cast :
    ∃ s s', readSelect (wide "SELECT CAST([a] AS nvarchar(4000)),[b] FROM [s].[t]") = some s ∧
      readSelect (wide "SELECT CAST([a] AS nvarchar(4000)), [b] FROM [s].[t]") = some s' ∧ s.cols = s'.cols ∧
      s.schema = s'.schema ∧ s.table = s'.table :=
  ((scan_texts_agree [textColumn [97], numberColumn [98]] [115] [116] true fullPlan (.inr rfl)
    (by simp [writesTop, fullPlan])).1 _ _ 0 (by decide +kernel) (by decide +kernel)).mpr
    ⟨by decide, fun _ => by decide⟩

/-- A table whose names fill the buffer: fifteen of 128 characters, and one of 70. -/
def broadColumns : List VmsMetaColumn :=
  (range 15).map (fun i => numberColumn (replicate 127 97 ++ [97 + i])) ++
    [numberColumn (replicate 70 98)]

/-- A text column behind the first makes the cursor's text no statement; a long list makes it lose its FROM clause. -/
theorem scan_texts_differ :
    (vmsCursorOpen [numberColumn [97], textColumn [98]] [115] [116] =
        some (wide "SELECT [a]CAST(,[b] AS nvarchar(4000)) FROM [s].[t]") ∧
      vmsPlanBuildSql sqlWchars [numberColumn [97], textColumn [98]] false fullPlan [115] [116] =
        some (wide "SELECT [a], CAST([b] AS nvarchar(4000)) FROM [s].[t]", 0) ∧
      readSelect (wide "SELECT [a]CAST(,[b] AS nvarchar(4000)) FROM [s].[t]") = none) ∧
    ∃ a, vmsCursorOpen broadColumns [115] [116] = some a ∧
      a ≠ renderSegs (wholeSegs broadColumns [115] [116]) := by
  refine ⟨⟨by decide +kernel, by decide +kernel, by decide⟩, ?_⟩
  obtain ⟨a, ha⟩ := isSome_iff_exists.mp
    (by decide +kernel : (vmsCursorOpen broadColumns [115] [116]).isSome = true)
  refine ⟨a, ha, fun h => ?_⟩
  exact absurd ((cursor_whole_iff ha).mp h) (by decide +kernel)

end VirtualMssql.ScanText
