/-
  ARGUMENTS — how `vms_vtab_connect` reads the arguments of CREATE VIRTUAL TABLE.

  The values of `schema=`, `table=`, `query=` and `conn=` are kept as they stand, quotes included.  Behind the loop
  the quoted ones are copied into buffers on the stack, without a look at their length; then the identifiers are
  checked, and the connection key is looked up.  The value of `materialization=` is clipped to its buffer.

  A write to a buffer is recorded by the number of bytes it covers; the text goes on as if the buffer were large
  enough.  The model ends where the server is first asked: `Connect.vmsVtabConnect` goes on for a table, and a query
  is converted before it is sent.

  `arguments_bounded_iff`: the writes stay inside exactly if the quoted values fit, and which values that do not fit
  get through.
-/
import VirtualMssql.Connect
import VirtualMssql.Connstr

namespace VirtualMssql.Arguments

open Connect Connstr Mat MetaCache List Option
open TSql (wide)

/-! ## Buffers -/

inductive Buf
  | schema
  | table
  | query
  | connKey
  | mv
  deriving DecidableEq

def Buf.size : Buf → Nat
  | .schema | .table => 128
  | .query => 32768
  | .connKey => 256
  | .mv => 32

/-- The first `count` bytes of a buffer are written, the NUL included. -/
structure Write where
  buf : Buf
  count : Nat
  deriving DecidableEq

def Write.Inside (w : Write) : Prop := w.count ≤ w.buf.size

/-! ## The loop -/

/-- What the loop finds. -/
structure Args where
  schema : Option (List Nat) := none
  table : Option (List Nat) := none
  query : Option (List Nat) := none
  connKey : Option (List Nat) := none
  isQuery : Bool := false
  rw : Bool := false
  matMode : VmsMatMode := .off
  spatialWkt : Bool := false
  metadataCached : Bool := false

/-- What stands behind the key of an argument. -/
def after (key : String) (arg : List Nat) : Option (List Nat) :=
  if (wide key).isPrefixOf arg then some (arg.drop (wide key).length) else none

/-- A leading quote is skipped. -/
def skipQuote : List Nat → List Nat
  | 39 :: v => v
  | v => v

/-- `vms_mat_mode_parse`. -/
def vmsMatModeParse (s : List Nat) : Option VmsMatMode :=
  if s = [] then none
  else if stricmp s (wide "off") then some .off
  else if stricmp s (wide "memory") then some .memory
  else if stricmp s (wide "temp") then some .temp
  else none

variable (v : List Nat)

/-- The length of a `materialization=` value in its buffer: without the trailing quote, and clipped. -/
def mvLength : Nat :=
  let n := if v.getLast? = some 39 then v.length - 1 else v.length
  if Buf.mv.size ≤ n then Buf.mv.size - 1 else n

/-- An argument whose value is one of two words; only the beginning of the value is looked at. -/
def parseFlag (yes no : String) (set : Bool → Args) (message : String) :
    List Write × Except (List Nat) Args :=
  if (wide yes).isPrefixOf (skipQuote v) then ([], .ok (set true))
  else if (wide no).isPrefixOf (skipQuote v) then ([], .ok (set false))
  else ([], .error (wide message))

variable (a : Args)

/-- The body of the loop: the writes, and the arguments so far or a message. -/
def parseArg (arg : List Nat) : List Write × Except (List Nat) Args :=
  if let some v := after "schema=" arg then ([], .ok { a with schema := some v })
  else if let some v := after "table=" arg then ([], .ok { a with table := some v })
  else if let some v := after "source=" arg then
    parseFlag v "query" "table" (fun b => { a with isQuery := b }) "virtualmssql: source must be 'table' or 'query'"
  else if let some v := after "mode=" arg then
    parseFlag v "rw" "ro" (fun b => { a with rw := b }) "virtualmssql: mode must be 'ro' or 'rw'"
  else if let some v := after "query=" arg then ([], .ok { a with query := some v })
  else if let some v := after "materialization=" arg then
    let v := skipQuote v
    let n := mvLength v
    match vmsMatModeParse (v.take n) with
    | some m => ([⟨.mv, n + 1⟩], .ok { a with matMode := m })
    | none => ([⟨.mv, n + 1⟩], .error (wide "virtualmssql: materialization must be off|memory|temp"))
  else if let some v := after "spatial=" arg then
    parseFlag v "wkt" "wkb" (fun b => { a with spatialWkt := b }) "virtualmssql: spatial must be 'wkb' or 'wkt'"
  else if let some v := after "metadata_mode=" arg then
    parseFlag v "cached" "live" (fun b => { a with metadataCached := b })
      "virtualmssql: metadata_mode must be 'live' or 'cached'"
  else if let some v := after "conn=" arg then ([], .ok { a with connKey := some (skipQuote v) })
  else ([], .error (wide "virtualmssql: unknown argument '" ++ arg ++ wide "'"))

def parseArgs : List (List Nat) → Args → List Write × Except (List Nat) Args
  | [], a => ([], .ok a)
  | arg :: argv, a =>
    match parseArg a arg with
    | (ws, .error e) => (ws, .error e)
    | (ws, .ok a) =>
      let (ws', r) := parseArgs argv a
      (ws ++ ws', r)

/-! ## Quotes -/

/-- What stands between the quotes of a quoted value. -/
def quoted : Option (List Nat) :=
  if v.head? = some 39 ∧ 2 ≤ v.length ∧ v.getLast? = some 39 then some ((v.drop 1).take (v.length - 2)) else none

/-- The text goes on without the quotes. -/
def unquoted : List Nat := (quoted v).getD v

/-- The four values, with the buffers they are copied to. -/
def Args.values : List (Buf × Option (List Nat)) :=
  [(.schema, a.schema), (.table, a.table), (.query, a.query), (.connKey, a.connKey)]

/-- The bytes between the quotes and a NUL are written; nothing is, where the value is not quoted. -/
def copyQuoted (b : Buf) (v : Option (List Nat)) : List Write :=
  match v.bind quoted with
  | some inner => [⟨b, inner.length + 1⟩]
  | none => []

def Args.copies : List Write := a.values.flatMap fun p => copyQuoted p.1 p.2

def Args.unquoted : Args :=
  { a with
    schema := a.schema.map Arguments.unquoted
    table := a.table.map Arguments.unquoted
    query := a.query.map Arguments.unquoted
    connKey := a.connKey.map Arguments.unquoted }

/-! ## The checks -/

/-- Behind the loop: a query, or a schema and a table. -/
def Args.complete : Except (List Nat) Unit :=
  if a.isQuery && a.query.isNone then .error (wide "virtualmssql: source=query requires query='...'")
  else if !a.isQuery && (a.schema.isNone || a.table.isNone) then
    .error (wide "virtualmssql: schema= and table= are required")
  else .ok ()

/-- What goes on to the server: a table, or a query as it was converted. -/
inductive Source
  | table (a : ConnectArgs)
  | query (text : List Nat)

/-- `g_env` and `g_qprofile`, as far as the arguments are concerned: the active profile and the query-profile provider,
    which answers a key with a specification or does not know it. -/
structure Env where
  profile : VmsProfile
  provider : Option (List Nat → Option (List Nat)) := none

/-- What is compared of two profiles. -/
def identity (p : VmsProfile) : List Nat × List Nat × VmsAuthMode × VmsTlsMode × List Nat :=
  (p.server, p.database, p.auth, p.tls, p.cred)

/-- The profile behind a connection key, by `vms_ext_resolve_qprofile` and `vms_profile_parse`, or the message. -/
def Env.resolve (env : Env) (key : List Nat) : Except (List Nat) VmsProfile :=
  if !vmsMetaIdentValid key 128 then .error (wide "virtualmssql: invalid conn key")
  else match env.provider with
    | none => .error (wide "virtualmssql: UNSUPPORTED: conn= requires a registered query profile provider")
    | some getProfile =>
      match getProfile key with
      | none =>
        .error (wide "virtualmssql: UNKNOWN_PROFILE_KEY: conn key '" ++ key ++ wide "' is not known to the provider")
      | some spec =>
        (vmsProfileParse spec).mapError (wide "virtualmssql: conn provider returned a bad profile: " ++ ·)

/-- The profile has to be of the active identity. -/
def Env.checkKey (env : Env) (key : List Nat) : Except (List Nat) Unit :=
  match env.resolve key with
  | .error m => .error m
  | .ok p =>
    if identity p = identity env.profile then .ok ()
    else .error (wide "virtualmssql: UNSUPPORTED: conn key '" ++ key ++
      wide "' resolves to a different SQL Server identity than the active profile")

/-- Behind the copies: the identifiers, the shadow names, the connection key, and for a query its conversion. -/
def Args.check (env : Env) : Except (List Nat) Source :=
  if !a.isQuery && (!vmsMetaIdentValid (a.schema.getD []) 128 || !vmsMetaIdentValid (a.table.getD []) 128) then
    .error (wide "virtualmssql: invalid identifier")
  else if a.table.any vmsVtabShadowName then
    .error (wide "virtualmssql: '" ++ a.table.getD [] ++ wide "' is a reserved shadow name (module-private)")
  else match a.connKey.elim (.ok ()) env.checkKey with
    | .error m => .error m
    | .ok () =>
      if a.isQuery then
        match copyWide (a.query.getD []) 32768 with
        | some w => .ok (.query w)
        | none => .error (wide "virtualmssql: query rejected: query is not valid UTF-8")
      else
        .ok (.table
          { schema := a.schema.getD [], table := a.table.getD [], rw := a.rw, spatialWkt := a.spatialWkt
            metadataCached := a.metadataCached })

/-- `vms_vtab_connect`, as far as it is about its arguments: the writes, and what goes on or the message. -/
def connectArguments (env : Option Env) (argv : List (List Nat)) : List Write × Except (List Nat) Source :=
  match env with
  | none => ([], .error (wide "virtualmssql: module environment not initialized"))
  | some env =>
    match parseArgs argv {} with
    | (ws, .error e) => (ws, .error e)
    | (ws, .ok a) =>
      match a.complete with
      | .error e => (ws, .error e)
      | .ok () => (ws ++ a.copies, a.unquoted.check env)

/-- A call that has an environment comes to the copies, with these values. -/
def Parsed (argv : List (List Nat)) (a : Args) : Prop := (parseArgs argv {}).2 = .ok a ∧ a.complete = .ok ()

/-! ## The loop stays inside -/

theorem mvLength_lt (v : List Nat) : mvLength v < Buf.mv.size := by
  unfold mvLength
  extract_lets n
  split_ifs with h
  · decide
  · exact Nat.lt_of_not_le h

theorem parseFlag_writes (v : List Nat) (yes no : String) (set : Bool → Args) (message : String) :
    (parseFlag v yes no set message).1 = [] := by
  rw [parseFlag]
  split_ifs <;> rfl

/-- **An argument stays inside.**  Only `materialization=` writes, and its length is clipped. -/
theorem parseArg_inside (arg : List Nat) : ∀ w ∈ (parseArg a arg).1, w.Inside := by
  have hmv : ∀ v, ∀ w ∈ [Write.mk .mv (mvLength v + 1)], w.Inside := by
    intro v w hw
    rw [mem_singleton.mp hw]
    exact mvLength_lt v
  fun_cases parseArg a arg
  case case6 | case7 => exact hmv _
  all_goals simp [parseFlag_writes]

/-- **The loop stays inside.**  Induction on the arguments. -/
theorem parseArgs_inside : ∀ (argv : List (List Nat)) (a : Args), ∀ w ∈ (parseArgs argv a).1, w.Inside
  | [], a => by simp [parseArgs]
  | arg :: argv, a => by
    intro w hw
    have harg := parseArg_inside a arg
    rw [parseArgs] at hw
    rcases hp : parseArg a arg with ⟨ws, e | b⟩
    · rw [hp] at hw harg
      exact harg w hw
    · rw [hp] at hw harg
      rcases mem_append.mp hw with hw | hw
      · exact harg w hw
      · exact parseArgs_inside argv b w hw

/-! ## The copies -/

/-- Every quoted value fits into its buffer, with the NUL. -/
def Args.QuotedFit : Prop := ∀ p ∈ a.values, ∀ inner ∈ p.2.bind quoted, inner.length < p.1.size

/-- **A copy stays inside exactly if the value fits.** -/
theorem copyQuoted_inside {b : Buf} {v : Option (List Nat)} :
    (∀ w ∈ copyQuoted b v, w.Inside) ↔ ∀ inner ∈ v.bind quoted, inner.length < b.size := by
  rw [copyQuoted]
  cases v.bind quoted with
  | none => simp
  | some inner =>
    constructor
    · intro h v hv
      cases hv
      exact h _ (mem_singleton.mpr rfl)
    · intro h w hw
      rw [mem_singleton.mp hw]
      exact h inner rfl

variable {a}

theorem copies_inside : (∀ w ∈ a.copies, w.Inside) ↔ a.QuotedFit := by
  constructor
  · intro h p hp
    refine copyQuoted_inside.mp fun w hw => h w ?_
    exact mem_flatMap.mpr ⟨p, hp, hw⟩
  · intro h w hw
    obtain ⟨p, hp, hw⟩ := mem_flatMap.mp hw
    exact copyQuoted_inside.mpr (h p hp) w hw

/-! ## What the checks refuse -/

/-- Every value fits into its buffer, with the NUL. -/
def Args.Fits : Prop := ∀ p ∈ a.values, ∀ v ∈ p.2, v.length < p.1.size

/-- Values that do not fit and that no check is about.  An identifier of 128 characters is valid; beside a query
    the schema and the table are not looked at, nor is a query beside a table; and the size of a query is checked in
    units of UTF-16, not in bytes. -/
def Args.Slips : Prop :=
  if a.isQuery then
    (∃ v ∈ a.schema, 128 ≤ v.length) ∨ (∃ v ∈ a.table, 128 ≤ v.length) ∨
      ∃ v ∈ a.query, 32768 ≤ v.length ∧ copyWide v 32768 ≠ none
  else
    (∃ v ∈ a.schema, v.length = 128) ∨ (∃ v ∈ a.table, v.length = 128) ∨ ∃ v ∈ a.query, 32768 ≤ v.length

variable {env : Env}

/-- A connection key that is accepted: an identifier, which the provider answers with a profile of the active
    identity. -/
def Env.Knows (env : Env) (key : List Nat) : Prop :=
  Valid key ∧ ∃ getProfile ∈ env.provider, ∃ spec ∈ getProfile key, ∃ p, vmsProfileParse spec = .ok p ∧
    identity p = identity env.profile

/-- What the checks ask of the values. -/
structure Args.Passes (env : Env) (a : Args) : Prop where
  ident : a.isQuery = false → Valid (a.schema.getD []) ∧ Valid (a.table.getD [])
  shadow : a.table.any vmsVtabShadowName = false
  key : ∀ key ∈ a.connKey, env.Knows key
  query : a.isQuery = true → copyWide (a.query.getD []) 32768 ≠ none

theorem checkKey_ok_iff {key : List Nat} : env.checkKey key = .ok () ↔ env.Knows key := by
  rw [Env.checkKey, Env.resolve, Env.Knows, Valid]
  cases vmsMetaIdentValid key 128 with
  | false => simp
  | true =>
    cases env.provider with
    | none => simp
    | some getProfile =>
      cases hspec : getProfile key with
      | none => simp [hspec]
      | some spec => cases hparse : vmsProfileParse spec <;> simp [hspec, hparse, Except.mapError]

theorem connKey_ok_iff : a.connKey.elim (.ok ()) env.checkKey = .ok () ↔ ∀ key ∈ a.connKey, env.Knows key := by
  cases a.connKey with
  | none => simp
  | some key => simpa using checkKey_ok_iff

/-- **The checks let a call through exactly if its values are as they ask.** -/
theorem check_ok_iff : (∃ src, a.check env = .ok src) ↔ a.Passes env := by
  fun_cases Args.check a env
  case case1 h =>
    refine iff_of_false (by simp) fun hp => ?_
    obtain ⟨hq, hident⟩ := (Bool.and_eq_true _ _).mp h
    obtain ⟨hs, ht⟩ : vmsMetaIdentValid _ 128 = true ∧ vmsMetaIdentValid _ 128 = true := hp.ident (by simpa using hq)
    simp [hs, ht] at hident
  case case2 h =>
    refine iff_of_false (by simp) fun hp => ?_
    rw [hp.shadow] at h
    cases h
  case case3 m h =>
    refine iff_of_false (by simp) fun hp => ?_
    rw [connKey_ok_iff.mpr hp.key] at h
    cases h
  case case4 hs hkey hq w hw =>
    exact iff_of_true ⟨_, rfl⟩ ⟨by simp [hq], by simpa using hs, connKey_ok_iff.mp hkey, by simp [hw]⟩
  case case5 hq hw => exact iff_of_false (by simp) fun hp => hp.query hq hw
  case case6 hident hs hkey hq =>
    refine iff_of_true ⟨_, rfl⟩ ⟨fun _ => ?_, by simpa using hs, connKey_ok_iff.mp hkey, by simp [hq]⟩
    simpa [hq, Valid] using hident

theorem fits_iff : a.Fits ↔ (∀ v ∈ a.schema, v.length < 128) ∧ (∀ v ∈ a.table, v.length < 128) ∧
      (∀ v ∈ a.query, v.length < 32768) ∧ ∀ v ∈ a.connKey, v.length < 256 := by
  simp [Args.Fits, Args.values, Buf.size]

/-- What slips through does not fit. -/
theorem Args.Slips.not_fits (h : a.Slips) : ¬ a.Fits := by
  rw [fits_iff]
  rintro ⟨hs, ht, hq, -⟩
  rw [Args.Slips] at h
  split_ifs at h
  · rcases h with ⟨v, hv, h⟩ | ⟨v, hv, h⟩ | ⟨v, hv, h, -⟩
    · exact absurd (hs v hv) (by omega)
    · exact absurd (ht v hv) (by omega)
    · exact absurd (hq v hv) (by omega)
  · rcases h with ⟨v, hv, h⟩ | ⟨v, hv, h⟩ | ⟨v, hv, h⟩
    · exact absurd (hs v hv) (by omega)
    · exact absurd (ht v hv) (by omega)
    · exact absurd (hq v hv) (by omega)

/-- **Nothing else gets through**: values that pass fit, or one of them slips. -/
theorem Args.Passes.fits (h : a.Passes env) (hslip : ¬ a.Slips) : a.Fits := by
  obtain ⟨hident, -, hkey, hquery⟩ := h
  have hconn : ∀ v ∈ a.connKey, v.length < 256 := by
    intro v hv
    have := (hkey v hv).1.length
    omega
  rw [Args.Slips] at hslip
  rw [fits_iff]
  cases hq : a.isQuery with
  | true =>
    simp only [hq, if_true, not_or, not_exists, not_and, not_le] at hslip
    obtain ⟨hs, ht, hlong⟩ := hslip
    refine ⟨hs, ht, fun v hv => ?_, hconn⟩
    by_contra hv'
    refine hlong v hv (by omega) ?_
    have hwide := hquery hq
    rw [mem_def] at hv
    simpa [hv] using hwide
  | false =>
    simp only [hq, Bool.false_eq_true, if_false, not_or, not_exists, not_and, not_le] at hslip
    obtain ⟨hs, ht, hlong⟩ := hslip
    obtain ⟨hvs, hvt⟩ := hident hq
    -- a valid identifier has at most 128 characters, one too many for the buffer
    have hshort : ∀ {o : Option (List Nat)}, Valid (o.getD []) → ∀ v ∈ o, v.length ≤ 128 := by
      intro o ho v hv
      rw [mem_def] at hv
      exact Valid.length (by simpa [hv] using ho)
    refine ⟨fun v hv => ?_, fun v hv => ?_, hlong, hconn⟩
    · exact lt_of_le_of_ne (hshort hvs v hv) (hs v hv)
    · exact lt_of_le_of_ne (hshort hvt v hv) (ht v hv)

/-! ## The whole call -/

/-- The writes are inside the buffers, and a value that does not fit is refused. -/
def Bounded (env : Option Env) (argv : List (List Nat)) : Prop :=
  (∀ w ∈ (connectArguments env argv).1, w.Inside) ∧
    ∀ a, Parsed argv a → ¬ a.unquoted.Fits → ∃ m, (connectArguments env argv).2 = .error m

variable {argv : List (List Nat)}

/-- A call that comes to the copies. -/
theorem connectArguments_of_parsed (h : Parsed argv a) :
    connectArguments (some env) argv = ((parseArgs argv {}).1 ++ a.copies, a.unquoted.check env) := by
  obtain ⟨hargs, hcomplete⟩ := h
  rcases hp : parseArgs argv {} with ⟨ws, r⟩
  rw [hp] at hargs
  subst hargs
  simp [connectArguments, hp, hcomplete]

/-- A call that does not. -/
theorem connectArguments_of_not_parsed {env : Option Env} (h : ∀ a, ¬ Parsed argv a) :
    ∀ w ∈ (connectArguments env argv).1, w.Inside := by
  have hloop := parseArgs_inside argv {}
  fun_cases connectArguments env argv
  case case1 => simp
  case case2 hp => simpa [hp] using hloop
  case case3 hp _ _ => simpa [hp] using hloop
  case case4 a hp hcomplete => exact absurd ⟨by rw [hp], hcomplete⟩ (h a)

/-- **When argument handling is bounded**: exactly if the quoted values fit, and values that no check is about do not
    pass the others. -/
theorem arguments_bounded_iff (env : Option Env) (argv : List (List Nat)) : Bounded env argv ↔
      ∀ e ∈ env, ∀ a, Parsed argv a → a.QuotedFit ∧ (a.unquoted.Slips → ¬ a.unquoted.Passes e) := by
  cases env with
  | none => exact iff_of_true ⟨by simp [connectArguments], fun _ _ _ => ⟨_, rfl⟩⟩ (by simp)
  | some env =>
    simp only [mem_def, Option.some.injEq, forall_eq']
    constructor
    · rintro ⟨hin, hfit⟩ a ha
      have hout : connectArguments (some env) argv = _ := connectArguments_of_parsed ha
      rw [hout] at hin
      refine ⟨copies_inside.mp fun w hw => hin w (mem_append_right _ hw), fun hslip hpass => ?_⟩
      obtain ⟨m, hm⟩ := hfit a ha hslip.not_fits
      obtain ⟨src, hsrc⟩ := check_ok_iff.mpr hpass
      rw [hout, hsrc] at hm
      cases hm
    · intro h
      by_cases hparsed : ∃ a, Parsed argv a
      · obtain ⟨a, ha⟩ := hparsed
        constructor
        · rw [connectArguments_of_parsed ha]
          intro w hw
          rcases mem_append.mp hw with hw | hw
          · exact parseArgs_inside argv {} w hw
          · exact copies_inside.mpr (h a ha).1 w hw
        · intro b hb hfits
          rw [connectArguments_of_parsed hb]
          cases hcheck : b.unquoted.check env with
          | error m => exact ⟨m, rfl⟩
          | ok src =>
            have hpass := check_ok_iff.mp ⟨src, hcheck⟩
            exact absurd (hpass.fits fun hslip => (h b hb).2 hslip hpass) hfits
      · have hnone : ∀ a, ¬ Parsed argv a := fun a ha => hparsed ⟨a, ha⟩
        exact ⟨connectArguments_of_not_parsed hnone, fun a ha => absurd ha (hnone a)⟩

/-- A schema of 128 characters, in quotes and without. -/
def longSchema (quotes : Bool) : List (List Nat) :=
  let name := List.replicate 128 97
  [wide "schema=" ++ (if quotes then [39] ++ name ++ [39] else name), wide "table=t"]

def longArgs (quotes : Bool) : Args :=
  { schema := some (if quotes then [39] ++ List.replicate 128 97 ++ [39] else List.replicate 128 97)
    table := some [116] }

def plainEnv : Env := { profile := { server := wide "h", auth := .windows } }

/-- **In quotes it is written past the end of its buffer; without, it is taken though it does not fit.** -/
theorem arguments_not_bounded : (∃ w ∈ (connectArguments (some plainEnv) (longSchema true)).1, ¬ w.Inside) ∧
      ¬ Bounded (some plainEnv) (longSchema true) ∧ ¬ Bounded (some plainEnv) (longSchema false) := by
  have hover : ∃ w ∈ (connectArguments (some plainEnv) (longSchema true)).1, ¬ w.Inside := by
    refine ⟨⟨.schema, 129⟩, ?_, by simp [Write.Inside, Buf.size]⟩
    decide +kernel
  have hbare : Parsed (longSchema false) (longArgs false) := ⟨by rfl, by rfl⟩
  have htaken : (connectArguments (some plainEnv) (longSchema false)).2.isOk = true := by decide +kernel
  refine ⟨hover, fun h => ?_, fun h => ?_⟩
  · obtain ⟨w, hw, hout⟩ := hover
    exact hout (h.1 w hw)
  · obtain ⟨m, hm⟩ := h.2 _ hbare (Args.Slips.not_fits (.inl ⟨_, rfl, rfl⟩))
    rw [hm] at htaken
    exact Bool.false_ne_true htaken

end VirtualMssql.Arguments
