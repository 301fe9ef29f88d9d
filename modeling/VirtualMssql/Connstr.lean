/-
  CONNECTION STRINGS — from a profile text to the string handed to the ODBC driver.

  From `vms_connstr.c`: `vms_profile_parse` with `split_kv`, `eqi` and `copy_wide`, and
  `vms_connstr_build`.  The values come from two places: the profile text, whose parser splits at `;`
  and so never lets a `;` into a value, and the credential provider, whose secrets are taken as they
  are.  The builder concatenates both without escaping.

  The header promises that the caller's input never becomes raw `key=value` pairs.  What holds is
  `connstr_gives_iff`: the string gives exactly the intended pairs if and only if server, database and
  application name do not start with `{`, and, under SQL authentication, neither secret contains a `;`
  or a NUL or starts with `{`.
-/
import VirtualMssql.Meta
import VirtualMssql.Sqlite
import VirtualMssql.Lib.OdbcString
import VirtualMssql.Lib.Outcome

namespace VirtualMssql.Connstr

open TSql Utf Odbc Outcome List Option

/-- `VmsAuthMode`. -/
inductive VmsAuthMode
  | sql
  | windows
  deriving DecidableEq, Repr

/-- `VmsTlsMode`. -/
inductive VmsTlsMode
  | verify
  | trustServerCertificate
  | optional
  deriving DecidableEq, Repr

/-- `VmsProfile`; the defaults are those of `vms_profile_defaults`. -/
structure VmsProfile where
  server : List Nat := []
  database : List Nat := []
  auth : VmsAuthMode := .sql
  cred : List Nat := []
  tls : VmsTlsMode := .verify
  loginTimeoutSec : Int := 10
  queryTimeoutSec : Int := 0
  appName : List Nat := wide "VirtualMSSQL"
  mars : Bool := false
  deriving DecidableEq, Repr

/-! ## `vms_profile_parse` -/

/-- The tokens `strtok_s` cuts `s` into, `tok` being the one begun: maximal non-empty runs without the
    delimiter. -/
def strtokFrom (delim : Nat) : List Nat → List Nat → List (List Nat)
  | tok, [] => if tok.isEmpty then [] else [tok]
  | tok, c :: s =>
    if c = delim then
      if tok.isEmpty then strtokFrom delim [] s else tok :: strtokFrom delim [] s
    else strtokFrom delim (tok ++ [c]) s

/-- `split_kv`: cut at the first `=`, bound both sides, trim leading spaces off the key. -/
def splitKv (tok : List Nat) : Option (List Nat × List Nat) :=
  let key := tok.takeWhile fun c => c != 61
  match tok.drop key.length with
  | [] => none
  | _ :: val =>
    if key.length = 0 ∨ 32 ≤ key.length ∨ 256 ≤ val.length then none
    else some (key.dropWhile fun c => c == 32, val)

/-- `copy_wide`: a strict conversion that must fit with its terminator. -/
def copyWide (val : List Nat) (dstChars : Nat) : Option (List Nat) :=
  (utf8Strict val).bind fun w => if w.length + 1 ≤ dstChars then some w else none

theorem copyWide_some {t w : List Nat} {cap : Nat} (h : copyWide t cap = some w) : w = utf8ToWide t := by
  obtain ⟨u, hu, hout⟩ := bind_eq_some_iff.mp h
  split_ifs at hout
  unfold utf8Strict at hu
  split_ifs at hu
  rw [← some.inj hout, ← some.inj hu]

/-- `atoi`, saturating at the ends of `int`. -/
def atoi (t : List Nat) : Int :=
  let (neg, ds) := match t.dropWhile asciiSpace with
    | 45 :: ds => (true, ds)
    | 43 :: ds => (false, ds)
    | ds => (false, ds)
  let v := digitsValue (ds.takeWhile asciiDigit)
  if neg then max (-(v : Int)) (-2147483648) else min (v : Int) 2147483647

/-- A text value converted into its buffer, or the message. -/
def copyOr (val : List Nat) (dstChars : Nat) (message : String) :
    Except (List Nat) (List Nat) :=
  match copyWide val dstChars with
  | some w => .ok w
  | none => .error (wide message)

/-- `auth=sql|windows`. -/
def parseAuth (val : List Nat) : Except (List Nat) VmsAuthMode :=
  if stricmp val (wide "sql") then .ok .sql
  else if stricmp val (wide "windows") then .ok .windows
  else .error (wide "auth must be sql|windows, got '" ++ val ++ wide "'")

/-- `tls=verify|trust_server_certificate|trust|optional`. -/
def parseTls (val : List Nat) : Except (List Nat) VmsTlsMode :=
  if stricmp val (wide "verify") then .ok .verify
  else if stricmp val (wide "trust_server_certificate") || stricmp val (wide "trust") then
    .ok .trustServerCertificate
  else if stricmp val (wide "optional") then .ok .optional
  else .error (wide "tls must be verify|trust_server_certificate|optional, got '" ++ val ++ wide "'")

/-- The body of the loop for one `key=value`: the profile so far and `have_server`. -/
def profileKey (p : VmsProfile) (haveServer : Bool) (key val : List Nat) :
    Except (List Nat) (VmsProfile × Bool) :=
  if stricmp key (wide "server") || stricmp key (wide "host") then
    (copyOr val 256 "server too long/invalid").map fun w => ({ p with server := w }, true)
  else if stricmp key (wide "db") || stricmp key (wide "database") then
    (copyOr val 128 "db too long/invalid").map fun w => ({ p with database := w }, haveServer)
  else if stricmp key (wide "auth") then
    (parseAuth val).map fun a => ({ p with auth := a }, haveServer)
  else if stricmp key (wide "cred") then
    (copyOr val 256 "cred key too long").map fun w => ({ p with cred := w }, haveServer)
  else if stricmp key (wide "tls") then
    (parseTls val).map fun t => ({ p with tls := t }, haveServer)
  else if stricmp key (wide "login_timeout") then
    .ok ({ p with loginTimeoutSec := max (atoi val) 0 }, haveServer)
  else if stricmp key (wide "query_timeout") then
    .ok ({ p with queryTimeoutSec := max (atoi val) 0 }, haveServer)
  else if stricmp key (wide "app") then
    (copyOr val 64 "app name too long").map fun w => ({ p with appName := w }, haveServer)
  else .error (wide "unknown key '" ++ key ++ wide "' (strict grammar)")

/-- One token.  The message shows it up to the `=`, which `split_kv` has overwritten. -/
def profileToken (st : VmsProfile × Bool) (tok : List Nat) :
    Except (List Nat) (VmsProfile × Bool) :=
  match splitKv tok with
  | none =>
    .error (wide "invalid token '" ++ tok.takeWhile (fun c => c != 61) ++
      wide "' (expected key=value)")
  | some (key, val) => profileKey st.1 st.2 key val

/-- `vms_profile_parse` on a C string. -/
def vmsProfileParse (spec : List Nat) : Except (List Nat) VmsProfile :=
  match (strtokFrom 59 [] (cstr spec)).foldlM profileToken ({}, false) with
  | .error e => .error e
  | .ok (p, haveServer) =>
    if !haveServer || p.server.isEmpty then .error (wide "server is required")
    else if p.auth = .sql ∧ p.cred.isEmpty then
      .error (wide "auth=sql requires cred=<credential key>")
    else .ok p

/-! ## `vms_connstr_build` -/

variable (provider : List Nat → Option (List Nat)) (p : VmsProfile)

/-- The `UID=…;PWD=…;` or `Trusted_Connection` part.  `provider` is the active credential provider;
    a secret is copied up to its first NUL.  A key that does not fit its 256 units makes `wcscpy_s` end
    the process: no string is built and no message set. -/
def connstrAuth : Except (List Nat) (List Nat) :=
  match p.auth with
  | .windows => .ok (wide "Trusted_Connection=Yes;")
  | .sql =>
    if 256 ≤ p.cred.length + 4 then .error []
    else match provider (p.cred ++ wide ":uid"), provider (p.cred ++ wide ":pwd") with
      | some uid, some pwd =>
        .ok (wide "UID=" ++ cstr uid ++ wide ";PWD=" ++ cstr pwd ++ wide ";")
      | _, _ =>
        .error (wide "credential '" ++ p.cred ++ wide "' must expose :uid and :pwd entries")

def connstrTls : VmsTlsMode → List Nat
  | .verify => wide "Encrypt=Yes;TrustServerCertificate=No;"
  | .trustServerCertificate => wide "Encrypt=Yes;TrustServerCertificate=Yes;"
  | .optional => wide "Encrypt=Optional;TrustServerCertificate=No;"

/-- `vms_connstr_build`. -/
def vmsConnstrBuild : Except (List Nat) (List Nat) :=
  if p.server.isEmpty then .error (wide "connstr build: bad args")
  else
    (connstrAuth provider p).map fun auth =>
      wide "Driver={ODBC Driver 18 for SQL Server};Server=" ++ p.server ++ wide ";" ++
        (if p.database.isEmpty then [] else wide "Database=" ++ p.database ++ wide ";") ++
        auth ++ connstrTls p.tls ++
        wide "ConnectRetryCount=0;ConnectRetryInterval=1;MARS_Connection=" ++
        (if p.mars then wide "Yes" else wide "No") ++ wide ";" ++
        wide "APP=" ++ p.appName ++ wide ";" ++
        (if 0 < p.loginTimeoutSec then
          wide "LoginTimeout=" ++ decimal p.loginTimeoutSec.toNat ++ wide ";" else [])

/-! ## What the profile parser guarantees -/

theorem strtokFrom_no_delim {delim : Nat} : ∀ (s tok : List Nat), delim ∉ tok →
    ∀ t ∈ strtokFrom delim tok s, delim ∉ t
  | [], tok, htok, t, ht => by
    rw [strtokFrom] at ht
    split_ifs at ht
    · exact absurd ht not_mem_nil
    · rwa [mem_singleton.mp ht]
  | c :: s, tok, htok, t, ht => by
    rw [strtokFrom] at ht
    split_ifs at ht with hc hempty
    · exact strtokFrom_no_delim s [] not_mem_nil t ht
    · rcases mem_cons.mp ht with rfl | ht
      · exact htok
      · exact strtokFrom_no_delim s [] not_mem_nil t ht
    · refine strtokFrom_no_delim s (tok ++ [c]) ?_ t ht
      simp only [mem_append, mem_singleton, not_or]
      exact ⟨htok, fun h => hc h.symm⟩

variable {val : List Nat}

theorem splitKv_val_subset {tok key : List Nat} (h : splitKv tok = some (key, val)) : ∀ c ∈ val, c ∈ tok := by
  intro c hc
  simp only [splitKv] at h
  split at h
  · cases h
  · rename_i d val' hdrop
    split_ifs at h
    obtain ⟨_, rfl⟩ := Prod.mk.inj (some.inj h)
    exact mem_of_mem_drop (hdrop ▸ mem_cons_of_mem _ hc)

theorem copyOr_no_semicolon {w : List Nat} {n : Nat} {message : String} (hval : 59 ∉ val)
    (h : copyOr val n message = .ok w) : 59 ∉ w := by
  rw [copyOr] at h
  split at h
  · rename_i w' hw
    cases h
    obtain ⟨w'', hstrict, hfit⟩ := bind_eq_some_iff.mp hw
    split_ifs at hfit
    cases hfit
    exact fun hm => hval (mem_of_utf8Strict (by decide) hstrict hm)
  · cases h

/-- What the parser keeps: no `;` in a value the builder will write, and MARS left off. -/
structure ProfileKept (p : VmsProfile) : Prop where
  server : 59 ∉ p.server
  database : 59 ∉ p.database
  appName : 59 ∉ p.appName
  mars : p.mars = false

variable {p} {key : String} {v : List Nat}

theorem profileKey_keeps {p' : VmsProfile} {hs hs' : Bool} {key : List Nat} (hval : 59 ∉ val)
    (hp : ProfileKept p) (h : profileKey p hs key val = .ok (p', hs')) : ProfileKept p' := by
  revert h
  fun_cases profileKey p hs key val <;> intro h
  case case6 | case7 =>
    cases h
    exact { hp with }
  case case9 => cases h
  all_goals
    obtain ⟨w, hw, he⟩ := map_ok.mp h
    cases he
  case case1 => exact { hp with server := copyOr_no_semicolon hval hw }
  case case2 => exact { hp with database := copyOr_no_semicolon hval hw }
  case case8 => exact { hp with appName := copyOr_no_semicolon hval hw }
  all_goals exact { hp with }

/-- **An accepted profile** has no `;` in server, database or application name. -/
theorem vmsProfileParse_keeps {spec : List Nat} (h : vmsProfileParse spec = .ok p) : ProfileKept p := by
  rw [vmsProfileParse] at h
  split at h
  · cases h
  · rename_i q haveServer hfold
    split_ifs at h
    cases h
    have hinit : ProfileKept {} := ⟨by decide, by decide, by decide, rfl⟩
    refine foldlM_keeps (P := fun st => ProfileKept st.1) ?_ hinit hfold
    intro tok htok st st' hst hstep
    have h59 := strtokFrom_no_delim (cstr spec) [] not_mem_nil tok htok
    rw [profileToken] at hstep
    split at hstep
    · cases hstep
    · rename_i key val hkv
      exact profileKey_keeps (fun hm => h59 (splitKv_val_subset hkv _ hm)) hst hstep

/-! ## The pairs intended, and the string as fields -/

variable (p)

/-- The secret the provider holds for the profile. -/
def secret (suffix : String) : List Nat := (provider (p.cred ++ wide suffix)).getD []

/-- The values of `Encrypt` and `TrustServerCertificate` for a `tls` value. -/
def tlsValues : VmsTlsMode → String × String
  | .verify => ("Yes", "No")
  | .trustServerCertificate => ("Yes", "Yes")
  | .optional => ("Optional", "No")

/-- **The intended pairs** of a profile and its secrets. -/
def connIntended : List (List Nat × List Nat) :=
  [(wide "Driver", wide "ODBC Driver 18 for SQL Server"), (wide "Server", p.server)] ++
    (if p.database.isEmpty then [] else [(wide "Database", p.database)]) ++
    (match p.auth with
      | .windows => [(wide "Trusted_Connection", wide "Yes")]
      | .sql => [(wide "UID", secret provider p ":uid"), (wide "PWD", secret provider p ":pwd")]) ++
    [(wide "Encrypt", wide (tlsValues p.tls).1),
      (wide "TrustServerCertificate", wide (tlsValues p.tls).2),
      (wide "ConnectRetryCount", wide "0"), (wide "ConnectRetryInterval", wide "1"),
      (wide "MARS_Connection", wide "No"), (wide "APP", p.appName)] ++
    (if 0 < p.loginTimeoutSec then [(wide "LoginTimeout", decimal p.loginTimeoutSec.toNat)] else [])

/-- A value written as it is. -/
def asIs (key : String) (value : List Nat) : Field := ⟨wide key, value, value⟩

/-- A secret, written up to its first NUL. -/
def asSecret (key : String) (value : List Nat) : Field := ⟨wide key, cstr value, value⟩

/-- The string the builder writes, field by field. -/
def connFields : List Field :=
  [⟨wide "Driver", 123 :: (wide "ODBC Driver 18 for SQL Server" ++ [125]),
      wide "ODBC Driver 18 for SQL Server"⟩, asIs "Server" p.server] ++
    (if p.database.isEmpty then [] else [asIs "Database" p.database]) ++
    (match p.auth with
      | .windows => [asIs "Trusted_Connection" (wide "Yes")]
      | .sql => [asSecret "UID" (secret provider p ":uid"), asSecret "PWD" (secret provider p ":pwd")]) ++
    [asIs "Encrypt" (wide (tlsValues p.tls).1), asIs "TrustServerCertificate" (wide (tlsValues p.tls).2),
      asIs "ConnectRetryCount" (wide "0"), asIs "ConnectRetryInterval" (wide "1"),
      asIs "MARS_Connection" (wide "No"), asIs "APP" p.appName] ++
    (if 0 < p.loginTimeoutSec then [asIs "LoginTimeout" (decimal p.loginTimeoutSec.toNat)] else [])

theorem meant_connFields : meant (connFields provider p) = connIntended provider p := by
  simp only [connFields, connIntended, meant, map_append, apply_ite (List.map _)]
  cases p.auth <;> rfl

theorem render_append (a b : List Field) : render (a ++ b) = render a ++ render b := by
  simp [render]

variable {provider p}

/-- What the builder appends for the authentication. -/
theorem connstrAuth_ok {t : List Nat} (h : connstrAuth provider p = .ok t) : t = match p.auth with
      | .windows => wide "Trusted_Connection=Yes;"
      | .sql => wide "UID=" ++ cstr (secret provider p ":uid") ++ wide ";PWD=" ++
          cstr (secret provider p ":pwd") ++ wide ";" := by
  rw [connstrAuth] at h
  cases ha : p.auth with
  | windows => rw [ha] at h; exact (Except.ok.inj h).symm
  | sql =>
    rw [ha] at h
    simp only at h
    split_ifs at h
    split at h
    · rename_i uid pwd huid hpwd
      simp only [secret, huid, hpwd, getD_some]
      exact (Except.ok.inj h).symm
    · cases h

/-- The texts the builder appends, as fields.  Each equation spells the literals out. -/
theorem render_server (v : List Nat) : render [⟨wide "Driver", 123 :: (wide "ODBC Driver 18 for SQL Server" ++ [125]),
      wide "ODBC Driver 18 for SQL Server"⟩, asIs "Server" v] =
    wide "Driver={ODBC Driver 18 for SQL Server};Server=" ++ v ++ wide ";" := by
  simp [render, asIs, wide]

theorem render_database (v : List Nat) : render [asIs "Database" v] = wide "Database=" ++ v ++ wide ";" := by
  simp [render, asIs, wide]

theorem render_secrets (uid pwd : List Nat) : render [asSecret "UID" uid, asSecret "PWD" pwd] =
      wide "UID=" ++ cstr uid ++ wide ";PWD=" ++ cstr pwd ++ wide ";" := by
  simp [render, asSecret, wide]

theorem render_trusted : render [asIs "Trusted_Connection" (wide "Yes")] = wide "Trusted_Connection=Yes;" := by
  simp [render, asIs, wide]

theorem render_tls (tls : VmsTlsMode) : render [asIs "Encrypt" (wide (tlsValues tls).1),
      asIs "TrustServerCertificate" (wide (tlsValues tls).2)] = connstrTls tls := by
  cases tls <;> simp [render, asIs, wide, tlsValues, connstrTls]

theorem render_fixed (v : List Nat) :
    render [asIs "ConnectRetryCount" (wide "0"), asIs "ConnectRetryInterval" (wide "1"),
      asIs "MARS_Connection" (wide "No"), asIs "APP" v] =
    wide "ConnectRetryCount=0;ConnectRetryInterval=1;MARS_Connection=" ++ wide "No" ++ wide ";" ++
      wide "APP=" ++ v ++ wide ";" := by
  simp [render, asIs, wide]

theorem render_login (v : List Nat) : render [asIs "LoginTimeout" v] = wide "LoginTimeout=" ++ v ++ wide ";" := by
  simp [render, asIs, wide]

/-- **The string is its fields**, for a profile with MARS off. -/
theorem vmsConnstrBuild_ok {out : List Nat} (hmars : p.mars = false) (h : vmsConnstrBuild provider p = .ok out) :
    out = render (connFields provider p) := by
  rw [vmsConnstrBuild] at h
  split at h
  · cases h
  obtain ⟨auth, hauth, rfl⟩ := map_ok.mp h
  have hnil : render [] = [] := rfl
  have htail : ∀ (a b c d e f : Field), [a, b, c, d, e, f] = [a, b] ++ [c, d, e, f] := fun _ _ _ _ _ _ => rfl
  rw [connstrAuth_ok hauth, connFields, htail]
  simp only [render_append, apply_ite render, render_server, render_database, render_tls,
    render_fixed, render_login, hnil, hmars, Bool.false_eq_true, if_false]
  cases p.auth with
  | windows => simp [render_trusted]
  | sql => simp [render_secrets]

/-! ## Which fields read -/

theorem asIs_raw (hk : GoodKey (wide key)) : (asIs key v).Raw := ⟨hk, .inl rfl⟩

theorem asIs_reads_iff (hk : GoodKey (wide key)) (hv : 59 ∉ v) : (asIs key v).Reads ↔ v.head? ≠ some 123 := by
  rw [(asIs_raw hk).reads_iff, Field.Intact, asIs]
  exact ⟨fun h => h.2.1, fun h => ⟨hv, h, rfl⟩⟩

/-- A secret that survives: no `;`, no NUL, no `{` at the front. -/
def SecretIntact (v : List Nat) : Prop := 59 ∉ v ∧ 0 ∉ v ∧ v.head? ≠ some 123

theorem asSecret_raw (hk : GoodKey (wide key)) : (asSecret key v).Raw := by
  refine ⟨hk, ?_⟩
  obtain ⟨z, hv, rfl | ⟨rest, rfl⟩⟩ := cstr_append v
  · exact .inl (by rw [append_nil] at hv; exact hv)
  · exact .inr ⟨rest, hv⟩

theorem asSecret_reads_iff (hk : GoodKey (wide key)) : (asSecret key v).Reads ↔ SecretIntact v := by
  rw [(asSecret_raw hk).reads_iff, Field.Intact, SecretIntact, asSecret]
  constructor
  · rintro ⟨h59, hbrace, hcut⟩
    rw [← hcut] at h59 hbrace
    exact ⟨h59, cstr_eq_self_iff.mp hcut.symm, hbrace⟩
  · rintro ⟨h59, h0, hbrace⟩
    rw [cstr_eq_self_iff.mpr h0]
    exact ⟨h59, hbrace, rfl⟩

/-- Every key the builder may write, in order. -/
def connKeys : List (List Nat) :=
  [wide "Driver", wide "Server"] ++ [wide "Database"] ++ [wide "Trusted_Connection", wide "UID", wide "PWD"] ++
    [wide "Encrypt", wide "TrustServerCertificate", wide "ConnectRetryCount", wide "ConnectRetryInterval",
      wide "MARS_Connection", wide "APP"] ++ [wide "LoginTimeout"]

theorem connKeys_differ : connKeys.Pairwise fun a b => sameKey a b = false := by decide +kernel

variable (provider p)

theorem connFields_sublist : ((connFields provider p).map Field.key).Sublist connKeys := by
  simp only [connFields, map_append]
  refine ((((List.Sublist.refl _).append ?_).append ?_).append (List.Sublist.refl _)).append ?_
  · split_ifs
    · exact nil_sublist _
    · exact List.Sublist.refl _
  · cases p.auth with
    | windows => exact (nil_sublist _).cons_cons _
    | sql => exact (List.Sublist.refl _).cons _
  · split_ifs
    · exact List.Sublist.refl _
    · exact nil_sublist _

/-- No two fields have the same key. -/
theorem connFields_keys : (connFields provider p).Pairwise fun f g => sameKey f.key g.key = false :=
  pairwise_map.mp (connKeys_differ.sublist (connFields_sublist provider p))

/-- **The profile and its secrets survive the concatenation.** -/
structure ConnIntact : Prop where
  server : p.server.head? ≠ some 123
  database : p.database.head? ≠ some 123
  appName : p.appName.head? ≠ some 123
  secrets : p.auth = .sql →
    SecretIntact (secret provider p ":uid") ∧ SecretIntact (secret provider p ":pwd")

theorem driver_reads : Field.Reads ⟨wide "Driver", 123 :: (wide "ODBC Driver 18 for SQL Server" ++ [125]),
    wide "ODBC Driver 18 for SQL Server"⟩ :=
  braced_reads (by decide) (by decide +kernel)

theorem connFields_reads_or_misreads : ∀ f ∈ connFields provider p, f.Reads ∨ f.Misreads := by
  have hasIs : ∀ {key v}, GoodKey (wide key) → (asIs key v).Reads ∨ (asIs key v).Misreads :=
    fun hk => (asIs_raw hk).reads_or_misreads
  have hasSecret : ∀ {key v}, GoodKey (wide key) → (asSecret key v).Reads ∨ (asSecret key v).Misreads :=
    fun hk => (asSecret_raw hk).reads_or_misreads
  simp only [connFields, forall_mem_append, forall_mem_cons]
  refine ⟨⟨⟨⟨⟨.inl driver_reads, hasIs (by decide), by simp⟩, ?_⟩, ?_⟩, ?_⟩, ?_⟩
  · split_ifs
    · simp
    · exact forall_mem_singleton.mpr (hasIs (by decide))
  · cases p.auth with
    | windows => exact forall_mem_singleton.mpr (hasIs (by decide))
    | sql =>
      refine forall_mem_cons.mpr ⟨hasSecret (by decide), ?_⟩
      exact forall_mem_singleton.mpr (hasSecret (by decide))
  · exact ⟨hasIs (by decide), hasIs (by decide), hasIs (by decide), hasIs (by decide),
      hasIs (by decide), hasIs (by decide), by simp⟩
  · split_ifs
    · exact forall_mem_singleton.mpr (hasIs (by decide))
    · simp

theorem connFields_reads_iff (hp : ProfileKept p) :
    (∀ f ∈ connFields provider p, f.Reads) ↔ ConnIntact provider p := by
  have hfixed : ∀ {key v : String}, GoodKey (wide key) → 59 ∉ wide v →
      (wide v).head? ≠ some 123 → (asIs key (wide v)).Reads :=
    fun hk h59 hbrace => (asIs_reads_iff hk h59).mpr hbrace
  have hdatabase : (∀ f ∈ (if p.database.isEmpty then [] else [asIs "Database" p.database]),
      f.Reads) ↔ p.database.head? ≠ some 123 := by
    split_ifs with h
    · simp [isEmpty_iff.mp h]
    · rw [forall_mem_singleton, asIs_reads_iff (by decide) hp.database]
  have hlogin : ∀ f ∈ (if 0 < p.loginTimeoutSec then
      [asIs "LoginTimeout" (decimal p.loginTimeoutSec.toNat)] else []), f.Reads := by
    have hdigit : ∀ c ∈ decimal p.loginTimeoutSec.toNat, c ≠ 59 ∧ c ≠ 123 := by
      intro c hc
      have h := asciiDigit_of_mem_decimal hc
      simp only [asciiDigit, Bool.and_eq_true, decide_eq_true_eq] at h
      omega
    split_ifs
    · rw [forall_mem_singleton, asIs_reads_iff (by decide) fun h => (hdigit 59 h).1 rfl]
      exact fun h => (hdigit 123 (mem_of_mem_head? h)).2 rfl
    · simp
  have htls : (asIs "Encrypt" (wide (tlsValues p.tls).1)).Reads ∧
      (asIs "TrustServerCertificate" (wide (tlsValues p.tls).2)).Reads := by
    cases p.tls <;> exact ⟨hfixed (by decide) (by decide) (by decide), hfixed (by decide) (by decide) (by decide)⟩
  have hauth : (∀ f ∈ (match p.auth with
      | .windows => [asIs "Trusted_Connection" (wide "Yes")]
      | .sql => [asSecret "UID" (secret provider p ":uid"),
          asSecret "PWD" (secret provider p ":pwd")]), f.Reads) ↔
      (p.auth = .sql → SecretIntact (secret provider p ":uid") ∧ SecretIntact (secret provider p ":pwd")) := by
    cases p.auth with
    | windows =>
      refine ⟨fun _ h => absurd h (by decide), fun _ => forall_mem_singleton.mpr ?_⟩
      exact hfixed (by decide) (by decide) (by decide)
    | sql =>
      rw [forall_mem_cons, forall_mem_singleton, asSecret_reads_iff (by decide), asSecret_reads_iff (by decide)]
      exact ⟨fun h _ => h, fun h => h rfl⟩
  have hserver := @asIs_reads_iff "Server" _ (by decide) hp.server
  have happ := @asIs_reads_iff "APP" _ (by decide) hp.appName
  simp only [connFields, forall_mem_append, forall_mem_cons, hdatabase, hauth, hserver, happ]
  constructor
  · rintro ⟨⟨⟨⟨⟨-, hs, -⟩, hd⟩, ha⟩, -, -, -, -, -, hn, -⟩, -⟩
    exact ⟨hs, hd, hn, ha⟩
  · rintro ⟨hs, hd, hn, ha⟩
    refine ⟨⟨⟨⟨⟨driver_reads, hs, by simp⟩, hd⟩, ha⟩, htls.1, htls.2, ?_, ?_, ?_, hn, by simp⟩, hlogin⟩
    all_goals exact hfixed (by decide) (by decide) (by decide)

/-! ## The law -/

/-- **Exactly the intact profiles and secrets survive.**  For an accepted profile, the string built
    gives the intended pairs and no other key if and only if no value starts with `{` and the secrets
    contain neither `;` nor NUL. -/
theorem connstr_gives_iff (provider : List Nat → Option (List Nat)) (spec : List Nat)
    (p : VmsProfile) (out : List Nat) (hp : vmsProfileParse spec = .ok p)
    (hout : vmsConnstrBuild provider p = .ok out) : Gives out (connIntended provider p) ↔ ConnIntact provider p := by
  have hkept := vmsProfileParse_keeps hp
  rw [vmsConnstrBuild_ok hkept.mars hout, ← meant_connFields,
    gives_iff (connFields_keys provider p) (connFields_reads_or_misreads provider p),
    connFields_reads_iff provider p hkept]

/-- A provider with the secrets of one credential, `c`. -/
def oneCredential (uid pwd : String) (key : List Nat) : Option (List Nat) :=
  if key = wide "c:uid" then some (wide uid) else if key = wide "c:pwd" then some (wide pwd) else none

/-- The profile `server=h;cred=c`. -/
def credProfile : VmsProfile := { server := wide "h", cred := wide "c" }

theorem connstr_gives_plain : ∃ out, vmsProfileParse (wide "server=h;cred=c") = .ok credProfile ∧
      vmsConnstrBuild (oneCredential "sa" "x") credProfile = .ok out ∧
      (Gives out (connIntended (oneCredential "sa" "x") credProfile) ↔
        ConnIntact (oneCredential "sa" "x") credProfile) := by
  have hparse : vmsProfileParse (wide "server=h;cred=c") = .ok credProfile := by rfl
  have hbuild : ∃ out, vmsConnstrBuild (oneCredential "sa" "x") credProfile = .ok out := ⟨_, rfl⟩
  obtain ⟨out, hout⟩ := hbuild
  exact ⟨out, hparse, hout, connstr_gives_iff _ _ _ out hparse hout⟩

/-- The password `x;DSN=y` adds a key the builder's header calls impossible to inject. -/
theorem connstr_injects_dsn : ∃ out, vmsProfileParse (wide "server=h;cred=c") = .ok credProfile ∧
      vmsConnstrBuild (oneCredential "sa" "x;DSN=y") credProfile = .ok out ∧
      ¬ Gives out (connIntended (oneCredential "sa" "x;DSN=y") credProfile) := by
  have hparse : vmsProfileParse (wide "server=h;cred=c") = .ok credProfile := by rfl
  have hbuild : ∃ out, vmsConnstrBuild (oneCredential "sa" "x;DSN=y") credProfile = .ok out := ⟨_, rfl⟩
  have hdsn : ((vmsConnstrBuild (oneCredential "sa" "x;DSN=y") credProfile).toOption.bind
      fun out => (pairs out).bind fun ps => valueOf ps (wide "DSN")) = some (wide "y") := by
    decide +kernel
  have hnone : valueOf (connIntended (oneCredential "sa" "x;DSN=y") credProfile) (wide "DSN") = none := by
    decide +kernel
  obtain ⟨out, hout⟩ := hbuild
  refine ⟨out, hparse, hout, ?_⟩
  rintro ⟨ps, hps, hvalue⟩
  rw [hout, Except.toOption, bind_some, hps, bind_some, hvalue, hnone] at hdsn
  cases hdsn

/-! ## The copies of the credential keys -/

/-- The bounded copies of `vms_connstr_build`: the two keys printed into 280 units each, and copied into 256. -/
def keyCopies (p : VmsProfile) : List (List Nat × Nat) :=
  match p.auth with
  | .windows => []
  | .sql =>
    let uid := p.cred ++ wide ":uid"
    let pwd := p.cred ++ wide ":pwd"
    [(uid, 280), (pwd, 280), (uid, 256), (pwd, 256)]

/-- A build that ends well: each copy fits with its terminator, and there is a string or an error. -/
def Builds : Prop :=
  (∀ c ∈ keyCopies p, c.1.length < c.2) ∧
    ((∃ s, vmsConnstrBuild provider p = .ok s) ∨ ∃ e, e ≠ [] ∧ vmsConnstrBuild provider p = .error e)

/-- **The profiles that can be built**: all but those with SQL authentication and a key of 252 units or more, of
    which the parser takes up to 255. -/
theorem connstr_builds_iff (provider : List Nat → Option (List Nat)) (p : VmsProfile) :
    Builds provider p ↔ ¬ (p.auth = .sql ∧ 252 ≤ p.cred.length) := by
  have huid : (wide ":uid").length = 4 := by decide
  have hpwd : (wide ":pwd").length = 4 := by decide
  have hresult : ((∃ s, connstrAuth provider p = .ok s) ∨ ∃ e, e ≠ [] ∧ connstrAuth provider p = .error e) →
      (∃ s, vmsConnstrBuild provider p = .ok s) ∨ ∃ e, e ≠ [] ∧ vmsConnstrBuild provider p = .error e := by
    rw [vmsConnstrBuild]
    by_cases hserver : p.server.isEmpty = true
    · rw [if_pos hserver]
      exact fun _ => .inr ⟨_, by decide, rfl⟩
    · rw [if_neg hserver]
      rintro (⟨s, hs⟩ | ⟨e, he, hs⟩)
      · exact .inl ⟨_, by rw [hs]; rfl⟩
      · exact .inr ⟨e, he, by rw [hs]; rfl⟩
  cases hauth : p.auth with
  | windows =>
    exact iff_of_true ⟨by simp [keyCopies, hauth], hresult (.inl ⟨_, by rw [connstrAuth, hauth]⟩)⟩ (by simp)
  | sql =>
    by_cases hlong : 252 ≤ p.cred.length
    · refine iff_of_false (fun h => ?_) (by simp [hlong])
      have hfits := h.1 (p.cred ++ wide ":uid", 256) (by simp [keyCopies, hauth])
      rw [length_append, huid] at hfits
      omega
    · refine iff_of_true ⟨?_, hresult ?_⟩ (by simp [hlong])
      · simp only [keyCopies, hauth, forall_mem_cons, length_append, huid, hpwd]
        simp
        omega
      · rw [connstrAuth, hauth]
        simp only
        rw [if_neg (by omega)]
        split
        · exact .inl ⟨_, rfl⟩
        · exact .inr ⟨_, append_ne_nil_of_right_ne_nil _ (by decide), rfl⟩

/-- A key of 252 units is taken, and the build ends without a string and without an error. -/
theorem connstr_handler : let key := List.replicate 252 97
    vmsProfileParse (wide "server=h;cred=" ++ key) = .ok { server := wide "h", cred := key } ∧
      vmsConnstrBuild (fun _ => none) { server := wide "h", cred := key } = .error [] ∧
      ¬ Builds (fun _ => none) { server := wide "h", cred := key } := by
  refine ⟨by decide +kernel, by decide +kernel, fun h => ?_⟩
  have hfits := h.1 (List.replicate 252 97 ++ wide ":uid", 256) (by decide +kernel)
  exact absurd hfits (by decide +kernel)

end VirtualMssql.Connstr
