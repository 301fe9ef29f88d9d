/-
  THE GRAMMAR OF PROFILES — which texts are profiles, and what they say, against `vms_profile_parse`.

  1. The grammar.  A profile is a row of settings with `;` between them, empty ones left out.  A setting is a key and a
     value with the first `=` between them.  `Field.readStrict` says which values a key may have.  A field has the value
     that was given last, or its default (`lastGiven`); a profile needs a server, and under SQL authentication a
     credential.

  2. The parser.  It reads the same settings, by `Field.read`, one after the other (`parse_iff`).  It is more
  generous in one place, since `atoi` takes any text for a timeout, and stricter in another, since `split_kv`
  copies the key into 32 bytes and the value into 256 before it looks at either.

  3. `profile_grammar_iff` puts the two together: where the parser accepts, the grammar agrees exactly if every timeout
     is a plain number that fits; where the grammar accepts, the parser does exactly if every key and every value fits
     its buffer.
-/
import VirtualMssql.Connstr
import Mathlib.Data.List.Induction

namespace VirtualMssql.ProfileGrammar

open Connstr Outcome List Option
open TSql (wide asciiDigit asciiSpace)

/-! ## The grammar -/

inductive Field
  | server
  | database
  | auth
  | cred
  | tls
  | loginTimeout
  | queryTimeout
  | app
  deriving DecidableEq

/-- A field with a value. -/
inductive Setting
  | server (w : List Nat)
  | database (w : List Nat)
  | auth (a : VmsAuthMode)
  | cred (w : List Nat)
  | tls (t : VmsTlsMode)
  | loginTimeout (n : Int)
  | queryTimeout (n : Int)
  | app (w : List Nat)
  deriving DecidableEq

/-- The keys, in any case. -/
def fieldOf (key : List Nat) : Option Field :=
  if stricmp key (wide "server") || stricmp key (wide "host") then some .server
  else if stricmp key (wide "db") || stricmp key (wide "database") then some .database
  else if stricmp key (wide "auth") then some .auth
  else if stricmp key (wide "cred") then some .cred
  else if stricmp key (wide "tls") then some .tls
  else if stricmp key (wide "login_timeout") then some .loginTimeout
  else if stricmp key (wide "query_timeout") then some .queryTimeout
  else if stricmp key (wide "app") then some .app
  else none

/-- A decimal number that fits an `int`. -/
def PlainNumber (val : List Nat) : Prop :=
  val ≠ [] ∧ (∀ c ∈ val, asciiDigit c = true) ∧ digitsValue val ≤ 2147483647

instance (val : List Nat) : Decidable (PlainNumber val) := inferInstanceAs (Decidable (_ ∧ _ ∧ _))

def plainNumber (val : List Nat) : Option Int := if PlainNumber val then some (digitsValue val) else none

def Field.isTimeout : Field → Bool
  | .loginTimeout => true
  | .queryTimeout => true
  | _ => false

/-- The values of a field. -/
def Field.readStrict (f : Field) (val : List Nat) : Option Setting :=
  match f with
  | .server => (copyWide val 256).map .server
  | .database => (copyWide val 128).map .database
  | .auth => (parseAuth val).toOption.map .auth
  | .cred => (copyWide val 256).map .cred
  | .tls => (parseTls val).toOption.map .tls
  | .loginTimeout => (plainNumber val).map .loginTimeout
  | .queryTimeout => (plainNumber val).map .queryTimeout
  | .app => (copyWide val 64).map .app

variable (tok : List Nat)

/-- The key and the value of a token. -/
def keyValue : Option (List Nat × List Nat) :=
  if 61 ∈ tok then some (tok.takeWhile (· != 61), tok.drop ((tok.takeWhile (· != 61)).length + 1)) else none

/-- What a token sets, by some reading of the values. -/
def settingBy (read : Field → List Nat → Option Setting) (kv : List Nat × List Nat) : Option Setting :=
  (fieldOf (kv.1.dropWhile (· == 32))).bind (read · kv.2)

/-- The tokens that are not empty. -/
def tokens (spec : List Nat) : List (List Nat) := (spec.splitOn 59).filter (· ≠ [])

/-- The value that was given last. -/
def lastGiven {α : Type} (pick : Setting → Option α) (default : α) (settings : List Setting) : α :=
  (settings.filterMap pick).getLast?.getD default

def Setting.server? : Setting → Option (List Nat)
  | .server w => some w
  | _ => none

def Setting.database? : Setting → Option (List Nat)
  | .database w => some w
  | _ => none

def Setting.auth? : Setting → Option VmsAuthMode
  | .auth a => some a
  | _ => none

def Setting.cred? : Setting → Option (List Nat)
  | .cred w => some w
  | _ => none

def Setting.tls? : Setting → Option VmsTlsMode
  | .tls t => some t
  | _ => none

def Setting.loginTimeout? : Setting → Option Int
  | .loginTimeout n => some n
  | _ => none

def Setting.queryTimeout? : Setting → Option Int
  | .queryTimeout n => some n
  | _ => none

def Setting.app? : Setting → Option (List Nat)
  | .app w => some w
  | _ => none

/-- The profile of some settings. -/
def profileOf (settings : List Setting) : VmsProfile where
  server := lastGiven Setting.server? [] settings
  database := lastGiven Setting.database? [] settings
  auth := lastGiven Setting.auth? .sql settings
  cred := lastGiven Setting.cred? [] settings
  tls := lastGiven Setting.tls? .verify settings
  loginTimeoutSec := lastGiven Setting.loginTimeout? 10 settings
  queryTimeoutSec := lastGiven Setting.queryTimeout? 0 settings
  appName := lastGiven Setting.app? (wide "VirtualMSSQL") settings

/-- A server, and a credential where one is needed. -/
def Complete (p : VmsProfile) : Prop := p.server ≠ [] ∧ (p.auth = .sql → p.cred ≠ [])

instance (p : VmsProfile) : Decidable (Complete p) := inferInstanceAs (Decidable (_ ∧ _))

/-- **The grammar**: the profile that a text is. -/
def grammar (spec : List Nat) : Option VmsProfile :=
  ((tokens spec).mapM fun tok => (keyValue tok).bind (settingBy Field.readStrict)).bind fun settings =>
    if Complete (profileOf settings) then some (profileOf settings) else none

/-- The key and the value fit their buffers. -/
def ShortToken : Prop := ∀ kv ∈ keyValue tok, kv.1.length < 32 ∧ kv.2.length < 256

/-- A timeout is a plain number. -/
def PlainToken : Prop :=
  ∀ kv ∈ keyValue tok, ∀ f ∈ fieldOf (kv.1.dropWhile (· == 32)), f.isTimeout = true → PlainNumber kv.2

/-! ## Tokens -/

/-- `strtok_s` cuts at the delimiters and leaves the empty tokens out. -/
theorem strtokFrom_eq (delim : Nat) : ∀ s tok : List Nat,
    strtokFrom delim tok s = ((s.splitOn delim).modifyHead (tok ++ ·)).filter (· ≠ [])
  | [], tok => by
    rw [strtokFrom, splitOn, splitOnP_nil]
    cases tok <;> simp
  | c :: s, tok => by
    rw [strtokFrom, splitOn, splitOnP_cons_eq_if_modifyHead, ← splitOn]
    by_cases hc : c = delim
    · have hrest : strtokFrom delim [] s = (s.splitOn delim).filter (· ≠ []) := by
        rw [strtokFrom_eq delim s []]
        cases s.splitOn delim <;> simp
      rw [if_pos hc, if_pos (beq_iff_eq.mpr hc), hrest]
      cases tok <;> simp
    · rw [if_neg hc, if_neg (by simpa using hc), strtokFrom_eq delim s (tok ++ [c])]
      cases s.splitOn delim <;> simp

theorem strtok_tokens (spec : List Nat) : strtokFrom 59 [] spec = tokens spec := by
  rw [strtokFrom_eq, tokens]
  cases spec.splitOn 59 <;> simp

/-- Without an `=` the whole token is before it. -/
theorem drop_key_nil_iff : tok.drop (tok.takeWhile (· != 61)).length = [] ↔ 61 ∉ tok := by
  rw [drop_eq_nil_iff]
  constructor
  · intro hle hmem
    have hwhole : tok.takeWhile (· != 61) = tok := ( takeWhile_prefix _).eq_of_length_le hle
    rw [← hwhole] at hmem
    simpa using mem_takeWhile_imp hmem
  · intro hno
    have hwhole : tok.takeWhile (· != 61) = tok := by
      rw [takeWhile_eq_self_iff]
      intro c hc
      simpa using fun heq : c = 61 => hno (heq ▸ hc)
    rw [hwhole]

/-- **`split_kv`**: the key and the value, if they fit, the key without its leading spaces. -/
theorem splitKv_eq : splitKv tok = (keyValue tok).bind fun kv =>
      if kv.1.length = 0 ∨ 32 ≤ kv.1.length ∨ 256 ≤ kv.2.length then none
      else some (kv.1.dropWhile (· == 32), kv.2) := by
  rw [splitKv, keyValue]
  have htail : tok.drop ((tok.takeWhile (· != 61)).length + 1) = (tok.drop (tok.takeWhile (· != 61)).length).tail := by
    rw [tail_drop]
  rw [htail]
  cases hdrop : tok.drop (tok.takeWhile (· != 61)).length with
  | nil =>
    rw [if_neg ((drop_key_nil_iff tok).mp hdrop)]
    rfl
  | cons c val =>
    have hmem : 61 ∈ tok := by
      by_contra hno
      rw [(drop_key_nil_iff tok).mpr hno] at hdrop
      cases hdrop
    rw [if_pos hmem]
    rfl

/-! ## The parser -/

/-- How the parser reads a value: a timeout by `atoi`, no less than 0. -/
def Field.read (f : Field) (val : List Nat) : Option Setting :=
  match f with
  | .loginTimeout => some (.loginTimeout (max (atoi val) 0))
  | .queryTimeout => some (.queryTimeout (max (atoi val) 0))
  | f => f.readStrict val

/-- A setting takes effect. -/
def Setting.apply (st : VmsProfile × Bool) : Setting → VmsProfile × Bool
  | .server w => ({ st.1 with server := w }, true)
  | .database w => ({ st.1 with database := w }, st.2)
  | .auth a => ({ st.1 with auth := a }, st.2)
  | .cred w => ({ st.1 with cred := w }, st.2)
  | .tls t => ({ st.1 with tls := t }, st.2)
  | .loginTimeout n => ({ st.1 with loginTimeoutSec := n }, st.2)
  | .queryTimeout n => ({ st.1 with queryTimeoutSec := n }, st.2)
  | .app w => ({ st.1 with appName := w }, st.2)

/-- What the parser makes of a token. -/
def parsed : Option Setting := (splitKv tok).bind fun kv => (fieldOf kv.1).bind (Field.read · kv.2)

theorem copyOr_toOption (val : List Nat) (n : Nat) (message : String) :
    (copyOr val n message).toOption = copyWide val n := by
  rw [copyOr]
  cases copyWide val n <;> rfl

/-- A value that is read into a field. -/
theorem read_into_iff {α : Type} {x : Except (List Nat) α} {g : α → Setting} {st r : VmsProfile × Bool} :
    x.map (fun v => (g v).apply st) = .ok r ↔ ∃ s, x.toOption.map g = some s ∧ s.apply st = r := by
  cases x with
  | error e => simp [Except.map, Except.toOption]
  | ok v =>
    show Except.ok ((g v).apply st) = .ok r ↔ ∃ s, some (g v) = some s ∧ s.apply st = r
    simp

variable {tok} {val : List Nat} {s : Setting} {p : VmsProfile}

/-- **One setting.**  The branches of the parser are the fields. -/
theorem profileKey_iff {haveServer : Bool} {key : List Nat} {r : VmsProfile × Bool} :
    profileKey p haveServer key val = .ok r ↔
      ∃ s, (fieldOf key).bind (Field.read · val) = some s ∧ s.apply (p, haveServer) = r := by
  have htext (g : List Nat → Setting) (n : Nat) (message : String) :
      (copyOr val n message).map (fun w => (g w).apply (p, haveServer)) = .ok r ↔
        ∃ s, (copyWide val n).map g = some s ∧ s.apply (p, haveServer) = r := by
    rw [read_into_iff, copyOr_toOption]
  have hnumber (g : Int → Setting) :
      (Except.ok ((g (max (atoi val) 0)).apply (p, haveServer)) : Except (List Nat) _) = .ok r ↔
        ∃ s, some (g (max (atoi val) 0)) = some s ∧ s.apply (p, haveServer) = r := by
    simp
  -- the same key is asked for on both sides
  have hkey {c : Prop} [Decidable c] {x y : Except (List Nat) (VmsProfile × Bool)} {f g : Option Field}
      (hx : x = .ok r ↔ ∃ s, f.bind (Field.read · val) = some s ∧ s.apply (p, haveServer) = r)
      (hy : y = .ok r ↔ ∃ s, g.bind (Field.read · val) = some s ∧ s.apply (p, haveServer) = r) :
      (if c then x else y) = .ok r ↔
        ∃ s, (if c then f else g).bind (Field.read · val) = some s ∧ s.apply (p, haveServer) = r := by
    split_ifs
    · exact hx
    · exact hy
  rw [profileKey, fieldOf]
  refine hkey (htext .server 256 _) (hkey (htext .database 128 _) (hkey ?_ (hkey (htext .cred 256 _)
    (hkey ?_ (hkey (hnumber .loginTimeout) (hkey (hnumber .queryTimeout) (hkey (htext .app 64 _) ?_)))))))
  · exact @read_into_iff _ (parseAuth val) .auth (p, haveServer) r
  · exact @read_into_iff _ (parseTls val) .tls (p, haveServer) r
  · exact iff_of_false (by simp) (by simp)

theorem profileToken_iff {st r : VmsProfile × Bool} :
    profileToken st tok = .ok r ↔ ∃ s, parsed tok = some s ∧ s.apply st = r := by
  rw [profileToken, parsed]
  cases splitKv tok with
  | none => exact iff_of_false (by simp) (by simp)
  | some kv => exact profileKey_iff

/-- **The loop over the tokens** applies one setting after the other. -/
theorem foldlM_profileToken_iff : ∀ {toks : List (List Nat)} {st r : VmsProfile × Bool},
    toks.foldlM profileToken st = .ok r ↔ ∃ settings, toks.mapM parsed = some settings ∧
      settings.foldl Setting.apply st = r
  | [], st, r => by
    simp [pure, Except.pure]
  | tok :: toks, st, r => by
    rw [foldlM_cons, bind_ok]
    constructor
    · rintro ⟨st', htok, hrest⟩
      obtain ⟨s, hs, rfl⟩ := profileToken_iff.mp htok
      obtain ⟨settings, hsettings, rfl⟩ := foldlM_profileToken_iff.mp hrest
      exact ⟨s :: settings, mapM_cons_some.mpr ⟨s, settings, hs, hsettings, rfl⟩, rfl⟩
    · rintro ⟨_, hmap, rfl⟩
      obtain ⟨s, settings, hs, hsettings, rfl⟩ := mapM_cons_some.mp hmap
      exact ⟨s.apply st, profileToken_iff.mpr ⟨s, hs, rfl⟩, foldlM_profileToken_iff.mpr ⟨settings, hsettings, rfl⟩⟩

/-! ## The profile of the settings -/

theorem lastGiven_append {α : Type} (pick : Setting → Option α) (default : α) (settings : List Setting) (s : Setting) :
    lastGiven pick default (settings ++ [s]) = (pick s).getD (lastGiven pick default settings) := by
  rw [lastGiven, filterMap_append]
  cases hs : pick s with
  | none => simp [hs, lastGiven]
  | some v => simp [hs]

/-- A server was given, or there is none. -/
def ServerKnown (st : VmsProfile × Bool) : Prop := st.2 = false → st.1.server = []

/-- **The parser keeps what was given last.**  Induction on the settings, from their end. -/
theorem foldl_apply (settings : List Setting) : (settings.foldl Setting.apply ({}, false)).1 = profileOf settings ∧
      ServerKnown (settings.foldl Setting.apply ({}, false)) := by
  induction settings using reverseRecOn with
  | nil => exact ⟨rfl, fun _ => rfl⟩
  | append_singleton settings s ih =>
    rw [foldl_append, foldl_cons, foldl_nil]
    obtain ⟨hprofile, hknown⟩ := ih
    constructor
    · cases s <;> simp only [Setting.apply, profileOf, lastGiven_append, hprofile] <;> rfl
    · cases s with
      | server w => simp [ServerKnown, Setting.apply]
      | _ => exact hknown

/-- The checks behind the loop. -/
theorem complete_iff {st : VmsProfile × Bool} (h : ServerKnown st) :
    Complete st.1 ↔ (!st.2 || st.1.server.isEmpty) = false ∧ ¬ (st.1.auth = .sql ∧ st.1.cred.isEmpty = true) := by
  obtain ⟨p, haveServer⟩ := st
  have hserver : (!haveServer || p.server.isEmpty) = false ↔ p.server ≠ [] := by
    cases haveServer with
    | true => simp
    | false =>
      have hnone : p.server = [] := h rfl
      simp [hnone]
  rw [hserver, Complete, List.isEmpty_iff, not_and]

variable {spec : List Nat}

/-- **The parser**: it accepts a text exactly if every token is a setting to it and the profile is complete. -/
theorem parse_iff (h0 : 0 ∉ spec) : vmsProfileParse spec = .ok p ↔
      ∃ settings, (tokens spec).mapM parsed = some settings ∧ profileOf settings = p ∧ Complete p := by
  have hloop := @foldlM_profileToken_iff (tokens spec) ({}, false)
  rw [vmsProfileParse, cstr_eq_self_iff.mpr h0, strtok_tokens]
  cases hfold : (tokens spec).foldlM profileToken ({}, false) with
  | error e =>
    refine iff_of_false (by simp) ?_
    rintro ⟨settings, hsettings, -, -⟩
    rw [hloop.mpr ⟨settings, hsettings, rfl⟩] at hfold
    cases hfold
  | ok st =>
    obtain ⟨settings, hsettings, rfl⟩ := hloop.mp hfold
    obtain ⟨hprofile, hknown⟩ := foldl_apply settings
    have hcomplete := complete_iff hknown
    generalize settings.foldl Setting.apply ({}, false) = st at *
    obtain ⟨q, haveServer⟩ := st
    dsimp only at hprofile hcomplete ⊢
    have hright : (∃ settings, (tokens spec).mapM parsed = some settings ∧ profileOf settings = p ∧ Complete p) ↔
        q = p ∧ Complete q := by
      constructor
      · rintro ⟨settings', hsettings', hp, hc⟩
        obtain rfl : settings = settings' := some.inj (hsettings.symm.trans hsettings')
        rw [hprofile, hp]
        exact ⟨rfl, hc⟩
      · rintro ⟨rfl, hc⟩
        exact ⟨settings, hsettings, hprofile.symm, hc⟩
    rw [hright, hcomplete]
    by_cases hserver : (!haveServer || q.server.isEmpty) = true
    · rw [if_pos hserver, hserver]
      exact iff_of_false (by simp) fun h => absurd h.2.1 (by simp)
    rw [if_neg hserver]
    by_cases hcred : q.auth = .sql ∧ q.cred.isEmpty = true
    · rw [if_pos hcred]
      exact iff_of_false (by simp) fun h => h.2.2 hcred
    · rw [if_neg hcred, Except.ok.injEq]
      exact (and_iff_left ⟨by simpa using hserver, hcred⟩).symm

/-! ## The two readings -/

/-- `atoi` of a plain number. -/
theorem atoi_plain (h : PlainNumber val) : atoi val = digitsValue val := by
  obtain ⟨hne, hdigits, hfits⟩ := h
  obtain ⟨c, t, rfl⟩ := exists_cons_of_ne_nil hne
  have hc := hdigits c mem_cons_self
  have hspace : asciiSpace c = false := by
    simp only [asciiDigit, Bool.and_eq_true, decide_eq_true_eq] at hc
    simp only [asciiSpace, Bool.or_eq_false_iff, Bool.and_eq_false_iff, decide_eq_false_iff_not, beq_eq_false_iff_ne]
    omega
  have hdrop : (c :: t).dropWhile asciiSpace = c :: t := by
    rw [dropWhile_cons, hspace]
    rfl
  have htake : (c :: t).takeWhile asciiDigit = c :: t := takeWhile_eq_self_iff.mpr hdigits
  have hsign : c ≠ 45 ∧ c ≠ 43 := by
    simp only [asciiDigit, Bool.and_eq_true, decide_eq_true_eq] at hc
    omega
  rw [atoi, hdrop]
  split
  rename_i neg ds heq
  split at heq
  · rename_i hminus
    exact absurd (cons.inj hminus).1 hsign.1
  · rename_i hplus
    exact absurd (cons.inj hplus).1 hsign.2
  · cases heq
    rw [htake]
    simp only [Bool.false_eq_true, if_false]
    omega

/-- What the grammar takes the parser takes, with the same value; a timeout is a plain number then. -/
theorem read_of_readStrict {f : Field} (h : f.readStrict val = some s) :
    f.read val = some s ∧ (f.isTimeout = true → PlainNumber val) := by
  have hnumber (g : Int → Setting) (hg : (plainNumber val).map g = some s) :
      some (g (max (atoi val) 0)) = some s ∧ PlainNumber val := by
    obtain ⟨n, hn, rfl⟩ := map_eq_some_iff.mp hg
    unfold plainNumber at hn
    split_ifs at hn with hplain
    cases hn
    rw [atoi_plain hplain, Int.max_eq_left (Int.natCast_nonneg _)]
    exact ⟨rfl, hplain⟩
  cases f with
  | loginTimeout | queryTimeout => exact ⟨(hnumber _ h).1, fun _ => (hnumber _ h).2⟩
  | _ => exact ⟨h, fun htimeout => by cases htimeout⟩

theorem readStrict_of_read {f : Field} (h : f.read val = some s)
    (hplain : f.isTimeout = true → PlainNumber val) : f.readStrict val = some s := by
  have hnumber (g : Int → Setting) (hg : some (g (max (atoi val) 0)) = some s) (hn : PlainNumber val) :
      (plainNumber val).map g = some s := by
    rw [plainNumber, if_pos hn, map_some, ← hg, atoi_plain hn, Int.max_eq_left (Int.natCast_nonneg _)]
  cases f with
  | loginTimeout | queryTimeout => exact hnumber _ h (hplain rfl)
  | _ => exact h

/-- A token of the grammar. -/
def strict (tok : List Nat) : Option Setting := (keyValue tok).bind (settingBy Field.readStrict)

theorem strict_some : strict tok = some s ↔
    ∃ kv f, keyValue tok = some kv ∧ fieldOf (kv.1.dropWhile (· == 32)) = some f ∧ f.readStrict kv.2 = some s := by
  simp only [strict, settingBy, bind_eq_some_iff]
  constructor
  · rintro ⟨kv, hkv, f, hf, hread⟩
    exact ⟨kv, f, hkv, hf, hread⟩
  · rintro ⟨kv, f, hkv, hf, hread⟩
    exact ⟨kv, hkv, f, hf, hread⟩

theorem parsed_some : parsed tok = some s ↔ ∃ kv f, keyValue tok = some kv ∧ (kv.1.length < 32 ∧ kv.2.length < 256) ∧
      fieldOf (kv.1.dropWhile (· == 32)) = some f ∧ f.read kv.2 = some s := by
  rw [parsed, splitKv_eq]
  simp only [bind_eq_some_iff]
  constructor
  · rintro ⟨_, ⟨kv, hkv, hsplit⟩, f, hf, hread⟩
    split_ifs at hsplit with hbad
    cases hsplit
    exact ⟨kv, f, hkv, by omega, hf, hread⟩
  · rintro ⟨kv, f, hkv, hshort, hf, hread⟩
    refine ⟨_, ⟨kv, hkv, if_neg ?_⟩, f, hf, hread⟩
    -- an empty key is not the key of a field
    have hne : kv.1.length ≠ 0 := by
      intro hzero
      have hnone : fieldOf (([] : List Nat).dropWhile (· == 32)) = none := by decide
      rw [length_eq_zero_iff.mp hzero, hnone] at hf
      cases hf
    omega

/-- Where the parser takes a token, the grammar agrees exactly if a timeout is a plain number. -/
theorem strict_of_parsed (h : parsed tok = some s) : ShortToken tok ∧ (PlainToken tok → strict tok = some s) := by
  obtain ⟨kv, f, hkv, hshort, hf, hread⟩ := parsed_some.mp h
  constructor
  · intro kv' hkv'
    rw [some.inj (hkv'.symm.trans hkv)]
    exact hshort
  · intro hplain
    exact strict_some.mpr ⟨kv, f, hkv, hf, readStrict_of_read hread (hplain kv hkv f hf)⟩

/-- Where the grammar takes a token, the parser does exactly if it fits. -/
theorem parsed_of_strict (h : strict tok = some s) : PlainToken tok ∧ (ShortToken tok → parsed tok = some s) := by
  obtain ⟨kv, f, hkv, hf, hread⟩ := strict_some.mp h
  obtain ⟨hcode, htimeout⟩ := read_of_readStrict hread
  constructor
  · intro kv' hkv' f' hf'
    obtain rfl := some.inj (hkv'.symm.trans hkv)
    rw [some.inj (hf'.symm.trans hf)]
    exact htimeout
  · intro hshort
    exact parsed_some.mpr ⟨kv, f, hkv, hshort kv hkv, hf, hcode⟩

/-! ## All tokens -/

theorem grammar_iff :
    grammar spec = some p ↔ ∃ settings, (tokens spec).mapM strict = some settings ∧ profileOf settings = p ∧
      Complete p := by
  rw [grammar, bind_eq_some_iff]
  refine exists_congr fun settings => and_congr_right fun _ => ?_
  split_ifs with hcomplete
  · rw [Option.some.injEq]
    constructor
    · rintro rfl
      exact ⟨rfl, hcomplete⟩
    · exact And.left
  · refine iff_of_false (by simp) ?_
    rintro ⟨rfl, h⟩
    exact hcomplete h

/-- **The grammar of profiles.**  Where the parser accepts a text, it is a profile with these values exactly if every
    timeout in it is a plain number that fits.  Where a text is a profile, the parser accepts it with these values
    exactly if every key fits 31 bytes and every value 255. -/
theorem profile_grammar_iff (h0 : 0 ∉ spec) (p : VmsProfile) :
    (vmsProfileParse spec = .ok p → (grammar spec = some p ↔ ∀ tok ∈ tokens spec, PlainToken tok)) ∧
      (grammar spec = some p → (vmsProfileParse spec = .ok p ↔ ∀ tok ∈ tokens spec, ShortToken tok)) := by
  constructor
  · intro hparse
    obtain ⟨settings, hsettings, hp, hcomplete⟩ := (parse_iff h0).mp hparse
    constructor
    · intro hgrammar tok htok
      obtain ⟨settings', hstrict, -⟩ := grammar_iff.mp hgrammar
      obtain ⟨s, -, hs⟩ := mapM_each hstrict tok htok
      exact (parsed_of_strict hs.symm).1
    · intro hplain
      refine grammar_iff.mpr ⟨settings, ?_, hp, hcomplete⟩
      exact mapM_mono hsettings fun tok htok s hs => (strict_of_parsed hs).2 (hplain tok htok)
  · intro hgrammar
    obtain ⟨settings, hsettings, hp, hcomplete⟩ := grammar_iff.mp hgrammar
    rw [parse_iff h0]
    constructor
    · rintro ⟨settings', hparsed, -⟩ tok htok
      obtain ⟨s, -, hs⟩ := mapM_each hparsed tok htok
      exact (strict_of_parsed hs.symm).1
    · intro hshort
      refine ⟨settings, ?_, hp, hcomplete⟩
      exact mapM_mono hsettings fun tok htok s hs => (parsed_of_strict hs).2 (hshort tok htok)

def fullSpec : List Nat := wide ";; Server=h,1433;db=first;DB=second;cred=c;tls=optional;login_timeout=005;"

theorem profile_grammar_full :
    vmsProfileParse fullSpec =
        .ok { server := wide "h,1433", database := wide "second", cred := wide "c",
              tls := .optional, loginTimeoutSec := 5 } ∧
      (grammar fullSpec = some
          { server := wide "h,1433", database := wide "second", cred := wide "c",
            tls := .optional, loginTimeoutSec := 5 } ↔
        ∀ tok ∈ tokens fullSpec, PlainToken tok) := by
  have hparse : vmsProfileParse fullSpec =
      .ok { server := wide "h,1433", database := wide "second", cred := wide "c",
            tls := .optional, loginTimeoutSec := 5 } := by
    rfl
  exact ⟨hparse, (profile_grammar_iff (by decide +kernel) _).1 hparse⟩

/-- A timeout that is no number, one that is negative and one that does not fit are accepted; a key behind 26 spaces and
    a server of 128 letters with two bytes each are not. -/
theorem profile_not_grammar :
    (vmsProfileParse (wide "server=h;cred=c;login_timeout=abc") =
        .ok { server := wide "h", cred := wide "c", loginTimeoutSec := 0 } ∧
      grammar (wide "server=h;cred=c;login_timeout=abc") = none) ∧
    (vmsProfileParse (wide "server=h;cred=c;query_timeout=-5") = .ok { server := wide "h", cred := wide "c" } ∧
      grammar (wide "server=h;cred=c;query_timeout=-5") = none) ∧
    (vmsProfileParse (wide "server=h;cred=c;query_timeout=99999999999") =
        .ok { server := wide "h", cred := wide "c", queryTimeoutSec := 2147483647 } ∧
      grammar (wide "server=h;cred=c;query_timeout=99999999999") = none) ∧
    ((vmsProfileParse (wide "auth=windows;                          server=h")).isOk = false ∧
      grammar (wide "auth=windows;                          server=h") =
        some { server := wide "h", auth := .windows }) ∧
    ((vmsProfileParse (wide "auth=windows;server=" ++ (replicate 128 [195, 169]).flatten)).isOk = false ∧
      grammar (wide "auth=windows;server=" ++ (replicate 128 [195, 169]).flatten) =
        some { server := replicate 128 233, auth := .windows }) := by
  refine ⟨⟨by rfl, by decide +kernel⟩, ⟨by rfl, by decide +kernel⟩, ⟨by rfl, by decide +kernel⟩,
    ⟨by decide +kernel, by decide +kernel⟩, by decide +kernel, by decide +kernel⟩

end VirtualMssql.ProfileGrammar
