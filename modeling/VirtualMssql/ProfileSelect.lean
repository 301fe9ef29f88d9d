/-
  PROFILES — which profile a CREATE VIRTUAL TABLE without `conn=` connects with.

  Three things of the process remember a profile: `g_profile_spec`, the text of the last call of
  virtualmssql_profile; `g_profile_db`, a connection that loaded the extension and has no module yet; and `g_env`,
  the environment with the profile that every table uses.  A load makes the environment if there is a text, and
  waits for one otherwise; a call of virtualmssql_profile keeps its text, and makes the environment only for a
  connection that waits.

  The model has any number of connections, and any texts.  The functions of the load that are not about profiles
  succeed.  `profile_selected_iff` says along which histories a CREATE uses the profile it was told to use.
-/
import VirtualMssql.Connstr
import VirtualMssql.Lib.Run

namespace VirtualMssql.ProfileSelect

open Run Connstr TSql List

/-! ## The code -/

/-- `g_env`: there is none, one with this profile, or it is freed and still pointed to. -/
inductive Env
  | none
  | made (profile : VmsProfile)
  | freed
  deriving DecidableEq

/-- `g_profile_spec`, `g_profile_db` and `g_env`; the connections that have the module, and those that loaded the
    extension.  Beside them: the text of the last call that returned without an error, and whether one that
    returned an error has changed anything. -/
structure Process (D : Type) where
  spec : List Nat := []
  pending : Option D := none
  env : Env := .none
  registered : List D := []
  loaded : List D := []
  last : Option (List Nat) := none
  spoiled : Bool := false

/-- Can the environment be made, and the module be registered? -/
structure InitReply where
  created : Bool := true
  registered : Bool := true

variable {D : Type} (getenv : Option (List Nat))

/-- The profile that `vms_vtab_env_init` finds: that of the text, or else that of VMS_TEST_PROFILE. -/
def envProfile (spec : List Nat) : Option VmsProfile :=
  let spec := if spec ≠ [] then spec else getenv.getD []
  if spec = [] then none
  else
    match vmsProfileParse spec with
    | .ok p => some p
    | .error _ => none

/-- `vms_vtab_env_init`.  `vms_vtab_register` sets `g_env` before it registers the module; when that fails, the
    environment is destroyed. -/
def vmsVtabEnvInit (r : InitReply) (db : D) (s : Process D) : Bool × Process D :=
  match envProfile getenv s.spec with
  | none => (false, s)
  | some p =>
    if !r.created then (false, s)
    else if !r.registered then (false, { s with env := .freed })
    else (true, { s with env := .made p, registered := db :: s.registered })

/-- `sqlite3_virtualmssql_init_impl`. -/
def sqlite3VirtualmssqlInit (r : InitReply) (db : D) (s : Process D) : Process D :=
  let s := { s with loaded := db :: s.loaded }
  if s.spec ≠ [] ∨ getenv.isSome then
    match vmsVtabEnvInit getenv r db s with
    | (true, s) => s
    | (false, s) => { s with pending := some db }
  else { s with pending := some db }

/-- `strncpy_s` into `g_profile_spec`. -/
def storedSpec (text : List Nat) : List Nat := (cstr text).take 1023

/-- `profile_set_func`; the argument is a text or something else. -/
def profileSetFunc (arg : Option (List Nat)) (r : InitReply) (s : Process D) : Bool × Process D :=
  match arg with
  | none => (false, s)
  | some text =>
    let s := { s with spec := storedSpec text }
    match s.pending with
    | none => (true, s)
    | some db =>
      match vmsVtabEnvInit getenv r db s with
      | (false, s) => (false, s)
      | (true, s) => (true, { s with pending := none })

section Histories

variable [DecidableEq D]

/-- `vms_vtab_connect` without `conn=`: the profile it connects with, if it gets so far. -/
def vmsVtabConnect (s : Process D) (db : D) : Option VmsProfile :=
  if db ∈ s.registered then
    match s.env with
    | .made p => some p
    | _ => none
  else none

inductive Event (D : Type)
  | load (db : D) (r : InitReply)
  | profile (db : D) (arg : Option (List Nat)) (r : InitReply)

/-- A connection calls virtualmssql_profile when it has loaded the extension. -/
def step (s : Process D) : Event D → Process D
  | .load db r => sqlite3VirtualmssqlInit getenv r db s
  | .profile db arg r =>
    if db ∈ s.loaded then
      match profileSetFunc getenv arg r s with
      | (true, s') => { s' with last := arg }
      | (false, s') => { s' with spoiled := s.spoiled || s'.spec ≠ s.spec || s'.env ≠ s.env }
    else s

/-! ## What is asked -/

/-- On every connection that loaded the extension, a CREATE uses the profile of the last call that returned without
    an error. -/
def Selected (s : Process D) : Prop :=
  ∀ text, s.last = some text → ∀ db ∈ s.loaded, ∃ p, vmsProfileParse text = .ok p ∧ vmsVtabConnect s db = some p

/-- Is a step harmless?  A load must find the profile in use, and register the module unless the connection has it.
    A call must make the environment for the only connection without the module, from its whole text; or, when
    none waits, name the profile in use; or, when it fails, find its text already there. -/
def Harmless (s : Process D) : Event D → Prop
  | .load db r => ∀ text, s.last = some text → ∃ p, vmsProfileParse text = .ok p ∧
      match envProfile getenv s.spec with
      | some q => if r.created then r.registered = true ∧ q = p else db ∈ s.registered
      | none => db ∈ s.registered
  | .profile db arg r => db ∈ s.loaded → ∀ text, arg = some text →
      match s.pending with
      | none => ∃ p, vmsProfileParse text = .ok p ∧ ∀ db ∈ s.loaded, vmsVtabConnect s db = some p
      | some waiting =>
        match envProfile getenv (storedSpec text) with
        | some q =>
          if r.created then
            if r.registered then vmsProfileParse text = .ok q ∧ ∀ db ∈ s.loaded, db = waiting ∨ db ∈ s.registered
            else storedSpec text = s.spec ∧ s.env = .freed
          else storedSpec text = s.spec
        | none => storedSpec text = s.spec

/-- The connections that are waiting or have the module have loaded the extension. -/
structure Known (s : Process D) : Prop where
  registered : ∀ db ∈ s.registered, db ∈ s.loaded
  pending : ∀ db, s.pending = some db → db ∈ s.loaded

variable {s : Process D}

@[simp] theorem vmsVtabConnect_eq_some {db : D} {p : VmsProfile} :
    vmsVtabConnect s db = some p ↔ db ∈ s.registered ∧ s.env = .made p := by
  unfold vmsVtabConnect
  by_cases hdb : db ∈ s.registered
  · rw [if_pos hdb]
    cases s.env <;> simp [hdb]
  · simp [hdb]

omit [DecidableEq D] in
/-- **What `vms_vtab_env_init` can do**: nothing, leave a freed environment, or make one and register the module. -/
theorem vmsVtabEnvInit_cases (r : InitReply) (db : D) (s : Process D) :
    (vmsVtabEnvInit getenv r db s = (false, s) ∧ (envProfile getenv s.spec = none ∨ r.created = false)) ∨
    (∃ q, envProfile getenv s.spec = some q ∧ r.created = true ∧ r.registered = false ∧
      vmsVtabEnvInit getenv r db s = (false, { s with env := .freed })) ∨
    (∃ q, envProfile getenv s.spec = some q ∧ r.created = true ∧ r.registered = true ∧
      vmsVtabEnvInit getenv r db s = (true, { s with env := .made q, registered := db :: s.registered })) := by
  unfold vmsVtabEnvInit
  cases envProfile getenv s.spec with
  | none => exact .inl ⟨rfl, .inl rfl⟩
  | some q => cases r.created <;> cases r.registered <;> simp

/-- **What a load can do.**  Without a text nothing is made, so it may as well try. -/
theorem load_cases (r : InitReply) (db : D) (s : Process D) :
    (step getenv s (.load db r) = { s with loaded := db :: s.loaded, pending := some db } ∧
      (envProfile getenv s.spec = none ∨ r.created = false)) ∨
    (∃ q, envProfile getenv s.spec = some q ∧ r.created = true ∧ r.registered = false ∧
      step getenv s (.load db r) = { s with loaded := db :: s.loaded, pending := some db, env := .freed }) ∨
    (∃ q, envProfile getenv s.spec = some q ∧ r.created = true ∧ r.registered = true ∧ step getenv s (.load db r) =
        { s with loaded := db :: s.loaded, env := .made q, registered := db :: s.registered }) := by
  have htry : step getenv s (.load db r) =
      match vmsVtabEnvInit getenv r db { s with loaded := db :: s.loaded } with
      | (true, s) => s
      | (false, s) => { s with pending := some db } := by
    by_cases hspec : s.spec ≠ [] ∨ getenv.isSome = true
    · exact if_pos hspec
    · refine (if_neg hspec).trans ?_
      obtain ⟨hempty, hunset⟩ := not_or.mp hspec
      cases getenv with
      | none => simp [vmsVtabEnvInit, envProfile, not_not.mp hempty]
      | some text => exact absurd rfl hunset
  rw [htry]
  rcases vmsVtabEnvInit_cases getenv r db { s with loaded := db :: s.loaded } with
    ⟨heq, hwhy⟩ | ⟨q, hq, hcreated, hreg, heq⟩ | ⟨q, hq, hcreated, hreg, heq⟩
  · exact .inl ⟨by rw [heq], hwhy⟩
  · exact .inr (.inl ⟨q, hq, hcreated, hreg, by rw [heq]⟩)
  · exact .inr (.inr ⟨q, hq, hcreated, hreg, by rw [heq]⟩)

/-! ## Loads -/

theorem load_harmless_iff (hsel : Selected s) (hknown : Known s) (db : D) (r : InitReply) :
    Selected (step getenv s (.load db r)) ↔ Harmless getenv s (.load db r) := by
  rcases load_cases getenv r db s with ⟨heq, hwhy⟩ | ⟨q, hq, hcreated, hreg, heq⟩ | ⟨q, hq, hcreated, hreg, heq⟩
  · -- nothing was made: the connection must have the module already
    have hharmless : Harmless getenv s (.load db r) ↔
        ∀ text, s.last = some text → ∃ p, vmsProfileParse text = .ok p ∧ db ∈ s.registered := by
      rcases hwhy with hnone | hcreated
      · simp [Harmless, hnone]
      · cases hq : envProfile getenv s.spec <;> simp [Harmless, hq, hcreated]
    rw [heq, hharmless]
    simp only [Selected, vmsVtabConnect_eq_some]
    refine forall_congr' fun text => forall_congr' fun htext => ⟨fun h => ?_, fun ⟨_, _, hdb⟩ d hd => ?_⟩
    · obtain ⟨p, hp, hdb, _⟩ := h db mem_cons_self
      exact ⟨p, hp, hdb⟩
    · have hd' : d ∈ s.loaded := by
        rcases mem_cons.mp hd with rfl | hd
        · exact hknown.registered d hdb
        · exact hd
      simpa using hsel text htext d hd'
  · rw [heq]
    simp only [Selected, Harmless, vmsVtabConnect_eq_some, hq, hcreated, hreg]
    refine forall_congr' fun text => forall_congr' fun _ =>
      ⟨fun h => ?_, fun ⟨_, _, hfalse, _⟩ => absurd hfalse (by simp)⟩
    obtain ⟨_, _, _, hfreed⟩ := h db mem_cons_self
    cases hfreed
  · rw [heq]
    simp only [Selected, Harmless, vmsVtabConnect_eq_some, hq, hcreated, hreg]
    refine forall_congr' fun text => forall_congr' fun htext => ⟨fun h => ?_, fun ⟨p, hp, _, hqp⟩ d hd => ?_⟩
    · obtain ⟨p, hp, _, hmade⟩ := h db mem_cons_self
      exact ⟨p, hp, trivial, Env.made.inj hmade⟩
    · refine ⟨p, hp, ?_, by rw [hqp]⟩
      rcases mem_cons.mp hd with rfl | hd
      · exact mem_cons_self
      · obtain ⟨_, _, hconnect⟩ := hsel text htext d hd
        exact mem_cons_of_mem _ (vmsVtabConnect_eq_some.mp hconnect).1

/-! ## Calls -/

/-- **What a call can do**: fail for its argument, only keep its text, or try to make the environment. -/
theorem call_cases {db : D} (hdb : db ∈ s.loaded) (text : List Nat) (r : InitReply) :
    (s.pending = none ∧ step getenv s (.profile db (some text) r) =
      { s with spec := storedSpec text, last := some text }) ∨
    (∃ d, s.pending = some d ∧ (envProfile getenv (storedSpec text) = none ∨ r.created = false) ∧
      step getenv s (.profile db (some text) r) =
        { s with spec := storedSpec text, spoiled := s.spoiled || storedSpec text ≠ s.spec }) ∨
    (∃ d q, s.pending = some d ∧ envProfile getenv (storedSpec text) = some q ∧ r.created = true ∧
      r.registered = false ∧
      step getenv s (.profile db (some text) r) =
        { s with spec := storedSpec text, env := .freed,
                 spoiled := s.spoiled || storedSpec text ≠ s.spec || .freed ≠ s.env }) ∨
    (∃ d q, s.pending = some d ∧ envProfile getenv (storedSpec text) = some q ∧ r.created = true ∧ r.registered = true ∧
      step getenv s (.profile db (some text) r) =
        { s with spec := storedSpec text, pending := none, env := .made q,
                 registered := d :: s.registered, last := some text }) := by
  rw [step, if_pos hdb]
  obtain ⟨spec, pending, env, registered, loaded, last, spoiled⟩ := s
  cases pending with
  | none => exact .inl ⟨rfl, rfl⟩
  | some d =>
    have hset : profileSetFunc getenv (some text) r ⟨spec, some d, env, registered, loaded, last, spoiled⟩ =
        match vmsVtabEnvInit getenv r d ⟨storedSpec text, some d, env, registered, loaded, last, spoiled⟩ with
        | (false, s) => (false, s)
        | (true, s) => (true, { s with pending := none }) := rfl
    rw [hset]
    rcases vmsVtabEnvInit_cases getenv r d ⟨storedSpec text, some d, env, registered, loaded, last, spoiled⟩ with
      ⟨heq, hwhy⟩ | ⟨q, hq, hcreated, hreg, heq⟩ | ⟨q, hq, hcreated, hreg, heq⟩
    · refine .inr (.inl ⟨d, rfl, hwhy, ?_⟩)
      rw [heq]
      simp
    · refine .inr (.inr (.inl ⟨d, q, rfl, hq, hcreated, hreg, ?_⟩))
      rw [heq]
    · refine .inr (.inr (.inr ⟨d, q, rfl, hq, hcreated, hreg, ?_⟩))
      rw [heq]

theorem call_harmless_iff (hsel : Selected s) (hspoiled : s.spoiled = false) (db : D)
    (arg : Option (List Nat)) (r : InitReply) :
    (Selected (step getenv s (.profile db arg r)) ∧ (step getenv s (.profile db arg r)).spoiled = false) ↔
      Harmless getenv s (.profile db arg r) := by
  by_cases hdb : db ∈ s.loaded
  · cases arg with
    | none =>
      have hstep : step getenv s (.profile db none r) = { s with spoiled := false } := by
        simp [step, hdb, profileSetFunc, hspoiled]
      rw [hstep]
      exact iff_of_true ⟨hsel, rfl⟩ (fun _ text htext => absurd htext (by simp))
    | some text =>
      have hharmless : Harmless getenv s (.profile db (some text) r) ↔ _ :=
        ⟨fun h => h hdb text rfl, fun h _ text' htext => by rw [← Option.some.inj htext]; exact h⟩
      rw [hharmless]
      rcases call_cases getenv hdb text r with ⟨hpending, heq⟩ | ⟨d, hpending, hwhy, heq⟩ |
        ⟨d, q, hpending, hq, hcreated, hreg, heq⟩ | ⟨d, q, hpending, hq, hcreated, hreg, heq⟩
      · -- only the text is kept: the environment must be that of the text already
        rw [heq, hpending]
        constructor
        · rintro ⟨h, -⟩
          obtain ⟨p, hp, _⟩ := h text rfl db hdb
          refine ⟨p, hp, fun d hd => ?_⟩
          obtain ⟨p', hp', hd'⟩ := h text rfl d hd
          obtain rfl : p = p' := Except.ok.inj (hp.symm.trans hp')
          exact hd'
        · rintro ⟨p, hp, h⟩
          refine ⟨fun t ht d hd => ?_, hspoiled⟩
          cases ht
          exact ⟨p, hp, h d hd⟩
      · -- nothing was made, but the text is kept
        have hkept : (Selected (step getenv s (.profile db (some text) r)) ∧
            (step getenv s (.profile db (some text) r)).spoiled = false) ↔ storedSpec text = s.spec := by
          rw [heq]
          simp only [hspoiled, Bool.false_or, decide_eq_false_iff_not, not_not]
          exact and_iff_right hsel
        rw [hkept, hpending]
        rcases hwhy with hnone | hcreated
        · simp [hnone]
        · cases hq : envProfile getenv (storedSpec text) <;> simp [hcreated]
      · rw [heq, hpending, hq]
        simp only [hcreated, hreg, hspoiled, Bool.false_or, Bool.or_eq_false_iff, decide_eq_false_iff_not, not_not]
        constructor
        · rintro ⟨-, hspec, henv⟩
          exact ⟨hspec, henv.symm⟩
        · rintro ⟨hspec, henv⟩
          refine ⟨fun t ht d hd => ?_, hspec, henv.symm⟩
          obtain ⟨_, _, hconnect⟩ := hsel t ht d hd
          rw [vmsVtabConnect_eq_some, henv] at hconnect
          cases hconnect.2
      · rw [heq, hpending, hq]
        simp only [hcreated, hreg, Selected, vmsVtabConnect_eq_some]
        constructor
        · rintro ⟨h, -⟩
          refine ⟨?_, fun d' hd' => ?_⟩
          · obtain ⟨p, hp, _, hmade⟩ := h text rfl db hdb
            rwa [Env.made.inj hmade]
          · obtain ⟨_, _, hreg', _⟩ := h text rfl d' hd'
            exact mem_cons.mp hreg'
        · rintro ⟨hp, h⟩
          refine ⟨fun t ht d' hd' => ?_, hspoiled⟩
          cases ht
          exact ⟨q, hp, mem_cons.mpr (h d' hd'), rfl⟩
  · have hstep : step getenv s (.profile db arg r) = s := if_neg hdb
    rw [hstep]
    exact iff_of_true ⟨hsel, hspoiled⟩ fun hin => absurd hin hdb

/-! ## Histories -/

theorem Known.step {s : Process D} (h : Known s) (e : Event D) : Known (step getenv s e) := by
  cases e with
  | load db r =>
    have hgrow : ∀ d ∈ s.loaded, d ∈ db :: s.loaded := fun d => mem_cons_of_mem db
    have hnew : ∀ d, some db = some d → d ∈ db :: s.loaded := fun d hd => Option.some.inj hd ▸ mem_cons_self
    rcases load_cases getenv r db s with ⟨heq, _⟩ | ⟨q, _, _, _, heq⟩ | ⟨q, _, _, _, heq⟩ <;> rw [heq]
    · exact ⟨fun d hd => hgrow d (h.registered d hd), hnew⟩
    · exact ⟨fun d hd => hgrow d (h.registered d hd), hnew⟩
    · refine ⟨fun d hd => ?_, fun d hd => hgrow d (h.pending d hd)⟩
      rcases mem_cons.mp hd with rfl | hd
      · exact mem_cons_self
      · exact hgrow d (h.registered d hd)
  | profile db arg r =>
    by_cases hdb : db ∈ s.loaded
    · cases arg with
      | none =>
        have hstep : ProfileSelect.step getenv s (.profile db none r) = { s with spoiled := s.spoiled } := by
          simp [ProfileSelect.step, hdb, profileSetFunc]
        rwa [hstep]
      | some text =>
        rcases call_cases getenv hdb text r with ⟨_, heq⟩ | ⟨d, _, _, heq⟩ | ⟨d, q, _, _, _, _, heq⟩ |
          ⟨d, q, hpending, _, _, _, heq⟩ <;> rw [heq]
        · exact ⟨h.registered, h.pending⟩
        · exact ⟨h.registered, h.pending⟩
        · exact ⟨h.registered, h.pending⟩
        · refine ⟨fun d' hd' => ?_, fun d' hd' => absurd hd' (by simp)⟩
          rcases mem_cons.mp hd' with rfl | hd'
          · exact h.pending d' hpending
          · exact h.registered d' hd'
    · rwa [show ProfileSelect.step getenv s (.profile db arg r) = s from if_neg hdb]

/-- **Which profile a CREATE uses.**  All along a history every CREATE uses the profile of the last call that
    returned without an error, and no call that returned an error has changed anything, exactly if every load and
    every call of it was harmless. -/
theorem profile_selected_iff (is : List (Event D)) :
    (∀ before after, is = before ++ after →
      Selected (run (step getenv) {} before) ∧ (run (step getenv) {} before).spoiled = false) ↔
    Along (step getenv) (Harmless getenv) {} is := by
  have hknown : ∀ before, Known (run (step getenv) ({} : Process D) before) := fun before =>
    run_keeps (fun _ e h => h.step getenv e) before ⟨by simp, by simp⟩
  have hstep : ∀ (s : Process D) (e : Event D), (Selected s ∧ s.spoiled = false) ∧ Known s →
      ((Selected (step getenv s e) ∧ (step getenv s e).spoiled = false) ∧ Known (step getenv s e) ↔
        Harmless getenv s e) := by
    rintro s e ⟨⟨hsel, hspoiled⟩, hs⟩
    rw [and_iff_left (hs.step getenv e)]
    cases e with
    | load db r =>
      have hsame : (step getenv s (.load db r)).spoiled = s.spoiled := by
        rcases load_cases getenv r db s with ⟨heq, _⟩ | ⟨q, _, _, _, heq⟩ | ⟨q, _, _, _, heq⟩ <;> rw [heq]
      rw [hsame, and_iff_left hspoiled]
      exact load_harmless_iff getenv hsel hs db r
    | profile db arg r => exact call_harmless_iff getenv hsel hspoiled db arg r
  have hstart : (Selected ({} : Process D) ∧ ({} : Process D).spoiled = false) ∧ Known ({} : Process D) :=
    ⟨⟨fun _ h => absurd h (by simp), rfl⟩, hknown []⟩
  rw [← along_iff_keeps hstep is hstart]
  refine forall_congr' fun before => forall_congr' fun after => forall_congr' fun _ => ?_
  exact (and_iff_left (hknown before)).symm

end Histories

/-- `server=…;auth=windows`. -/
def windowsSpec (server : String) : List Nat := wide "server=" ++ wide server ++ wide ";auth=windows"

/-- One connection loads the extension and names the server `a`, and then `b`. -/
def renamed : List (Event Nat) :=
  [.load 0 {}, .profile 0 (some (windowsSpec "a")) {}, .profile 0 (some (windowsSpec "b")) {}]

/-- **A later call is ignored**: both return without an error, and a CREATE goes to `a`.  And one that fails is not: a
    call with a text that is no profile returns an error, and the next load finds the text. -/
theorem profile_ignored :
    (run (step none) {} renamed).last = some (windowsSpec "b") ∧ ¬ Selected (run (step none) {} renamed) ∧
    (run (step none) ({} : Process Nat) [.load 0 {}, .profile 0 (some (wide "server")) {}]).spoiled = true := by
  have hlast : (run (step none) {} renamed).last = some (windowsSpec "b") := by decide
  have hused : vmsVtabConnect (run (step none) {} renamed) 0 =
      some { server := wide "a", auth := .windows } := by decide
  have hasked : vmsProfileParse (windowsSpec "b") = .ok { server := wide "b", auth := .windows } := rfl
  refine ⟨hlast, fun h => ?_, by decide⟩
  obtain ⟨p, hp, hconnect⟩ := h (windowsSpec "b") hlast 0 (by decide)
  rw [hasked] at hp
  rw [hused, ← Except.ok.inj hp] at hconnect
  cases hconnect

end VirtualMssql.ProfileSelect
