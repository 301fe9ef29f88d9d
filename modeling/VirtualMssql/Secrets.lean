/-
  SECRETS — `vms_connstr_build` by several threads at once.

  `vms_cred_secret_begin` hands out its secret in one static buffer, and `vms_cred_secret_end` wipes it.  The pool
  builds connection strings outside of its lock, and there are several pools: so while a call waits to append the
  secret it has begun, another may fill the buffer or wipe it.

  A call is the list of its steps (`Act`): every begin, append and end is one, and a run takes a step of some call at
  a time.  The provider is a function here, which gives nothing for a secret that is missing or does not fit.

  A step of another call disturbs a call that waits unless it leaves the same text in the buffer.  Along a run without
  such steps every call that waits finds its secret, and conversely (`served_iff`); and then every call returns what it
  returns alone (`credentials_isolated`).
-/
import Mathlib.Logic.Function.Basic
import VirtualMssql.Connstr
import VirtualMssql.Lib.Run

namespace VirtualMssql.Secrets

open TSql Connstr Run List Option Function

/-! ## One call -/

/-- The entries of a credential. -/
inductive Entry
  | uid
  | pwd
  deriving DecidableEq

def Entry.suffix : Entry → String
  | .uid => ":uid"
  | .pwd => ":pwd"

/-- One step of `vms_connstr_build`. -/
inductive Act
  /-- `ok = ok && wacc_add(&a, s)`. -/
  | add (s : List Nat)
  /-- `vms_cred_secret_begin`. -/
  | begin_ (w : Entry)
  /-- `wacc_add` of the buffer: for the login name it is part of the condition, for the password of `ok`. -/
  | append (w : Entry)
  /-- `vms_cred_secret_end`. -/
  | end_
  deriving DecidableEq

/-- The texts in front of the authentication. -/
def front (p : VmsProfile) : List (List Nat) :=
  [wide "Driver={ODBC Driver 18 for SQL Server};Server=", p.server, wide ";"] ++
    if p.database.isEmpty then [] else [wide "Database=", p.database, wide ";"]

/-- The texts behind it. -/
def back (p : VmsProfile) : List (List Nat) :=
  [connstrTls p.tls, wide "ConnectRetryCount=0;ConnectRetryInterval=1;MARS_Connection=",
    if p.mars then wide "Yes" else wide "No", wide ";", wide "APP=", p.appName, wide ";"] ++
    if 0 < p.loginTimeoutSec then [wide "LoginTimeout=", decimal p.loginTimeoutSec.toNat, wide ";"] else []

def authActs : VmsAuthMode → List Act
  | .windows => [.add (wide "Trusted_Connection=Yes;")]
  | .sql =>
    -- both secrets are in the same buffer, so it is wiped twice
    [.add (wide "UID="), .begin_ .uid, .append .uid, .begin_ .pwd, .add (wide ";PWD="), .append .pwd, .add (wide ";"),
      .end_, .end_]

/-- The steps of `vms_connstr_build`, when nothing fails. -/
def buildActs (p : VmsProfile) : List Act := (front p).map .add ++ authActs p.auth ++ (back p).map .add

/-- A call: the steps that are left, the accumulator, `ok`, and the message of an error that was returned. -/
structure Build where
  acts : List Act
  text : List Nat := []
  ok : Bool := true
  failed : Option (List Nat) := none
  deriving DecidableEq

/-- The call, when it is made.  A key that does not fit ends the process. -/
def opening (p : VmsProfile) : Build :=
  if p.server.isEmpty then { acts := [], failed := some (wide "connstr build: bad args") }
  else if p.auth = .sql ∧ 256 ≤ p.cred.length + 4 then { acts := [], failed := some [] }
  else { acts := buildActs p }

/-- What the call returned. -/
def Build.result (b : Build) : Option (Except (List Nat) (List Nat)) :=
  if b.acts = [] then
    some (match b.failed with
      | some e => .error e
      | none => if b.ok then .ok b.text else .error (wide "OOM connstr build"))
  else none

/-- The buffer behind `secret_begin`: the secret and a NUL, the rest as it was. -/
def fill (secret buf : List Nat) : List Nat := secret ++ 0 :: buf.drop (secret.length + 1)

/-- The buffer behind `secret_end`. -/
def wiped : List Nat := replicate 512 0

/-- The message for a secret that is missing. -/
def missing (p : VmsProfile) : List Nat :=
  wide "credential '" ++ p.cred ++ wide "' must expose :uid and :pwd entries"

section Call

variable (provider : List Nat → Option (List Nat))

/-- **One step of a call**, with the buffer.  `granted` is whether there is memory for an append.  On an error behind
    the first begin the secret is still ended. -/
def Build.act (p : VmsProfile) (granted : Bool) (buf : List Nat) (b : Build) : List Nat × Build :=
  match b.acts with
  | [] => (buf, b)
  | .add s :: rest =>
    (buf, if b.ok && granted then { b with acts := rest, text := b.text ++ s }
      else { b with acts := rest, ok := false })
  | .begin_ w :: rest =>
    match provider (p.cred ++ wide w.suffix) with
    | some secret => (fill secret buf, { b with acts := rest })
    -- the provider writes nothing when it fails; `su` is set when this was the second begin
    | none => (buf, { b with acts := if w = .pwd then [.end_] else [], failed := some (missing p) })
  | .append .uid :: rest =>
    (buf, if granted then { b with acts := rest, text := b.text ++ cstr buf }
      else { b with acts := [.end_], failed := some (missing p) })
  | .append .pwd :: rest =>
    (buf, if b.ok && granted then { b with acts := rest, text := b.text ++ cstr buf }
      else { b with acts := rest, ok := false })
  | .end_ :: rest => (wiped, { b with acts := rest })

/-- The secret a call waits to append. -/
def awaits : List Act → Option Entry
  | .add _ :: rest => awaits rest
  | .append w :: _ => some w
  | _ => none

/-- What a step leaves in the buffer, if it writes it. -/
def leaves (p : VmsProfile) : Act → Option (List Nat)
  | .begin_ w => (provider (p.cred ++ wide w.suffix)).map cstr
  | .end_ => some []
  | _ => none

end Call

/-! ## Any number of calls -/

/-- The buffer and the calls. -/
structure Shared (T : Type) where
  buf : List Nat := wiped
  calls : T → Build

section Calls

variable {T : Type} [DecidableEq T] (provider : List Nat → Option (List Nat)) (profiles : T → VmsProfile)

/-- Every call is made. -/
def start : Shared T where
  calls t := opening (profiles t)

/-- A step of a call, with the memory for it. -/
def step (s : Shared T) (i : T × Bool) : Shared T where
  buf := ((s.calls i.1).act provider (profiles i.1) i.2 s.buf).1
  calls := update s.calls i.1 ((s.calls i.1).act provider (profiles i.1) i.2 s.buf).2

/-- **Every call that waits has its secret in the buffer.** -/
def Served (s : Shared T) : Prop :=
  ∀ t w, awaits (s.calls t).acts = some w → cstr s.buf = cstr (secret provider (profiles t) w.suffix)

/-- **The step disturbs no other call**: one that waits for a secret has that secret left in the buffer. -/
def Undisturbed (s : Shared T) (i : T × Bool) : Prop :=
  ∀ c ∈ (s.calls i.1).acts.head?.bind (leaves provider (profiles i.1)), ∀ t, t ≠ i.1 →
    ∀ w ∈ awaits (s.calls t).acts, c = cstr (secret provider (profiles t) w.suffix)

end Calls

/-! ## What a call returns alone -/

section Alone

variable {provider : List Nat → Option (List Nat)} {p : VmsProfile}

variable (provider p) in
/-- What the steps append, when every secret is the call's own. -/
def outcome : List Act → Except (List Nat) (List Nat)
  | [] => .ok []
  | .add s :: rest => (outcome rest).map (s ++ ·)
  | .begin_ w :: rest =>
    match provider (p.cred ++ wide w.suffix) with
    | some _ => outcome rest
    | none => .error (missing p)
  | .append w :: rest => (outcome rest).map (cstr (secret provider p w.suffix) ++ ·)
  | .end_ :: rest => outcome rest

theorem outcome_adds (texts : List (List Nat)) (rest : List Act) :
    outcome provider p (texts.map .add ++ rest) = (outcome provider p rest).map (texts.flatten ++ ·) := by
  induction texts with
  | nil => cases h : outcome provider p rest <;> simp [h, Except.map]
  | cons s texts ih =>
    rw [map_cons, cons_append, outcome, ih]
    cases outcome provider p rest <;> simp [Except.map]

/-- The steps of the authentication. -/
theorem outcome_auth (hfits : ¬ (p.auth = .sql ∧ 256 ≤ p.cred.length + 4)) (rest : List Act) :
    outcome provider p (authActs p.auth ++ rest) =
      (connstrAuth provider p).bind fun auth => (outcome provider p rest).map (auth ++ ·) := by
  rw [connstrAuth]
  cases hauth : p.auth with
  | windows => rfl
  | sql =>
    have hkey : ¬ 256 ≤ p.cred.length + 4 := fun h => hfits ⟨hauth, h⟩
    simp only [authActs, cons_append, nil_append, outcome, Entry.suffix, secret, if_neg hkey]
    cases huid : provider (p.cred ++ wide ":uid") with
    | none => rfl
    | some uid =>
      cases hpwd : provider (p.cred ++ wide ":pwd") with
      | none => rfl
      | some pwd => cases outcome provider p rest <;> simp [Except.map, Except.bind]

/-- The steps give what `vms_connstr_build` gives. -/
theorem outcome_buildActs (hserver : p.server.isEmpty = false) (hfits : ¬ (p.auth = .sql ∧ 256 ≤ p.cred.length + 4)) :
    outcome provider p (buildActs p) = vmsConnstrBuild provider p := by
  have hback : outcome provider p ((back p).map .add) = .ok (back p).flatten := by
    rw [← append_nil ((back p).map Act.add), outcome_adds, outcome, Except.map, append_nil]
  rw [buildActs, append_assoc, outcome_adds, outcome_auth hfits, hback, vmsConnstrBuild, hserver]
  cases connstrAuth provider p with
  | error e => simp [Except.map, Except.bind]
  | ok auth =>
    simp only [Except.map, Except.bind, front, back, Bool.false_eq_true, if_false]
    split_ifs <;> simp

end Alone

/-! ## A call among others -/

/-- A secret that was begun is the next to be appended, and none is awaited behind an append or an end. -/
def Paired : List Act → Prop
  | [] => True
  | .add _ :: rest => Paired rest
  | .begin_ w :: rest => awaits rest = some w ∧ Paired rest
  | .append _ :: rest => awaits rest = none ∧ Paired rest
  | .end_ :: rest => awaits rest = none ∧ Paired rest

theorem paired_adds (texts : List (List Nat)) (rest : List Act) : Paired (texts.map .add ++ rest) ↔ Paired rest := by
  induction texts with
  | nil => rfl
  | cons s texts ih => exact ih

theorem awaits_adds (texts : List (List Nat)) (rest : List Act) : awaits (texts.map .add ++ rest) = awaits rest := by
  induction texts with
  | nil => rfl
  | cons s texts ih => exact ih

theorem paired_buildActs (p : VmsProfile) : Paired (buildActs p) ∧ awaits (buildActs p) = none := by
  have hpaired : Paired ((back p).map .add ++ []) := (paired_adds _ _).mpr trivial
  have hawaits : awaits ((back p).map .add ++ []) = none := awaits_adds _ _
  rw [append_nil] at hpaired hawaits
  rw [buildActs, append_assoc, paired_adds, awaits_adds]
  cases p.auth with
  | windows => exact ⟨hpaired, hawaits⟩
  | sql => exact ⟨⟨rfl, rfl, rfl, rfl, rfl, hawaits, hpaired⟩, rfl⟩

theorem paired_opening (p : VmsProfile) : Paired (opening p).acts ∧ awaits (opening p).acts = none := by
  unfold opening
  split_ifs
  · exact ⟨trivial, rfl⟩
  · exact ⟨trivial, rfl⟩
  · exact paired_buildActs p

theorem cstr_fill (secret buf : List Nat) : cstr (fill secret buf) = cstr secret := by
  unfold fill
  generalize buf.drop (secret.length + 1) = z
  induction secret with
  | nil => rfl
  | cons c secret ih => by_cases hc : c = 0 <;> simp_all [cstr]

/-- The steps an act may take; an error may add an end. -/
def Act.cost : Act → Nat
  | .begin_ _ => 2
  | .append _ => 2
  | _ => 1

/-- The most steps that are left. -/
def left : List Act → Nat
  | [] => 0
  | a :: rest => a.cost + left rest

section Among

variable {provider : List Nat → Option (List Nat)} {p : VmsProfile} {granted : Bool} {buf : List Nat} {b : Build}

/-- The buffer behind a step. -/
theorem act_buf : cstr (b.act provider p granted buf).1 =
    ((b.acts.head?.bind (leaves provider p)).getD (cstr buf)) := by
  unfold Build.act
  split <;> rename_i hacts <;> rw [hacts]
  case h_3 w rest =>
    simp only [head?_cons, bind_some, leaves]
    cases provider (p.cred ++ wide w.suffix) with
    | none => rfl
    | some secret => exact cstr_fill secret buf
  all_goals rfl

/-- A step is done, or there is an error. -/
theorem act_acts {P : List Act → Prop} (htail : P b.acts.tail) (hnil : P []) (hend : 2 ≤ left b.acts → P [.end_]) :
    P (b.act provider p granted buf).2.acts := by
  obtain ⟨acts, text, ok, failed⟩ := b
  match acts with
  | [] | .end_ :: rest => exact htail
  | .add s :: rest | .append .pwd :: rest =>
    simp only [Build.act]
    split_ifs <;> exact htail
  | .begin_ w :: rest =>
    simp only [Build.act]
    cases provider (p.cred ++ wide w.suffix) with
    | some x => exact htail
    | none =>
      cases w with
      | uid => exact hnil
      | pwd => exact hend (by simp [left, Act.cost])
  | .append .uid :: rest =>
    simp only [Build.act]
    split_ifs
    · exact htail
    · exact hend (by simp [left, Act.cost])

theorem left_tail (acts : List Act) : left acts.tail ≤ left acts - 1 := by
  match acts with
  | [] => exact Nat.le_refl 0
  | a :: rest => cases a <;> simp [left, Act.cost]

theorem act_left : left (b.act provider p granted buf).2.acts ≤ left b.acts - 1 :=
  act_acts (P := fun acts => left acts ≤ left b.acts - 1) (left_tail b.acts) (Nat.zero_le _) fun h =>
    Nat.le_sub_of_add_le h

theorem paired_tail {acts : List Act} (h : Paired acts) : Paired acts.tail := by
  match acts with
  | [] => exact h
  | .add _ :: _ => exact h
  | .begin_ _ :: _ => exact h.2
  | .append _ :: _ => exact h.2
  | .end_ :: _ => exact h.2

theorem act_paired (h : Paired b.acts) : Paired (b.act provider p granted buf).2.acts :=
  act_acts (paired_tail h) trivial fun _ => ⟨rfl, trivial⟩

/-- The secret that a call waits for is there behind its own step. -/
theorem act_served (hpaired : Paired b.acts)
    (hserved : ∀ w, awaits b.acts = some w → cstr buf = cstr (secret provider p w.suffix)) (w : Entry)
    (hw : awaits (b.act provider p granted buf).2.acts = some w) :
    cstr (b.act provider p granted buf).1 = cstr (secret provider p w.suffix) := by
  obtain ⟨acts, text, ok, failed⟩ := b
  match acts with
  | [] => cases hw
  | .add s :: rest =>
    refine hserved w ?_
    simp only [Build.act] at hw
    split_ifs at hw <;> exact hw
  | .begin_ v :: rest =>
    simp only [Build.act] at hw ⊢
    cases hsecret : provider (p.cred ++ wide v.suffix) with
    | none =>
      rw [hsecret] at hw
      cases v <;> cases hw
    | some x =>
      rw [hsecret] at hw
      obtain rfl : v = w := some.inj (hpaired.1.symm.trans hw)
      simp only [secret, hsecret, getD_some]
      exact cstr_fill x buf
  | .append .uid :: rest =>
    simp only [Build.act] at hw
    split_ifs at hw
    · rw [hpaired.1] at hw
      cases hw
    · cases hw
  | .append .pwd :: rest =>
    simp only [Build.act] at hw
    split_ifs at hw <;> rw [hpaired.1] at hw <;> cases hw
  | .end_ :: rest =>
    simp only [Build.act, hpaired.1] at hw
    cases hw

variable (provider) in
/-- **What holds of a call**, with `G` for memory that does not run out: what it has appended and what is left to append
    make the string of the call alone, and an error is the error of the call alone. -/
structure Sound (G : Prop) (p : VmsProfile) (b : Build) : Prop where
  halted : b.failed.isSome = true → b.acts = [] ∨ b.acts = [.end_]
  rest : b.failed = none → b.ok = true →
    (outcome provider p b.acts).map (b.text ++ ·) = vmsConnstrBuild provider p
  errors : G → b.ok = true ∧ ∀ e, b.failed = some e → vmsConnstrBuild provider p = .error e

theorem sound_opening {G : Prop} : Sound provider G p (opening p) := by
  unfold opening
  by_cases hserver : p.server.isEmpty = true
  · rw [if_pos hserver]
    refine ⟨fun _ => .inl rfl, fun h => absurd h (by simp), fun _ => ⟨rfl, fun e he => ?_⟩⟩
    cases he
    rw [vmsConnstrBuild, if_pos hserver]
  rw [if_neg hserver]
  by_cases hfits : p.auth = .sql ∧ 256 ≤ p.cred.length + 4
  · rw [if_pos hfits]
    refine ⟨fun _ => .inl rfl, fun h => absurd h (by simp), fun _ => ⟨rfl, fun e he => ?_⟩⟩
    cases he
    simp only [vmsConnstrBuild, if_neg hserver, connstrAuth, hfits.1, if_pos hfits.2]
    rfl
  · rw [if_neg hfits]
    refine ⟨fun h => absurd h (by simp), fun _ _ => ?_, fun _ => ⟨rfl, fun e he => absurd he (by simp)⟩⟩
    rw [← outcome_buildActs (Bool.eq_false_iff.mpr hserver) hfits]
    cases outcome provider p (buildActs p) <;> rfl

section Steps

variable {G : Prop} {a : Act} {rest : List Act} {text : List Nat} {ok : Bool} {failed : Option (List Nat)}

/-- A step forward, with what it appends. -/
theorem Sound.forward (h : Sound provider G p ⟨a :: rest, text, ok, failed⟩) {t : List Nat}
    (hout : outcome provider p (a :: rest) = (outcome provider p rest).map (t ++ ·)) :
    Sound provider G p ⟨rest, text ++ t, ok, failed⟩ where
  halted hfailed := by
    rcases h.halted hfailed with hacts | hacts
    · cases hacts
    · exact .inl (cons.inj hacts).2
  rest hfailed hok := by
    rw [← h.rest hfailed hok, hout]
    cases outcome provider p rest <;> simp [Except.map]
  errors := h.errors

/-- A step forward that appends nothing. -/
theorem Sound.pass (h : Sound provider G p ⟨a :: rest, text, ok, failed⟩)
    (hout : outcome provider p (a :: rest) = outcome provider p rest) :
    Sound provider G p ⟨rest, text, ok, failed⟩ := by
  have hnil : outcome provider p (a :: rest) = (outcome provider p rest).map ([] ++ ·) := by
    rw [hout]
    cases outcome provider p rest <;> rfl
  simpa using h.forward hnil

/-- A step without memory. -/
theorem Sound.starved (h : Sound provider G p ⟨a :: rest, text, ok, failed⟩) (hG : ¬ G) :
    Sound provider G p ⟨rest, text, false, failed⟩ where
  halted hfailed := by
    rcases h.halted hfailed with hacts | hacts
    · cases hacts
    · exact .inl (cons.inj hacts).2
  rest _ hok := absurd hok (by simp)
  errors hg := absurd hg hG

/-- An error. -/
theorem Sound.stop {acts : List Act} (hacts : acts = [] ∨ acts = [.end_]) {e : List Nat}
    (herror : G → ok = true ∧ vmsConnstrBuild provider p = .error e) : Sound provider G p ⟨acts, text, ok, some e⟩ where
  halted _ := hacts
  rest hfailed := absurd hfailed (by simp)
  errors hg := ⟨(herror hg).1, fun e' he => by rw [← some.inj he]; exact (herror hg).2⟩

end Steps

/-- **A step keeps a call sound**, if the secret it waits for is in the buffer. -/
theorem Sound.act {G : Prop} (h : Sound provider G p b)
    (hserved : ∀ w, awaits b.acts = some w → cstr buf = cstr (secret provider p w.suffix))
    (hgranted : G → granted = true) :
    Sound provider G p (b.act provider p granted buf).2 := by
  obtain ⟨acts, text, ok, failed⟩ := b
  have hmemory : ¬ (ok && granted) = true → ¬ G := by
    intro hno hg
    have hok : ok = true := (h.errors hg).1
    exact hno (by rw [hok, hgranted hg]; rfl)
  match acts with
  | [] => exact h
  | .add s :: rest =>
    simp only [Build.act]
    split_ifs with hok
    · exact h.forward rfl
    · exact h.starved (hmemory hok)
  | .begin_ w :: rest =>
    simp only [Build.act]
    cases hsecret : provider (p.cred ++ wide w.suffix) with
    | some x => exact h.pass (by simp [outcome, hsecret])
    | none =>
      -- alone, the call ends with the same error
      refine Sound.stop (by cases w <;> simp) fun hg => ⟨(h.errors hg).1, ?_⟩
      have hfailed : failed = none := by
        by_contra hfailed
        rcases h.halted (isSome_iff_ne_none.mpr hfailed) with hacts | hacts <;> cases hacts
      rw [← h.rest hfailed (h.errors hg).1]
      simp only [outcome, hsecret]
      rfl
  | .append .uid :: rest =>
    simp only [Build.act]
    split_ifs with hok
    · exact h.forward (by rw [outcome, hserved .uid rfl])
    · -- no memory for the login name is reported as a missing secret
      exact Sound.stop (.inr rfl) fun hg => absurd (hgranted hg) hok
  | .append .pwd :: rest =>
    simp only [Build.act]
    split_ifs with hok
    · exact h.forward (by rw [outcome, hserved .pwd rfl])
    · exact h.starved (hmemory hok)
  | .end_ :: rest => exact h.pass rfl

end Among

/-! ## The calls together -/

section Together

variable {T : Type} [DecidableEq T] {provider : List Nat → Option (List Nat)} {profiles : T → VmsProfile}

theorem calls_self (s : Shared T) (i : T × Bool) : (step provider profiles s i).calls i.1 =
    ((s.calls i.1).act provider (profiles i.1) i.2 s.buf).2 := update_self ..

theorem calls_other (s : Shared T) {i : T × Bool} {t : T} (ht : t ≠ i.1) :
    (step provider profiles s i).calls t = s.calls t := update_of_ne ht ..

theorem buf_step (s : Shared T) (i : T × Bool) : cstr (step provider profiles s i).buf =
    ((s.calls i.1).acts.head?.bind (leaves provider (profiles i.1))).getD (cstr s.buf) := act_buf

/-- What a step of each call keeps, all calls keep. -/
theorem calls_step {P : T → Build → Prop} {s : Shared T} {i : T × Bool}
    (hact : P i.1 (s.calls i.1) → P i.1 ((s.calls i.1).act provider (profiles i.1) i.2 s.buf).2)
    (h : ∀ t, P t (s.calls t)) (t : T) : P t ((step provider profiles s i).calls t) := by
  by_cases ht : t = i.1
  · subst ht
    rw [calls_self]
    exact hact (h _)
  · rw [calls_other s ht]
    exact h t

theorem paired_run (sched : List (T × Bool)) :
    ∀ t, Paired ((run (step provider profiles) (start profiles) sched).calls t).acts := by
  have hstep : ∀ (s : Shared T) (i : T × Bool), (∀ t, Paired (s.calls t).acts) →
      ∀ t, Paired ((step provider profiles s i).calls t).acts :=
    fun s i h => calls_step (P := fun _ b => Paired b.acts) act_paired h
  exact run_keeps hstep sched fun t => (paired_opening (profiles t)).1

omit [DecidableEq T] in
theorem served_start : Served provider profiles (start profiles) := by
  intro t w hw
  rw [start, (paired_opening (profiles t)).2] at hw
  cases hw

variable (provider profiles) in
/-- Every call that waits has its secret in the buffer, and the steps that are left are paired. -/
structure Ready (s : Shared T) : Prop where
  paired : ∀ t, Paired (s.calls t).acts
  served : Served provider profiles s

omit [DecidableEq T] in
theorem ready_start : Ready provider profiles (start profiles) where
  paired t := (paired_opening (profiles t)).1
  served := served_start

/-- **A step keeps the secrets that are waited for** exactly if it disturbs no one. -/
theorem ready_step_iff {s : Shared T} (h : Ready provider profiles s) (i : T × Bool) :
    Ready provider profiles (step provider profiles s i) ↔ Undisturbed provider profiles s i := by
  constructor
  · intro hnext c hc t ht w hw
    -- the other call is where it was, so it still waits
    have hafter : awaits ((step provider profiles s i).calls t).acts = some w := by
      rw [calls_other s ht]
      exact hw
    rw [← hnext.served t w hafter, buf_step, hc, getD_some]
  · intro hfree
    refine ⟨calls_step (P := fun _ b => Paired b.acts) act_paired h.paired, fun t w hw => ?_⟩
    by_cases ht : t = i.1
    · -- its own step: it waits for what it has just begun
      subst ht
      rw [calls_self] at hw
      exact act_served (h.paired _) (h.served _) w hw
    · rw [calls_other s ht] at hw
      rw [buf_step]
      cases hleaves : (s.calls i.1).acts.head?.bind (leaves provider (profiles i.1)) with
      | none => exact h.served t w hw
      | some c => exact hfree c hleaves t ht w hw

/-- **When every call that waits has its secret**, in every state of a run. -/
theorem served_iff (sched : List (T × Bool)) : (∀ before after, sched = before ++ after →
      Served provider profiles (run (step provider profiles) (start profiles) before)) ↔
    Along (step provider profiles) (Undisturbed provider profiles) (start profiles) sched := by
  have hstep : ∀ (s : Shared T) (i : T × Bool), Ready provider profiles s →
      (Ready provider profiles (step provider profiles s i) ↔ Undisturbed provider profiles s i) :=
    fun _ i h => ready_step_iff h i
  refine Iff.trans ?_ (along_iff_keeps hstep sched ready_start)
  exact forall₃_congr fun before after _ => ⟨fun hserved => ⟨paired_run before, hserved⟩, Ready.served⟩

variable {sched : List (T × Bool)}

/-- A run that disturbs no one keeps every call sound. -/
theorem sound_along {G : Prop}
    (h : Along (step provider profiles) (Undisturbed provider profiles) (start profiles) sched)
    (hG : G → ∀ i ∈ sched, i.2 = true) (t : T) :
    Sound provider G (profiles t) ((run (step provider profiles) (start profiles) sched).calls t) := by
  have hstep : ∀ (s : Shared T) (i : T × Bool),
      (Ready provider profiles s ∧ ∀ t, Sound provider G (profiles t) (s.calls t)) →
      Undisturbed provider profiles s i ∧ (G → i.2 = true) →
      Ready provider profiles (step provider profiles s i) ∧
        ∀ t, Sound provider G (profiles t) ((step provider profiles s i).calls t) := by
    rintro s i ⟨hready, hsound⟩ ⟨hfree, hgranted⟩
    refine ⟨(ready_step_iff hready i).mpr hfree, ?_⟩
    exact calls_step (P := fun t b => Sound provider G (profiles t) b)
      (fun hb => hb.act (hready.served i.1) hgranted) hsound
  have hboth := h.and (along_of_mem (s := start profiles) fun i hi hg => hG hg i hi)
  exact (Along.keeps hstep ⟨ready_start, fun t => sound_opening⟩ hboth).2 t

/-- A call has no steps left once it was given enough. -/
theorem acts_exhausted {t : T} (henough : left (opening (profiles t)).acts ≤ sched.countP fun i => i.1 = t) :
    ((run (step provider profiles) (start profiles) sched).calls t).acts = [] := by
  have hwork : ∀ (s : Shared T) (i : T × Bool), decide (i.1 = t) = true →
      left ((step provider profiles s i).calls t).acts ≤ left (s.calls t).acts - 1 := by
    intro s i hi
    obtain rfl := of_decide_eq_true hi
    rw [calls_self]
    exact act_left
  have hidle : ∀ (s : Shared T) (i : T × Bool), decide (i.1 = t) = false →
      left ((step provider profiles s i).calls t).acts ≤ left (s.calls t).acts := by
    intro s i hi
    rw [calls_other s fun h => of_decide_eq_false hi h.symm]
  have hzero : left ((run (step provider profiles) (start profiles) sched).calls t).acts = 0 :=
    @run_exhausts _ _ _ (fun s => left (s.calls t).acts) _ hwork hidle sched (start profiles) henough
  generalize ((run (step provider profiles) (start profiles) sched).calls t).acts = acts at hzero
  match acts with
  | [] => rfl
  | a :: rest =>
    rw [left] at hzero
    cases a <;> simp [Act.cost] at hzero

end Together

/-! ## The law -/

/-- The connection string with this login name and password. -/
def connText (p : VmsProfile) (uid pwd : List Nat) : List Nat :=
  (front p).flatten ++ wide "UID=" ++ uid ++ wide ";PWD=" ++ pwd ++ wide ";" ++ (back p).flatten

variable {provider : List Nat → Option (List Nat)} {p : VmsProfile}

/-- The secrets in the string that a call returns alone. -/
theorem connText_of_build {s : List Nat} (h : vmsConnstrBuild provider p = .ok s) (hsql : p.auth = .sql) :
    ∃ uid pwd, provider (p.cred ++ wide ":uid") = some uid ∧ provider (p.cred ++ wide ":pwd") = some pwd ∧
      s = connText p (cstr uid) (cstr pwd) := by
  have hserver : p.server.isEmpty = false := by
    refine Bool.eq_false_iff.mpr fun hempty => ?_
    rw [vmsConnstrBuild, if_pos hempty] at h
    cases h
  have hfits : ¬ 256 ≤ p.cred.length + 4 := by
    intro hlong
    simp [vmsConnstrBuild, hserver, connstrAuth, hsql, hlong, Except.map] at h
  -- the string is the outcome of the steps, and those of the authentication are read off
  rw [← outcome_buildActs hserver fun hlong => hfits hlong.2, buildActs, append_assoc, outcome_adds, hsql] at h
  simp only [authActs, cons_append, nil_append, outcome, Entry.suffix, secret] at h
  rw [← append_nil ((back p).map Act.add), outcome_adds, outcome] at h
  cases huid : provider (p.cred ++ wide ":uid") with
  | none => rw [huid] at h; cases h
  | some uid =>
    cases hpwd : provider (p.cred ++ wide ":pwd") with
    | none => rw [huid, hpwd] at h; cases h
    | some pwd =>
      rw [huid, hpwd] at h
      refine ⟨uid, pwd, rfl, rfl, ?_⟩
      simpa [Except.map, connText] using (Except.ok.inj h).symm

/-- The string has the whole secrets exactly if they have no NUL. -/
theorem connText_whole_iff (p : VmsProfile) (uid pwd : List Nat) :
    connText p (cstr uid) (cstr pwd) = connText p uid pwd ↔ 0 ∉ uid ∧ 0 ∉ pwd := by
  rw [← cstr_eq_self_iff, ← cstr_eq_self_iff]
  constructor
  · intro h
    -- a text that ends at its NUL is shorter
    have hlength := congrArg length h
    simp only [connText, length_append] at hlength
    have huid : cstr uid <+: uid := takeWhile_prefix _
    have hpwd : cstr pwd <+: pwd := takeWhile_prefix _
    have hle := huid.length_le
    have hle' := hpwd.length_le
    exact ⟨huid.eq_of_length (by omega), hpwd.eq_of_length (by omega)⟩
  · rintro ⟨huid, hpwd⟩
    rw [huid, hpwd]

/-- A call that succeeded returned the string it returns alone. -/
theorem build_of_result {b : Build} {s : List Nat} (h : Sound provider False p b)
    (hs : b.result = some (.ok s)) : vmsConnstrBuild provider p = .ok s := by
  simp only [Build.result, ite_none_right_eq_some, some.injEq] at hs
  obtain ⟨hacts, hs⟩ := hs
  split at hs
  · cases hs
  · rename_i hfailed
    split_ifs at hs with hok
    cases hs
    rw [← h.rest hfailed hok, hacts, outcome, Except.map, append_nil]

/-- With memory, a call that is done returned what it returns alone. -/
theorem result_of_sound {b : Build} (h : Sound provider True p b) (hacts : b.acts = []) :
    b.result = some (vmsConnstrBuild provider p) := by
  obtain ⟨hok, herrors⟩ := h.errors trivial
  rw [Build.result, if_pos hacts]
  cases hfailed : b.failed with
  | some e => rw [herrors e hfailed]
  | none => simp [← h.rest hfailed hok, hacts, outcome, Except.map, hok]

section Law

variable {T : Type} [DecidableEq T] {provider : List Nat → Option (List Nat)} {profiles : T → VmsProfile}

/-- **Builds that do not disturb each other are isolated.**  Along any interleaving of such steps, a call that succeeds
    returns the string it returns alone, with the secrets of its own credential, whole if they have no NUL; and with
    memory and enough steps, it returns what it returns alone. -/
theorem credentials_isolated {sched : List (T × Bool)}
    (h : Along (step provider profiles) (Undisturbed provider profiles) (start profiles) sched) (t : T) :
    (∀ s, ((run (step provider profiles) (start profiles) sched).calls t).result = some (.ok s) →
      vmsConnstrBuild provider (profiles t) = .ok s ∧
      ((profiles t).auth = .sql → ∃ uid pwd, provider ((profiles t).cred ++ wide ":uid") = some uid ∧
        provider ((profiles t).cred ++ wide ":pwd") = some pwd ∧ s = connText (profiles t) (cstr uid) (cstr pwd) ∧
        (s = connText (profiles t) uid pwd ↔ 0 ∉ uid ∧ 0 ∉ pwd))) ∧
    ((∀ i ∈ sched, i.2 = true) → left (opening (profiles t)).acts ≤ sched.countP (fun i => i.1 = t) →
      ((run (step provider profiles) (start profiles) sched).calls t).result =
        some (vmsConnstrBuild provider (profiles t))) := by
  constructor
  · intro s hs
    have hbuild : vmsConnstrBuild provider (profiles t) = .ok s :=
      build_of_result (sound_along h (fun hg => hg.elim) t) hs
    refine ⟨hbuild, fun hsql => ?_⟩
    obtain ⟨uid, pwd, huid, hpwd, rfl⟩ := connText_of_build hbuild hsql
    exact ⟨uid, pwd, huid, hpwd, rfl, connText_whole_iff _ uid pwd⟩
  · intro hmemory henough
    exact result_of_sound (sound_along h (fun _ => hmemory) t) (acts_exhausted henough)

end Law

/-- Two credentials. -/
def twoCredentials (key : List Nat) : Option (List Nat) :=
  ([("a:uid", "ann"), ("a:pwd", "one"), ("b:uid", "bob"), ("b:pwd", "two")].find? fun e => wide e.1 = key).map
    fun e => wide e.2

/-- A call for each. -/
def twoProfiles : Bool → VmsProfile
  | false => { server := wide "h", cred := wide "a" }
  | true => { server := wide "h", cred := wide "b" }

instance (s : Shared Bool) (i : Bool × Bool) : Decidable (Undisturbed twoCredentials twoProfiles s i) :=
  inferInstanceAs (Decidable (∀ c ∈ (_ : Option _), ∀ t, t ≠ i.1 → ∀ w ∈ (_ : Option _), _))

/-- Both calls, one behind the other. -/
def inTurn : List (Bool × Bool) := replicate 26 (false, true) ++ replicate 26 (true, true)

theorem credentials_isolated_inTurn :
    ((run (step twoCredentials twoProfiles) (start twoProfiles) inTurn).calls false).result =
        some (vmsConnstrBuild twoCredentials (twoProfiles false)) ∧
      ((run (step twoCredentials twoProfiles) (start twoProfiles) inTurn).calls true).result =
        some (vmsConnstrBuild twoCredentials (twoProfiles true)) := by
  have halong : Along (step twoCredentials twoProfiles) (Undisturbed twoCredentials twoProfiles)
      (start twoProfiles) inTurn :=
    by decide +kernel
  exact ⟨(credentials_isolated halong false).2 (by decide) (by decide +kernel),
    (credentials_isolated halong true).2 (by decide) (by decide +kernel)⟩

/-- **Two builds at once.**  Step by step, the first returns the other's secrets; and when the other runs while it
    waits for its password, it returns none. -/
theorem credentials_mixed :
    ((run (step twoCredentials twoProfiles) (start twoProfiles)
      (replicate 26 [(false, true), (true, true)]).flatten).calls false).result =
        some (.ok (connText (twoProfiles false) (wide "bob") (wide "two"))) ∧
      ((run (step twoCredentials twoProfiles) (start twoProfiles)
        (replicate 7 (false, true) ++ replicate 26 (true, true) ++ replicate 26 (false, true))).calls
          false).result = some (.ok (connText (twoProfiles false) (wide "ann") [])) :=
  ⟨by decide +kernel, by decide +kernel⟩

end VirtualMssql.Secrets
