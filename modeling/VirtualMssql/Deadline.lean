/-
  DEADLINES — `vms_conn_arm_deadline` and the watchers it starts.

  A watcher knows a connection and a time.  It sleeps, reads the statement that is then active, cancels it, sets
  the connection's flag and is gone; nothing disarms it and nobody waits for it.  The owner of the connection arms,
  starts and finishes one operation after the other, and closes.  Every step of a watcher may come at any moment
  after it was armed.

  An operation is known by its number and has a statement handle, which may be that of an earlier one.  A deadline
  is armed for the operation that is started next.

  `deadline_scoped_iff` says when the watchers that are still on their way can do no harm.
-/
import Mathlib.Data.List.Basic
import VirtualMssql.Lib.Run

namespace VirtualMssql.Deadline

open Run List

/-! ## The code -/

/-- What a watcher has done: nothing but sleep, read the active statement, cancelled it, set the flag. -/
inductive Stage
  | sleeping
  | read (stmt : Option Nat)
  | cancelled
  | fired
  deriving DecidableEq

/-- A watcher and the operation it was armed for. -/
structure Watcher where
  op : Nat
  stage : Stage := .sleeping
  deriving DecidableEq

/-- The connection: `deadline_fired`, `deadline_watchers`, the active operation with its handle, and the watchers.
    Beside them: how many operations were started, the one that may look at the flag, which deadlines were armed
    and which have expired, who was cancelled by whose watcher, and whether one used the connection after it was
    closed. -/
structure Conn where
  closed : Bool := false
  deadlineFired : Bool := false
  deadlineWatchers : Int := 0
  active : Option (Nat × Nat) := none
  live : List Watcher := []
  started : Nat := 0
  current : Option Nat := none
  armed : List Nat := []
  expired : List Nat := []
  cancels : List (Nat × Nat) := []
  late : Bool := false

/-- `vms_conn_arm_deadline`: is there memory, and does the thread start? -/
def vmsConnArmDeadline (ms : Nat) (mem thread : Bool) (s : Conn) : Conn :=
  if ms = 0 then s
  else if 4 ≤ s.deadlineWatchers then s
  else if !mem then s
  else
    let s := { s with deadlineFired := false, current := none }
    if thread then
      { s with
        deadlineWatchers := s.deadlineWatchers + 1
        live := s.live ++ [{ op := s.started }]
        armed := s.started :: s.armed }
    else s

/-- `SQLCancelHandle` on the statement that was read: it goes to whatever runs under this handle now. -/
def hit (w : Watcher) (stmt : Option Nat) (active : Option (Nat × Nat)) : List (Nat × Nat) :=
  match stmt, active with
  | some h, some (op, h') => if h = h' then [(w.op, op)] else []
  | _, _ => []

/-- `deadline_watch`, one step of the watcher at this place. -/
def deadlineWatch (i : Nat) (s : Conn) : Conn :=
  match s.live[i]? with
  | none => s
  | some w =>
    let s := { s with late := s.late || s.closed }
    match w.stage with
    | .sleeping =>
      { s with
        live := s.live.set i { w with stage := .read (s.active.map (·.2)) }
        expired := w.op :: s.expired }
    | .read stmt =>
      { s with live := s.live.set i { w with stage := .cancelled }, cancels := hit w stmt s.active ++ s.cancels }
    | .cancelled => { s with live := s.live.set i { w with stage := .fired }, deadlineFired := true }
    | .fired => { s with live := s.live.eraseIdx i, deadlineWatchers := s.deadlineWatchers - 1 }

inductive Action
  | arm (ms : Nat) (mem thread : Bool)
  | start (handle : Nat)
  | finish
  | close
  | watch (i : Nat)

/-- One operation runs at a time, and `vms_conn_close` waits for it. -/
def step (s : Conn) : Action → Conn
  | .arm ms mem thread => if s.closed then s else vmsConnArmDeadline ms mem thread s
  | .start handle =>
    if s.closed || s.active.isSome then s
    else { s with active := some (s.started, handle), started := s.started + 1, current := some s.started }
  | .finish => { s with active := none }
  | .close => if s.active.isSome then s else { s with closed := true, current := none }
  | .watch i => deadlineWatch i s

def Action.watches : Action → Bool
  | .watch _ => true
  | _ => false

/-! ## What is asked of the watchers -/

/-- No watcher cancelled a later operation than its own, and none used a closed connection. -/
def Scoped (s : Conn) : Prop := (∀ c ∈ s.cancels, c.2 ≤ c.1) ∧ s.late = false

/-- The operation that looks at the flag finds it set exactly if its own deadline has expired. -/
def FlagRight (s : Conn) : Prop := ∀ op, s.current = some op → (s.deadlineFired = true ↔ op ∈ s.expired)

/-- What the watcher is about to cancel is not later than its own operation. -/
def Watcher.Own (w : Watcher) (active : Option (Nat × Nat)) : Prop :=
  match w.stage with
  | .sleeping => ∀ op h, active = some (op, h) → op ≤ w.op
  | .read stmt => ∀ c ∈ hit w stmt active, c.2 ≤ c.1
  | _ => True

variable {w : Watcher}

/-- Nothing is left for the watchers to spoil: the connection is open and the active operation no later than
    theirs; and if an operation may look at the flag, it is set already, or no watcher is going to set it. -/
structure Settled (s : Conn) : Prop where
  own : ∀ w ∈ s.live, s.closed = false ∧ w.Own s.active
  flag : ∀ op, s.current = some op → s.deadlineFired = true ∨ ∀ w ∈ s.live, w.stage = .fired

/-! ## The steps of a watcher -/

theorem hit_sleeping {active : Option (Nat × Nat)}
    (hown : ∀ op h, active = some (op, h) → op ≤ w.op) (stmt : Option Nat) : ∀ c ∈ hit w stmt active, c.2 ≤ c.1 := by
  intro c hc
  unfold hit at hc
  split at hc
  · next h op h' =>
    split_ifs at hc
    · rw [mem_singleton.mp hc]
      exact hown op h' rfl
    · cases hc
  · cases hc

variable {i : Nat}

/-- One watcher moves on, the others stay. -/
theorem forall_mem_set {live : List Watcher} {P : Watcher → Prop} (hall : ∀ v ∈ live, P v) (hw : P w) :
    ∀ v ∈ live.set i w, P v := by
  intro v hv
  rcases mem_or_eq_of_mem_set hv with hold | rfl
  · exact hall v hold
  · exact hw

variable {s : Conn} {op : Nat}

/-- While an operation may look and a watcher is going to set the flag, it is set. -/
theorem Settled.flagged (h : Settled s) (hw : w ∈ s.live) (hstage : w.stage ≠ .fired)
    (hop : s.current = some op) : s.deadlineFired = true :=
  (h.flag op hop).resolve_right fun hall => hstage (hall w hw)

/-- The connection is not used late while it is open. -/
theorem Scoped.intime (h : Scoped s) (hopen : s.closed = false) : (s.late || s.closed) = false := by
  rw [h.2, hopen]
  rfl

/-- **A step of a watcher** spoils nothing where nothing is left to spoil. -/
theorem settled_watch (hscoped : Scoped s) (hright : FlagRight s) (h : Settled s) (i : Nat) :
    Scoped (deadlineWatch i s) ∧ FlagRight (deadlineWatch i s) ∧ Settled (deadlineWatch i s) := by
  -- what the invariants say of the watcher that moves
  have hown {w} (hw : s.live[i]? = some w) := h.own w (mem_of_getElem? hw)
  have hlate {w} (hw : s.live[i]? = some w) := hscoped.intime (hown hw).1
  have hset {w op} (hw : s.live[i]? = some w) (hstage : w.stage ≠ .fired) (hop : s.current = some op) :=
    h.flagged (mem_of_getElem? hw) hstage hop
  fun_cases deadlineWatch i s
  case case1 => exact ⟨hscoped, hright, h⟩
  case case2 w hw s' hstage =>
    obtain ⟨hopen, hsleeps⟩ := hown hw
    rw [Watcher.Own, hstage] at hsleeps
    have hset {op} := @hset w op hw (by simp [hstage])
    refine ⟨⟨hscoped.1, hlate hw⟩, fun op hop => ?_, forall_mem_set h.own ⟨hopen, hit_sleeping hsleeps _⟩,
      fun op hop => .inl (hset hop)⟩
    exact iff_of_true (hset hop) (mem_cons_of_mem _ ((hright op hop).mp (hset hop)))
  case case3 w hw s' stmt hstage =>
    obtain ⟨hopen, hread⟩ := hown hw
    rw [Watcher.Own, hstage] at hread
    refine ⟨⟨forall_mem_append.mpr ⟨hread, hscoped.1⟩, hlate hw⟩, hright, forall_mem_set h.own ⟨hopen, trivial⟩, ?_⟩
    exact fun op hop => .inl (hset hw (by simp [hstage]) hop)
  case case4 w hw s' hstage =>
    refine ⟨⟨hscoped.1, hlate hw⟩, fun op hop => ?_, forall_mem_set h.own ⟨(hown hw).1, trivial⟩, fun _ _ => .inl rfl⟩
    exact iff_of_true rfl ((hright op hop).mp (hset hw (by simp [hstage]) hop))
  case case5 w hw s' hstage =>
    refine ⟨⟨hscoped.1, hlate hw⟩, hright, fun v hv => h.own v (mem_of_mem_eraseIdx hv), fun op hop => ?_⟩
    exact (h.flag op hop).imp_right fun hall v hv => hall v (mem_of_mem_eraseIdx hv)

/-- **A run of the watchers.** -/
theorem settled_run (hscoped : Scoped s) (hright : FlagRight s) (h : Settled s) {ws : List Action}
    (hws : ∀ a ∈ ws, a.watches = true) : Scoped (run step s ws) ∧ FlagRight (run step s ws) := by
  have hkeep := @Along.keeps _ _ step (fun _ a => a.watches = true) (fun s => Scoped s ∧ FlagRight s ∧ Settled s)
    (fun s a hs ha => ?_) ws s ⟨hscoped, hright, h⟩ (along_of_mem hws)
  · exact ⟨hkeep.1, hkeep.2.1⟩
  · cases a with
    | watch i => exact settled_watch hs.1 hs.2.1 hs.2.2 i
    | _ => simp [Action.watches] at ha

/-! ## What a watcher can spoil -/

section Spoils

variable {s : Conn} {i : Nat} {w : Watcher}

/-- The watcher wakes. -/
theorem watch_sleeping (hi : s.live[i]? = some w) (hstage : w.stage = .sleeping) :
    deadlineWatch i s = { s with
      late := s.late || s.closed
      live := s.live.set i { w with stage := .read (s.active.map (·.2)) }
      expired := w.op :: s.expired } := by
  simp [deadlineWatch, hi, hstage]

/-- It cancels. -/
theorem watch_read {stmt : Option Nat} (hi : s.live[i]? = some w) (hstage : w.stage = .read stmt) :
    deadlineWatch i s = { s with
      late := s.late || s.closed
      live := s.live.set i { w with stage := .cancelled }
      cancels := hit w stmt s.active ++ s.cancels } := by
  simp [deadlineWatch, hi, hstage]

/-- It sets the flag. -/
theorem watch_cancelled (hi : s.live[i]? = some w) (hstage : w.stage = .cancelled) :
    deadlineWatch i s = { s with
      late := s.late || s.closed
      live := s.live.set i { w with stage := .fired }
      deadlineFired := true } := by
  simp [deadlineWatch, hi, hstage]

/-- Whatever it does, it uses the connection. -/
theorem watch_late (hi : s.live[i]? = some w) : (deadlineWatch i s).late = (s.late || s.closed) := by
  simp only [deadlineWatch, hi]
  split <;> rfl

theorem getElem_set {v : Watcher} (hi : s.live[i]? = some w) : (s.live.set i v)[i]? = some v := by
  rw [getElem?_set_self]
  exact (List.getElem?_eq_some_iff.mp hi).1

/-- The watcher at this place, on its own. -/
def alone (i n : Nat) : List Action := List.replicate n (.watch i)

theorem alone_watches (i n : Nat) : ∀ a ∈ alone i n, a.watches = true := by
  intro a ha
  rw [eq_of_mem_replicate ha]
  rfl

/-- It comes to its cancel, and hits what it is about to hit. -/
theorem cancels_alone (hi : s.live[i]? = some w) (hscoped : ∀ n, Scoped (run step s (alone i n))) : w.Own s.active := by
  cases hstage : w.stage with
  | sleeping =>
    rw [Watcher.Own, hstage]
    intro op h hactive
    refine (hscoped 2).1 (w.op, op) ?_
    show (w.op, op) ∈ (deadlineWatch i (deadlineWatch i s)).cancels
    rw [watch_sleeping hi hstage, watch_read (getElem_set hi) rfl]
    simp [hactive, hit]
  | read stmt =>
    rw [Watcher.Own, hstage]
    intro c hc
    refine (hscoped 1).1 c ?_
    show c ∈ (deadlineWatch i s).cancels
    rw [watch_read hi hstage]
    exact mem_append_left _ hc
  | cancelled | fired =>
    rw [Watcher.Own, hstage]
    trivial

/-- It comes to set the flag, and no deadline but its own expires. -/
theorem fires_alone (hi : s.live[i]? = some w) (hstage : w.stage ≠ .fired) :
    ∃ n, (run step s (alone i n)).deadlineFired = true ∧ (run step s (alone i n)).current = s.current ∧
      ∀ op ∈ (run step s (alone i n)).expired, op ∈ s.expired ∨ (op = w.op ∧ w.stage = .sleeping) := by
  cases hw : w.stage with
  | sleeping =>
    have hrun : run step s (alone i 3) = deadlineWatch i (deadlineWatch i (deadlineWatch i s)) := rfl
    have hread : (deadlineWatch i s).live[i]? = some { w with stage := .read (s.active.map (·.2)) } := by
      rw [watch_sleeping hi hw]
      exact getElem_set hi
    have hcancel : (deadlineWatch i (deadlineWatch i s)).live[i]? = some { w with stage := .cancelled } := by
      rw [watch_read hread rfl]
      exact getElem_set hread
    rw [watch_cancelled hcancel rfl, watch_read hread rfl, watch_sleeping hi hw] at hrun
    refine ⟨3, ?_⟩
    rw [hrun]
    exact ⟨rfl, rfl, fun op hop => (mem_cons.mp hop).symm.imp_right fun h => ⟨h, rfl⟩⟩
  | read stmt =>
    have hrun : run step s (alone i 2) = deadlineWatch i (deadlineWatch i s) := rfl
    have hcancel : (deadlineWatch i s).live[i]? = some { w with stage := .cancelled } := by
      rw [watch_read hi hw]
      exact getElem_set hi
    rw [watch_cancelled hcancel rfl, watch_read hi hw] at hrun
    refine ⟨2, ?_⟩
    rw [hrun]
    exact ⟨rfl, rfl, fun op hop => .inl hop⟩
  | cancelled =>
    have hrun : run step s (alone i 1) = deadlineWatch i s := rfl
    rw [watch_cancelled hi hw] at hrun
    refine ⟨1, ?_⟩
    rw [hrun]
    exact ⟨rfl, rfl, fun op hop => .inl hop⟩
  | fired => exact absurd hw hstage

/-- **A watcher that is going to set the flag can make it wrong**: between waking and setting it, or for an
    operation that is not its own. -/
theorem flag_spoiled (hi : s.live[i]? = some w) (hstage : w.stage ≠ .fired)
    (hop : s.current = some op) (hright : ∀ n, FlagRight (run step s (alone i n))) :
    s.deadlineFired = true := by
  by_contra hclear
  have hnow : op ∉ s.expired := fun hexp => hclear ((hright 0 op hop).mpr hexp)
  obtain ⟨n, hfired, hcur, hexp⟩ := fires_alone hi hstage
  obtain ⟨rfl, hw⟩ := (hexp op ((hright n op (hcur.trans hop)).mp hfired)).resolve_left hnow
  -- its own: awake, and the flag not yet set
  have hwoken : FlagRight (deadlineWatch i s) := hright 1
  rw [watch_sleeping hi hw] at hwoken
  exact hclear ((hwoken w.op hop).mpr mem_cons_self)

end Spoils

/-! ## An owner who waits -/

/-- The owner arms once for an operation and when no watcher is on its way, starts an operation when only its own
    is (and not with another's flag), and closes when none is. -/
def Waits (s : Conn) : Action → Prop
  | .arm _ _ _ => s.live = [] ∧ s.started ∉ s.armed
  | .start _ => (∀ w ∈ s.live, w.op = s.started) ∧ (s.deadlineFired = true → s.started ∈ s.armed)
  | .close => s.live = []
  | _ => True

/-- The watcher of an operation is on its way, or has done its work. -/
def Watched (s : Conn) (op : Nat) : Prop :=
  (∃ w, s.live = [w] ∧ w.op = op ∧ (w.stage = .sleeping → s.deadlineFired = false ∧ op ∉ s.expired) ∧
    (w.stage ≠ .sleeping → op ∈ s.expired) ∧ (w.stage = .fired → s.deadlineFired = true)) ∨
  (s.live = [] ∧ s.deadlineFired = true ∧ op ∈ s.expired)

/-- What holds for an owner who waits. -/
structure Orderly (s : Conn) : Prop where
  kept : Scoped s
  live : ∀ w ∈ s.live, s.closed = false ∧ s.started ≤ w.op + 1 ∧ w.op ∈ s.armed
  active : ∀ op h, s.active = some (op, h) → op < s.started
  armed : ∀ op ∈ s.armed, op ≤ s.started
  expired : ∀ op ∈ s.expired, op ∈ s.armed
  next : s.started ∈ s.armed → Watched s s.started
  current : ∀ op, s.current = some op → op + 1 = s.started ∧ (op ∈ s.armed → Watched s op) ∧
    (op ∉ s.armed → s.deadlineFired = false ∧ s.live = [])

theorem Watched.watch (h : Watched s op) (i : Nat) : Watched (deadlineWatch i s) op := by
  rcases h with ⟨w, hlive, rfl, hsleep, hexp, hfired⟩ | ⟨hlive, hdone⟩
  · cases i with
    | succ i =>
      have hnone : deadlineWatch (i + 1) s = s := by simp [deadlineWatch, hlive]
      rw [hnone]
      exact .inl ⟨w, hlive, rfl, hsleep, hexp, hfired⟩
    | zero =>
      have hi : s.live[0]? = some w := by simp [hlive]
      cases hw : w.stage with
      | sleeping =>
        rw [watch_sleeping hi hw]
        exact .inl ⟨{ w with stage := .read (s.active.map (·.2)) }, by simp [hlive], rfl, by simp, by simp, by simp⟩
      | read stmt =>
        rw [watch_read hi hw]
        exact .inl ⟨{ w with stage := .cancelled },
          by simp [hlive], rfl, by simp, fun _ => hexp (by simp [hw]), by simp⟩
      | cancelled =>
        rw [watch_cancelled hi hw]
        exact .inl ⟨{ w with stage := .fired }, by simp [hlive], rfl, by simp, fun _ => hexp (by simp [hw]), by simp⟩
      | fired =>
        refine .inr ⟨?_, ?_, ?_⟩
        · simp [deadlineWatch, hlive, hw]
        · simpa [deadlineWatch, hlive, hw] using hfired hw
        · simpa [deadlineWatch, hlive, hw] using hexp (by simp [hw])
  · have hnone : deadlineWatch i s = s := by simp [deadlineWatch, hlive]
    rw [hnone]
    exact .inr ⟨hlive, hdone⟩

/-- What a watcher leaves alone. -/
theorem watch_frame (i : Nat) (s : Conn) : (deadlineWatch i s).closed = s.closed ∧
    (deadlineWatch i s).active = s.active ∧
    (deadlineWatch i s).started = s.started ∧ (deadlineWatch i s).current = s.current ∧
    (deadlineWatch i s).armed = s.armed := by
  fun_cases deadlineWatch i s <;> exact ⟨rfl, rfl, rfl, rfl, rfl⟩

/-- A watcher that moves on keeps its operation. -/
theorem watch_live {v : Watcher} (hv : v ∈ (deadlineWatch i s).live) : ∃ w ∈ s.live, w.op = v.op := by
  have hset : ∀ {w : Watcher} {stage : Stage}, s.live[i]? = some w → v ∈ s.live.set i { w with stage := stage } →
      ∃ w ∈ s.live, w.op = v.op := by
    intro w stage hw hv
    rcases mem_or_eq_of_mem_set hv with hold | rfl
    · exact ⟨v, hold, rfl⟩
    · exact ⟨w, mem_of_getElem? hw, rfl⟩
  revert hv
  fun_cases deadlineWatch i s
  case case1 => exact fun hv => ⟨v, hv, rfl⟩
  case case2 w hw _ _ => exact hset hw
  case case3 w hw _ _ _ => exact hset hw
  case case4 w hw _ _ => exact hset hw
  case case5 => exact fun hv => ⟨v, mem_of_mem_eraseIdx hv, rfl⟩

/-- Only a watcher's own deadline expires. -/
theorem watch_expired (hop : op ∈ (deadlineWatch i s).expired) : op ∈ s.expired ∨ ∃ w ∈ s.live, w.op = op := by
  revert hop
  fun_cases deadlineWatch i s
  case case2 w hw _ _ =>
    intro hop
    rcases mem_cons.mp hop with rfl | hold
    · exact .inr ⟨w, mem_of_getElem? hw, rfl⟩
    · exact .inl hold
  all_goals exact .inl

/-- A watcher of the last operation, or the next one, cancels no later one. -/
theorem Orderly.watch_kept (h : Orderly s) (i : Nat) : Scoped (deadlineWatch i s) := by
  have hlate {w} (hw : s.live[i]? = some w) := h.kept.intime (h.live w (mem_of_getElem? hw)).1
  fun_cases deadlineWatch i s
  case case1 => exact h.kept
  case case3 w hw s' stmt hstage =>
    have hop := (h.live w (mem_of_getElem? hw)).2.1
    have hown : ∀ op hd, s.active = some (op, hd) → op ≤ w.op := by
      intro op hd hactive
      have hlt := h.active op hd hactive
      omega
    exact ⟨forall_mem_append.mpr ⟨hit_sleeping hown stmt, h.kept.1⟩, hlate hw⟩
  all_goals
    next hw _ _ => exact ⟨h.kept.1, hlate hw⟩

theorem Orderly.watch {s : Conn} (h : Orderly s) (i : Nat) : Orderly (deadlineWatch i s) := by
  obtain ⟨hclosed, hactive, hstarted, hcurrent, harmed⟩ := watch_frame i s
  refine ⟨h.watch_kept i, fun v hv => ?_, ?_, ?_, fun op hop => ?_, ?_, fun op hop => ?_⟩
  · obtain ⟨w, hw, hop⟩ := watch_live hv
    rw [hclosed, hstarted, harmed, ← hop]
    exact h.live w hw
  · rw [hactive, hstarted]
    exact h.active
  · rw [harmed, hstarted]
    exact h.armed
  · rw [harmed]
    rcases watch_expired hop with hold | ⟨w, hw, rfl⟩
    · exact h.expired op hold
    · exact (h.live w hw).2.2
  · rw [hstarted, harmed]
    exact fun hin => (h.next hin).watch i
  · rw [hcurrent] at hop
    rw [hstarted, harmed]
    obtain ⟨hlast, hwatched, hnot⟩ := h.current op hop
    refine ⟨hlast, fun hin => (hwatched hin).watch i, fun hin => ?_⟩
    have hnone : deadlineWatch i s = s := by simp [deadlineWatch, (hnot hin).2]
    rw [hnone]
    exact hnot hin

theorem Orderly.arm (h : Orderly s) {ms : Nat} {mem thread : Bool} (hopen : s.closed = false)
    (hlive : s.live = []) (hnew : s.started ∉ s.armed) : Orderly (vmsConnArmDeadline ms mem thread s) := by
  have hfirst : s.live ++ [{ op := s.started }] = [{ op := s.started }] := by rw [hlive]; rfl
  fun_cases vmsConnArmDeadline ms mem thread s
  case case4 =>
    refine ⟨h.kept, fun w hw => ?_, h.active, fun op hop => ?_, fun op hop => mem_cons_of_mem _ (h.expired op hop),
      fun _ => .inl ⟨{ op := s.started }, ?_⟩, fun op hop => absurd hop (by simp)⟩
    · obtain rfl : w = { op := s.started } := mem_singleton.mp (hfirst ▸ hw)
      exact ⟨hopen, Nat.le_succ _, mem_cons_self⟩
    · rcases mem_cons.mp hop with rfl | hold
      · exact Nat.le_refl _
      · exact h.armed op hold
    · exact ⟨hfirst, rfl, fun _ => ⟨rfl, fun hexp => hnew (h.expired _ hexp)⟩, by simp, by simp⟩
  case case5 =>
    exact ⟨h.kept, h.live, h.active, h.armed, h.expired, fun hin => absurd hin hnew, fun op hop => absurd hop (by simp)⟩
  all_goals exact h

theorem Orderly.start (h : Orderly s) (handle : Nat) (hown : ∀ w ∈ s.live, w.op = s.started)
    (hflag : s.deadlineFired = true → s.started ∈ s.armed) :
    Orderly { s with active := some (s.started, handle), started := s.started + 1, current := some s.started } := by
  refine ⟨h.kept, fun w hw => ?_, fun op hd hop => ?_, fun op hop => Nat.le_succ_of_le (h.armed op hop), h.expired,
    fun hin => ?_, fun op hop => ?_⟩
  · obtain ⟨hopen, _, harmed⟩ := h.live w hw
    exact ⟨hopen, by simp [hown w hw], harmed⟩
  · cases hop
    exact Nat.lt_succ_self _
  · have hle : s.started + 1 ≤ s.started := h.armed _ hin
    omega
  · cases hop
    refine ⟨rfl, h.next, fun hin => ⟨?_, ?_⟩⟩
    · exact Bool.eq_false_iff.mpr fun hset => hin (hflag hset)
    · refine eq_nil_iff_forall_not_mem.mpr fun w hw => hin ?_
      rw [← hown w hw]
      exact (h.live w hw).2.2

/-- **A step of an owner who waits, or of a watcher.** -/
theorem Orderly.step {s : Conn} (h : Orderly s) {a : Action} (ha : Waits s a) : Orderly (step s a) := by
  fun_cases Deadline.step s a
  case case1 | case3 | case6 => exact h
  case case2 ms mem thread hclosed => exact h.arm (by simpa using hclosed) ha.1 ha.2
  case case4 handle _ => exact h.start handle ha.1 ha.2
  case case5 => exact ⟨h.kept, h.live, fun _ _ hop => (by cases hop), h.armed, h.expired, h.next, h.current⟩
  case case7 =>
    refine ⟨h.kept, fun w hw => ?_, h.active, h.armed, h.expired, h.next, fun op hop => absurd hop (by simp)⟩
    rw [show s.live = [] from ha] at hw
    cases hw
  case case8 i => exact h.watch i

/-- Where no watcher is between waking and setting the flag, it is right. -/
theorem Orderly.flagRight (h : Orderly s) (hstage : ∀ w ∈ s.live, w.stage = .sleeping ∨ w.stage = .fired) :
    FlagRight s := by
  intro op hop
  obtain ⟨_, hwatched, hnot⟩ := h.current op hop
  by_cases harmed : op ∈ s.armed
  · rcases hwatched harmed with ⟨w, hlive, _, hsleep, hexp, hfired⟩ | ⟨_, hfired, hexp⟩
    · rcases hstage w (by simp [hlive]) with hw | hw
      · simp [hsleep hw]
      · exact iff_of_true (hfired hw) (hexp (by simp [hw]))
    · exact iff_of_true hfired hexp
  · refine iff_of_false (by simp [(hnot harmed).1]) fun hexp => harmed (h.expired op hexp)

/-! ## The scope of a deadline -/

/-- **Deadlines and their operations.**  Behind any run that has spoiled nothing yet, nothing the watchers still do can
    spoil anything exactly if all of them are settled.  And an owner who waits for the watchers is safe: none
    cancels a later operation or uses a closed connection, and where no watcher is between waking and setting the
    flag, an operation finds it set exactly if its own deadline has expired. -/
theorem deadline_scoped_iff (is : List Action) :
    (Scoped (run step {} is) ∧ FlagRight (run step {} is) →
      ((∀ ws, (∀ a ∈ ws, a.watches = true) → Scoped (run step {} (is ++ ws)) ∧ FlagRight (run step {} (is ++ ws))) ↔
        Settled (run step {} is))) ∧
    (Along step Waits {} is → Scoped (run step {} is) ∧
      ((∀ w ∈ (run step {} is).live, w.stage = .sleeping ∨ w.stage = .fired) → FlagRight (run step {} is))) := by
  simp only [run_append]
  refine ⟨fun hnow => ⟨fun h => ?_, fun h ws hws => settled_run hnow.1 hnow.2 h hws⟩, fun halong => ?_⟩
  · generalize run step {} is = s at h
    refine ⟨fun w hw => ?_, fun op hop => ?_⟩
    · obtain ⟨i, hi⟩ := mem_iff_getElem?.mp hw
      refine ⟨?_, cancels_alone hi fun n => (h _ (alone_watches i n)).1⟩
      have hlate : (deadlineWatch i s).late = false := (h _ (alone_watches i 1)).1.2
      rw [watch_late hi, Bool.or_eq_false_iff] at hlate
      exact hlate.2
    · by_cases hset : s.deadlineFired = true
      · exact .inl hset
      · refine .inr fun w hw => ?_
        by_contra hstage
        obtain ⟨i, hi⟩ := mem_iff_getElem?.mp hw
        exact hset (flag_spoiled hi hstage hop fun n => (h _ (alone_watches i n)).2)
  · have hstart : Orderly ({} : Conn) := ⟨⟨by simp, rfl⟩, by simp, by simp, by simp, by simp, by simp, by simp⟩
    have horderly : Orderly (run step {} is) := Along.keeps (fun s a h ha => h.step ha) hstart halong
    exact ⟨horderly.kept, horderly.flagRight⟩

/-- An operation with a deadline, which does not expire. -/
def first : List Action := [.arm 50 true true, .start 0, .finish]

/-- **A deadline outlives its operation**: it cancels the next one, which then finds the flag set and has no deadline;
    and the watcher uses a connection that was closed in the meantime. -/
theorem deadline_not_scoped : (run step {} (first ++ [.start 1] ++ alone 0 3)).cancels = [(0, 1)] ∧
    ¬ FlagRight (run step {} (first ++ [.start 1] ++ alone 0 3)) ∧
    (run step {} (first ++ [.close] ++ alone 0 1)).late = true := by
  refine ⟨by decide, fun h => ?_, by decide⟩
  exact absurd ((h 1 rfl).mp rfl) (by decide)

end VirtualMssql.Deadline
