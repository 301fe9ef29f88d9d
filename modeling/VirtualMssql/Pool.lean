/-
  THE POOL — `vms_pool.c`: idle connections, and two counters beside the list.

  `vms_pool_acquire` takes a connection off the idle list, verifies it with the lock given back, and closes it if
  it is not clean; without one it opens a new connection.  `vms_pool_release` verifies a connection and puts it
  back, or closes it.  Every counter is changed in a critical section of its own, so between two of them the
  numbers are off by what the threads have in hand.  The model has one step a statement, any number of threads,
  and the answers of the server and of the allocator come with the call.

  A connection is one allocation, and connections are numbered by it.  The memory says beside the pool's own
  fields which connections are leased, and which were verified since they were last put back.

  `pool_accounting`: the counters count what they should whenever they can be looked at.
-/
import VirtualMssql.Lib.Monitor
import VirtualMssql.Lib.Run
import VirtualMssql.Lib.Tally

namespace VirtualMssql.Pool

open Monitor Counting Run List Function

/-! ## The code -/

/-- Is there a profile, does the idle connection pass its verification, can the connection string be built, and
    can a connection be opened? -/
structure AcquireReply where
  profile : Bool := true
  verified : Bool := true
  built : Bool := true
  opened : Bool := true

/-- Does the connection pass its verification, and is there memory for the slot? -/
structure ReleaseReply where
  verified : Bool := true
  slot : Bool := true

/-- Where a thread is.  A connection is closed and no longer counted in the same way by both functions: `next`
    says that `vms_pool_acquire` goes on and opens another one. -/
inductive Pc
  | idle
  | enter (r : AcquireReply)
  | take (r : AcquireReply)
  | takeCount (cn : Nat) (r : AcquireReply)
  | takeLeave (cn : Option Nat) (r : AcquireReply)
  | verify (cn : Nat) (r : AcquireReply)
  | hand (cn : Nat)
  | open_ (r : AcquireReply)
  | raiseEnter (cn : Nat)
  | raise (cn : Nat)
  | raiseLeave (cn : Nat)
  | check (cn : Nat) (r : ReleaseReply)
  | putEnter (cn : Nat) (r : ReleaseReply)
  | put (cn : Nat) (r : ReleaseReply)
  | putCount
  | putLeave (cn : Option Nat)
  | close (cn : Nat) (next : Option AcquireReply)
  | lowerEnter (next : Option AcquireReply)
  | lower (next : Option AcquireReply)
  | lowerLeave (next : Option AcquireReply)

/-- `VmsPool` less its lock and its capacity; the connections that were opened and those that are leased; which
    were verified since they were last put back; and for each reuse whether the connection was. -/
structure Memory where
  idle : List Nat := []
  idleCount : Int := 0
  liveCount : Int := 0
  made : Nat := 0
  leases : List Nat := []
  clean : Nat → Bool := fun _ => false
  reused : List (Nat × Bool) := []

/-- `vms_pool_acquire` and `vms_pool_release`. -/
def poolMain (capacity : Nat) (m : Memory) : Pc → Option (Stmt Pc Memory Empty)
  | .idle => none
  | .enter r => some { op := .acquire, pc := .take r, mem := m }
  | .take r =>
    match m.idle with
    | cn :: rest => some { pc := .takeCount cn r, mem := { m with idle := rest } }
    | [] => some { pc := .takeLeave none r, mem := m }
  | .takeCount cn r => some { pc := .takeLeave (some cn) r, mem := { m with idleCount := m.idleCount - 1 } }
  | .takeLeave (some cn) r => some { op := .release, pc := .verify cn r, mem := m }
  | .takeLeave none r => some { op := .release, pc := .open_ r, mem := m }
  | .verify cn r =>
    if r.verified then some { pc := .hand cn, mem := { m with clean := update m.clean cn true } }
    else some { pc := .close cn (some r), mem := m }
  | .hand cn =>
    some { pc := .idle, mem := { m with leases := cn :: m.leases, reused := m.reused ++ [(cn, m.clean cn)] } }
  | .open_ r =>
    if r.built && r.opened then some { pc := .raiseEnter m.made, mem := { m with made := m.made + 1 } }
    else some { pc := .idle, mem := m }
  | .raiseEnter cn => some { op := .acquire, pc := .raise cn, mem := m }
  | .raise cn => some { pc := .raiseLeave cn, mem := { m with liveCount := m.liveCount + 1 } }
  | .raiseLeave cn => some { op := .release, pc := .idle, mem := { m with leases := cn :: m.leases } }
  | .check cn r =>
    if r.verified then some { pc := .putEnter cn r, mem := { m with clean := update m.clean cn true } }
    else some { pc := .close cn none, mem := m }
  | .putEnter cn r => some { op := .acquire, pc := .put cn r, mem := m }
  | .put cn r =>
    if m.idleCount < capacity && r.slot then
      some { pc := .putCount, mem := { m with idle := cn :: m.idle, clean := update m.clean cn false } }
    else some { pc := .putLeave (some cn), mem := m }
  | .putCount => some { pc := .putLeave none, mem := { m with idleCount := m.idleCount + 1 } }
  | .putLeave (some cn) => some { op := .release, pc := .close cn none, mem := m }
  | .putLeave none => some { op := .release, pc := .idle, mem := m }
  | .close _ next => some { pc := .lowerEnter next, mem := m }
  | .lowerEnter next => some { op := .acquire, pc := .lower next, mem := m }
  | .lower next => some { pc := .lowerLeave next, mem := { m with liveCount := m.liveCount - 1 } }
  | .lowerLeave (some r) => some { op := .release, pc := .open_ r, mem := m }
  | .lowerLeave none => some { op := .release, pc := .idle, mem := m }

inductive Call
  | acquire (r : AcquireReply)
  | release (cn : Nat) (r : ReleaseReply)

/-- A thread that is in no call makes one; a lease can be given back by whoever has it, and only once. -/
def poolCall (m : Memory) : Call → Pc → Option (Pc × Memory)
  | .acquire r, .idle => some (if r.profile then .enter r else .idle, m)
  | .release cn r, .idle =>
    if cn ∈ m.leases then some (.check cn r, { m with leases := m.leases.erase cn, clean := update m.clean cn false })
    else none
  | _, _ => none

variable {T : Type} (capacity : Nat)

def code : Code (fun _ : T => Pc) Memory Empty Call where
  stmt _ pc m := poolMain capacity m pc
  call _ i pc m := poolCall m i pc
  gone _ := false

abbrev System (T : Type) := State (fun _ : T => Pc) Memory Empty

/-- `vms_pool_create`. -/
def start : System T where
  mem := {}
  pc _ := .idle

/-! ## The lock -/

/-- Does the thread stand between EnterCriticalSection and LeaveCriticalSection? -/
def Pc.inside : Pc → Bool
  | .take _ | .takeCount _ _ | .takeLeave _ _ | .raise _ | .raiseLeave _ | .put _ _ | .putCount | .putLeave _ | .lower _
  | .lowerLeave _ => true
  | _ => false

variable {m : Memory} {pc : Pc} {e : Stmt Pc Memory Empty}

theorem poolMain_crosses {capacity : Nat} (he : poolMain capacity m pc = some e) :
    e.op.Crosses pc.inside e.pc.inside := by
  revert he
  fun_cases poolMain capacity m pc
  all_goals rintro ⟨⟩
  all_goals simp [Op.Crosses, Pc.inside]

/-- What a call can do: begin, or come back at once. -/
theorem poolCall_cases {i : Call} {e : Pc × Memory} (he : poolCall m i pc = some e) :
    pc = .idle ∧ ((∃ r, e = (.enter r, m)) ∨ e = (.idle, m) ∨ ∃ cn r, cn ∈ m.leases ∧
        e = (.check cn r, { m with leases := m.leases.erase cn, clean := update m.clean cn false })) := by
  revert he
  fun_cases poolCall m i pc
  case case1 r =>
    rintro ⟨⟩
    cases hr : r.profile <;> simp
  case case2 cn r hcn =>
    rintro ⟨⟩
    exact ⟨rfl, .inr (.inr ⟨cn, r, hcn, rfl⟩)⟩
  all_goals rintro ⟨⟩

theorem code_bracketed : Bracketed (code capacity : Code (fun _ : T => Pc) Memory Empty Call) fun _ => Pc.inside where
  gone _ _ _ _ _ hgone := absurd hgone (by simp [code])
  stmt _ _ _ _ he := poolMain_crosses he
  call x i pc m e he := by
    obtain ⟨rfl, ⟨r, rfl⟩ | rfl | ⟨cn, r, _, rfl⟩⟩ := poolCall_cases he <;>
      exact ⟨rfl, rfl, fun hgone => absurd hgone (by simp [code])⟩

/-! ## Who has a connection -/

/-- The connection a thread has in hand. -/
def Pc.holds : Pc → Option Nat
  | .takeCount cn _ | .takeLeave (some cn) _ | .verify cn _ | .hand cn | .raiseEnter cn | .raise cn | .raiseLeave cn
  | .check cn _ | .putEnter cn _ | .put cn _ | .putLeave (some cn) | .close cn _ => some cn
  | _ => none

/-- Where a connection is. -/
inductive Place (T : Type)
  | idle
  | lease
  | hand (t : T)

def At (idle leases : List Nat) (hand : T → Option Nat) (cn : Nat) : Place T → Prop
  | .idle => cn ∈ idle
  | .lease => cn ∈ leases
  | .hand t => hand t = some cn

/-- **Every connection has one place**: in the idle list, with the holder of a lease, or in the hand of a thread. -/
structure Owned (idle leases : List Nat) (hand : T → Option Nat) (made : Nat) : Prop where
  idleOnce : idle.Nodup
  leasedOnce : leases.Nodup
  once : ∀ cn p q, At idle leases hand cn p → At idle leases hand cn q → p = q
  known : ∀ cn p, At idle leases hand cn p → cn < made

section Places

variable {idle leases idle' leases' : List Nat} {hand hand' : T → Option Nat} {made made' cn : Nat} {x : T}

theorem Owned.other (h : Owned idle leases hand made) {c : Nat} {p q : Place T} (hcn : At idle leases hand cn p)
    (hc : At idle leases hand c q) (hne : q ≠ p) : c ≠ cn := by
  rintro rfl
  exact hne (h.once c q p hc hcn)

/-- A connection comes to a place, and the others stay where they are. -/
theorem Owned.moves (h : Owned idle leases hand made) {q : Place T}
    (hat : ∀ c p, At idle' leases' hand' c p → (c = cn ∧ p = q) ∨ (c ≠ cn ∧ At idle leases hand c p))
    (hidle : idle'.Nodup) (hleases : leases'.Nodup) (hcn : cn < made') (hmade : made ≤ made') :
    Owned idle' leases' hand' made' := by
  refine ⟨hidle, hleases, fun c p p' hp hp' => ?_, fun c p hp => ?_⟩
  · rcases hat c p hp with ⟨rfl, rfl⟩ | ⟨hne, hold⟩
    · rcases hat c p' hp' with ⟨_, rfl⟩ | ⟨hne, _⟩
      · rfl
      · exact absurd rfl hne
    · rcases hat c p' hp' with ⟨rfl, _⟩ | ⟨_, hold'⟩
      · exact absurd rfl hne
      · exact h.once c p p' hold hold'
  · rcases hat c p hp with ⟨rfl, _⟩ | ⟨_, hold⟩
    · exact hcn
    · exact Nat.lt_of_lt_of_le (h.known c p hold) hmade

def Place.swap : Place T → Place T
  | .idle => .lease
  | .lease => .idle
  | .hand t => .hand t

/-- The two lists play the same part. -/
theorem Owned.swap (h : Owned idle leases hand made) : Owned leases idle hand made := by
  have hat {c} {p : Place T} (hp : At leases idle hand c p) : At idle leases hand c p.swap := by
    cases p <;> exact hp
  refine ⟨h.leasedOnce, h.idleOnce, fun c p q hp hq => ?_, fun c p hp => h.known c _ (hat hp)⟩
  have hsame := h.once c _ _ (hat hp) (hat hq)
  cases p <;> cases q <;> simp_all [Place.swap]

variable [DecidableEq T]

/-- Who has what in hand when one thread has moved. -/
theorem hand_moved {t : T} {v : Option Nat} (h : update hand x v t = some cn) :
    (t = x ∧ v = some cn) ∨ (t ≠ x ∧ hand t = some cn) := by
  by_cases ht : t = x
  · subst ht
    rw [update_self] at h
    exact .inl ⟨rfl, h⟩
  · rw [update_of_ne ht] at h
    exact .inr ⟨ht, h⟩

variable (h : Owned idle leases hand made)
include h

/-- A connection is closed. -/
theorem Owned.drop (x : T) : Owned idle leases (update hand x none) made := by
  have hat : ∀ c p, At idle leases (update hand x none) c p → At idle leases hand c p := by
    intro c p hp
    cases p with
    | idle | lease => exact hp
    | hand t =>
      rcases hand_moved hp with ⟨_, hnone⟩ | ⟨_, hold⟩
      · cases hnone
      · exact hold
  exact ⟨h.idleOnce, h.leasedOnce, fun c p q hp hq => h.once c p q (hat c p hp) (hat c q hq), fun c p hp =>
    h.known c p (hat c p hp)⟩

theorem Owned.put (hcn : hand x = some cn) :
    Owned (cn :: idle) leases (update hand x none) made := by
  have hat : At idle leases hand cn (.hand x) := hcn
  refine h.moves (q := .idle) (fun c p hp => ?_) ?_ h.leasedOnce (h.known cn _ hat) (Nat.le_refl _)
  · cases p with
    | idle =>
      rcases mem_cons.mp hp with rfl | hold
      · exact .inl ⟨rfl, rfl⟩
      · exact .inr ⟨h.other hat (q := .idle) hold (by simp), hold⟩
    | lease => exact .inr ⟨h.other hat (q := .lease) hp (by simp), hp⟩
    | hand t =>
      rcases hand_moved hp with ⟨_, hnone⟩ | ⟨ht, hold⟩
      · cases hnone
      · exact .inr ⟨h.other hat (q := .hand t) hold (by simpa using ht), hold⟩
  · exact nodup_cons.mpr ⟨fun hmem => h.other hat (q := .idle) hmem (by simp) rfl, h.idleOnce⟩

theorem Owned.lend (hcn : hand x = some cn) :
    Owned idle (cn :: leases) (update hand x none) made :=
  (h.swap.put hcn).swap

/-- One is taken from the list. -/
theorem Owned.take (hcn : cn ∈ idle) (x : T) :
    Owned (idle.erase cn) leases (update hand x (some cn)) made := by
  have hat : At idle leases hand cn .idle := hcn
  refine h.moves (q := .hand x) (fun c p hp => ?_) (h.idleOnce.erase cn) h.leasedOnce (h.known cn _ hat) (Nat.le_refl _)
  cases p with
  | idle => exact .inr ⟨fun heq => h.idleOnce.not_mem_erase (heq ▸ hp), mem_of_mem_erase hp⟩
  | lease => exact .inr ⟨h.other hat (q := .lease) hp (by simp), hp⟩
  | hand t =>
    rcases hand_moved hp with ⟨rfl, hnow⟩ | ⟨_, hold⟩
    · exact .inl ⟨(Option.some.inj hnow).symm, rfl⟩
    · exact .inr ⟨h.other hat (q := .hand t) hold (by simp), hold⟩

theorem Owned.giveBack (hcn : cn ∈ leases) (x : T) :
    Owned idle (leases.erase cn) (update hand x (some cn)) made :=
  (h.swap.take hcn x).swap

theorem Owned.opened (x : T) :
    Owned idle leases (update hand x (some made)) (made + 1) := by
  have hfresh : ∀ c p, At idle leases hand c p → c ≠ made := fun c p hp => Nat.ne_of_lt (h.known c p hp)
  refine h.moves (q := .hand x) (fun c p hp => ?_) h.idleOnce h.leasedOnce (Nat.lt_succ_self made) (Nat.le_succ made)
  cases p with
  | idle => exact .inr ⟨hfresh c .idle hp, hp⟩
  | lease => exact .inr ⟨hfresh c .lease hp, hp⟩
  | hand t =>
    rcases hand_moved hp with ⟨rfl, hnow⟩ | ⟨_, hold⟩
    · exact .inl ⟨(Option.some.inj hnow).symm, rfl⟩
    · exact .inr ⟨hfresh c (.hand t) hold, hold⟩

end Places

/-- What the threads have in hand. -/
def hands (pc : T → Pc) (t : T) : Option Nat := (pc t).holds

theorem hand_holds {pc : T → Pc} {t : T} {cn : Nat} (h : pc t = .hand cn) : hands pc t = some cn := by
  rw [hands, h]
  rfl

/-- **What a statement does with a connection**: it leaves it where it is, closes it, takes one from the list,
    puts one there, hands one out, or opens one. -/
theorem poolMain_owns {capacity : Nat} (he : poolMain capacity m pc = some e) :
    (e.mem.idle = m.idle ∧ e.mem.leases = m.leases ∧ e.mem.made = m.made ∧ (e.pc.holds = pc.holds ∨ e.pc.holds = none)) ∨
    (∃ cn, m.idle = cn :: e.mem.idle ∧ e.mem.leases = m.leases ∧ e.mem.made = m.made ∧ e.pc.holds = some cn) ∨
    (∃ cn, e.mem.idle = cn :: m.idle ∧ e.mem.leases = m.leases ∧ e.mem.made = m.made ∧ pc.holds = some cn ∧
      e.pc.holds = none) ∨
    (∃ cn, e.mem.idle = m.idle ∧ e.mem.leases = cn :: m.leases ∧ e.mem.made = m.made ∧ pc.holds = some cn ∧
      e.pc.holds = none) ∨
    (e.mem.idle = m.idle ∧ e.mem.leases = m.leases ∧ e.mem.made = m.made + 1 ∧ e.pc.holds = some m.made) := by
  revert he
  fun_cases poolMain capacity m pc
  all_goals rintro ⟨⟩
  case case3 r cn rest hidle => exact .inr (.inl ⟨cn, hidle, rfl, rfl, rfl⟩)
  all_goals simp [Pc.holds]

variable [DecidableEq T]

theorem hands_moved (pc : T → Pc) (x : T) (p : Pc) : hands (update pc x p) = update (hands pc) x p.holds := by
  funext t
  by_cases ht : t = x
  · subst ht
    simp [hands]
  · simp [hands, ht]

/-- **Every statement keeps each connection in one place.** -/
theorem owned_stmt {pc : T → Pc} (h : Owned m.idle m.leases (hands pc) m.made) {x : T}
    (he : poolMain capacity m (pc x) = some e) :
    Owned e.mem.idle e.mem.leases (hands (update pc x e.pc)) e.mem.made := by
  rw [hands_moved]
  rcases poolMain_owns he with ⟨hidle, hleases, hmade, hholds⟩ | ⟨cn, hidle, hleases, hmade, hholds⟩ |
    ⟨cn, hidle, hleases, hmade, hheld, hholds⟩ | ⟨cn, hidle, hleases, hmade, hheld, hholds⟩ |
      ⟨hidle, hleases, hmade, hholds⟩
  · rw [hidle, hleases, hmade]
    rcases hholds with hsame | hnone
    · rw [hsame]
      exact (update_eq_self x (hands pc)).symm ▸ h
    · rw [hnone]
      exact h.drop x
  · rw [hidle] at h
    rw [hleases, hmade, hholds]
    simpa using h.take mem_cons_self x
  · rw [hidle, hleases, hmade, hholds]
    exact h.put hheld
  · rw [hidle, hleases, hmade, hholds]
    exact h.lend hheld
  · rw [hidle, hleases, hmade, hholds]
    exact h.opened x

variable {s : System T}

theorem reachable_owned (h : Reachable (code capacity) start s) :
    Owned s.mem.idle s.mem.leases (hands s.pc) s.mem.made := by
  refine h.holds (J := fun m pc => Owned m.idle m.leases (hands pc) m.made) ?_ ?_ ?_
  · refine ⟨nodup_nil, nodup_nil, fun cn p q hp => ?_, fun cn p hp => ?_⟩
    all_goals cases p <;> simp [At, start, hands, Pc.holds] at hp
  · intro s _ hJ x e he
    exact owned_stmt capacity hJ he
  · intro s _ hJ x i e he
    rw [hands_moved]
    obtain ⟨hidle, ⟨r, rfl⟩ | rfl | ⟨cn, r, hcn, rfl⟩⟩ := poolCall_cases he
    · exact hJ.drop x
    · exact hJ.drop x
    · exact hJ.giveBack hcn x

/-! ## The counters -/

/-- The thread has a connection that is counted as live, or was closed and is still counted. -/
def Pc.counts : Pc → Bool
  | .takeCount _ _ | .takeLeave (some _) _ | .verify _ _ | .hand _ | .raiseLeave _ | .check _ _ |
    .putEnter _ _ | .put _ _
  | .putLeave (some _) | .close _ _ | .lowerEnter _ | .lower _ => true
  | _ => false

/-- The list is already shorter, and `idle_count` is not. -/
def Pc.taking : Pc → Bool
  | .takeCount _ _ => true
  | _ => false

/-- The list is already longer, and `idle_count` is not. -/
def Pc.putting : Pc → Bool
  | .putCount => true
  | _ => false

/-- The counters change with the lists and with what the thread has in hand. -/
structure Balanced (m m' : Memory) (pc pc' : Pc) : Prop where
  live : m'.liveCount + m.idle.length + m.leases.length + pc.counts.toNat =
    m.liveCount + m'.idle.length + m'.leases.length + pc'.counts.toNat
  idle : m'.idleCount + m.idle.length + pc.taking.toNat + pc'.putting.toNat =
    m.idleCount + m'.idle.length + pc'.taking.toNat + pc.putting.toNat

theorem poolMain_balanced {capacity : Nat} (he : poolMain capacity m pc = some e) : Balanced m e.mem pc e.pc := by
  revert he
  fun_cases poolMain capacity m pc
  all_goals rintro ⟨⟩
  case case3 r cn rest hidle =>
    constructor <;> simp only [hidle, Pc.counts, Pc.taking, Pc.putting, length_cons] <;> simp <;> omega
  all_goals constructor <;> simp [Pc.counts, Pc.taking, Pc.putting]
  all_goals omega

theorem poolCall_balanced {i : Call} {e : Pc × Memory} (he : poolCall m i pc = some e) : Balanced m e.2 pc e.1 := by
  obtain ⟨rfl, ⟨r, rfl⟩ | rfl | ⟨cn, r, hcn, rfl⟩⟩ := poolCall_cases he
  · exact ⟨rfl, rfl⟩
  · exact ⟨rfl, rfl⟩
  · have hlength := length_erase_of_mem hcn
    have hpos := length_pos_of_mem hcn
    constructor
    · simp only [Pc.counts, Bool.toNat_false, Bool.toNat_true]
      omega
    · rfl

/-- **The counters are off by what the threads have not yet counted.** -/
structure Counted (m : Memory) (pc : T → Pc) : Prop where
  live : ∃ n, Tally Pc.counts pc n ∧ m.liveCount = m.idle.length + m.leases.length + n
  idle : ∃ n k, Tally Pc.taking pc n ∧ Tally Pc.putting pc k ∧ m.idleCount + k = m.idle.length + n

theorem Counted.moved {m m' : Memory} {pc : T → Pc} (h : Counted m pc) {x : T} {p : Pc}
    (hbal : Balanced m m' (pc x) p) :
    Counted m' (update pc x p) := by
  obtain ⟨hlive, hidle⟩ := hbal
  constructor
  · obtain ⟨n, hn, heq⟩ := h.live
    obtain ⟨n', hn', hmove⟩ := hn.moved x p
    exact ⟨n', hn', by omega⟩
  · obtain ⟨n, k, hn, hk, heq⟩ := h.idle
    obtain ⟨n', hn', hmove⟩ := hn.moved x p
    obtain ⟨k', hk', hmove'⟩ := hk.moved x p
    exact ⟨n', k', hn', hk', by omega⟩

theorem reachable_counted (h : Reachable (code capacity) start s) : Counted s.mem s.pc := by
  refine h.holds (J := Counted) ?_ ?_ ?_
  · exact ⟨⟨0, tally_none fun _ => rfl, rfl⟩, 0, 0, tally_none fun _ => rfl, tally_none fun _ => rfl, rfl⟩
  · intro s _ hJ x e he
    exact hJ.moved (poolMain_balanced he)
  · intro s _ hJ x i e he
    exact hJ.moved (poolCall_balanced he)

theorem reachable_mutex (h : Reachable (code capacity) start s) : Mutex (code capacity) (fun _ => Pc.inside) s := by
  refine h.keeps (I := Mutex (code capacity) fun _ => Pc.inside) ⟨fun _ x => ?_, fun x c => c.elim⟩ ?_
  · simp [start, Pc.inside]
  · intro s a s' _ hs hstep
    exact hs.step (code_bracketed capacity) hstep

omit [DecidableEq T] in
/-- Nobody is between the list and its counter. -/
theorem Counted.idleCount {m : Memory} {pc : T → Pc} (h : Counted m pc)
    (hnone : ∀ t, (pc t).taking = false ∧ (pc t).putting = false) : m.idleCount = m.idle.length := by
  obtain ⟨n, k, hn, hk, heq⟩ := h.idle
  rw [hn.eq_zero fun t => (hnone t).1, hk.eq_zero fun t => (hnone t).2] at heq
  omega

theorem outside_counts (h : pc.inside = false) : pc.taking = false ∧ pc.putting = false := by
  cases pc with
  | takeCount cn r | putCount => simp [Pc.inside] at h
  | _ => exact ⟨rfl, rfl⟩

/-- A statement makes the idle list longer only by the check of the capacity. -/
theorem poolMain_room {capacity : Nat} (he : poolMain capacity m pc = some e) : e.mem.idle.length ≤ m.idle.length ∨
      (pc.inside = true ∧ pc.taking = false ∧ pc.putting = false ∧ m.idleCount < capacity ∧
        e.mem.idle.length = m.idle.length + 1) := by
  revert he
  fun_cases poolMain capacity m pc
  all_goals rintro ⟨⟩
  case case3 r cn rest hidle => exact .inl (by simp [hidle])
  case case19 cn r hroom =>
    simp only [Bool.and_eq_true, decide_eq_true_eq] at hroom
    exact .inr ⟨rfl, rfl, rfl, hroom.1, rfl⟩
  all_goals exact .inl (Nat.le_refl _)

theorem reachable_room (h : Reachable (code capacity) start s) : s.mem.idle.length ≤ capacity := by
  refine h.holds (J := fun m _ => m.idle.length ≤ capacity) (Nat.zero_le _) ?_ ?_
  · intro s hs hJ x e he
    rcases poolMain_room he with hle | ⟨hin, htaking, hputting, hroom, hlength⟩
    · exact Nat.le_trans hle hJ
    · -- the thread is alone under the lock, so the counter it looks at is right
      have hcount := (reachable_counted capacity hs).idleCount fun t => by
        by_cases ht : (s.pc t).inside = true
        · obtain rfl : t = x := (reachable_mutex capacity hs).alone rfl ht hin
          exact ⟨htaking, hputting⟩
        · exact outside_counts (by simpa using ht)
      omega
  · intro s _ hJ x i e he
    obtain ⟨_, ⟨r, rfl⟩ | rfl | ⟨cn, r, _, rfl⟩⟩ := poolCall_cases he <;> exact hJ

/-! ## Verification before reuse -/

/-- A connection that is about to be handed out again was verified, and so were all before it. -/
structure Verified (m : Memory) (pc : T → Pc) : Prop where
  hand : ∀ t cn, pc t = .hand cn → m.clean cn = true
  reused : ∀ p ∈ m.reused, p.2 = true

/-- A statement touches the mark of its own connection only, and records a reuse as it is marked. -/
theorem poolMain_clean {capacity : Nat} (he : poolMain capacity m pc = some e) :
    (∀ cn, pc.holds ≠ some cn → e.mem.clean cn = m.clean cn) ∧ (∀ cn, e.pc = .hand cn → e.mem.clean cn = true) ∧
      (e.mem.reused = m.reused ∨ ∃ cn, pc = .hand cn ∧ e.mem.reused = m.reused ++ [(cn, m.clean cn)]) := by
  have hmark : ∀ {c cn : Nat} {b : Bool}, some c ≠ some cn → update m.clean c b cn = m.clean cn := by
    intro c cn b hne
    exact update_of_ne (fun heq => hne (congrArg some heq.symm)) b m.clean
  revert he
  fun_cases poolMain capacity m pc
  all_goals rintro ⟨⟩
  case case8 c r _ => exact ⟨fun cn => hmark, fun cn hcn => by rw [← Pc.hand.inj hcn]; exact update_self .., .inl rfl⟩
  case case10 c => exact ⟨fun _ _ => rfl, by simp, .inr ⟨c, rfl, rfl⟩⟩
  case case16 c r _ => exact ⟨fun cn => hmark, by simp, .inl rfl⟩
  case case19 c r _ => exact ⟨fun cn => hmark, by simp, .inl rfl⟩
  all_goals exact ⟨fun _ _ => rfl, by simp, .inl rfl⟩

theorem reachable_verified (h : Reachable (code capacity) start s) : Verified s.mem s.pc := by
  refine h.holds (J := Verified) ⟨by simp [start], by simp [start]⟩ ?_ ?_
  · intro s hs hJ x e he
    have howned := reachable_owned capacity hs
    obtain ⟨hother, hhand, hreused⟩ := poolMain_clean he
    refine ⟨fun t cn ht => ?_, fun p hp => ?_⟩
    · by_cases htx : t = x
      · subst htx
        rw [update_self] at ht
        exact hhand cn ht
      · rw [update_of_ne htx] at ht
        -- the connection is in the hand of that thread, and of no other
        rw [hother cn fun hx => htx (Place.hand.inj (howned.once cn (.hand t) (.hand x) (hand_holds ht) hx))]
        exact hJ.hand t cn ht
    · rcases hreused with hsame | ⟨cn, hpc, hmore⟩
      · exact hJ.reused p (hsame ▸ hp)
      · rw [hmore] at hp
        rcases mem_append.mp hp with hold | hnew
        · exact hJ.reused p hold
        · rw [mem_singleton.mp hnew]
          exact hJ.hand x cn hpc
  · intro s hs hJ x i e he
    have howned := reachable_owned capacity hs
    obtain ⟨_, hcases⟩ := poolCall_cases he
    -- a call does not begin with handing out
    have hhand : ∀ t c, update s.pc x e.1 t = .hand c → s.pc t = .hand c := by
      intro t c ht
      by_cases htx : t = x
      · subst htx
        rw [update_self] at ht
        rcases hcases with ⟨r, rfl⟩ | rfl | ⟨cn, r, _, rfl⟩ <;> cases ht
      · rwa [update_of_ne htx] at ht
    rcases hcases with ⟨r, rfl⟩ | rfl | ⟨cn, r, hcn, rfl⟩
    · exact ⟨fun t c ht => hJ.hand t c (hhand t c ht), hJ.reused⟩
    · exact ⟨fun t c ht => hJ.hand t c (hhand t c ht), hJ.reused⟩
    · refine ⟨fun t c ht => ?_, hJ.reused⟩
      have hpc := hhand t c ht
      have hne : c ≠ cn := howned.other (p := .lease) (q := .hand t) hcn (hand_holds hpc) (by simp)
      show update s.mem.clean cn false c = true
      rw [update_of_ne hne]
      exact hJ.hand t c hpc

/-! ## The account -/

/-- **The pool keeps its accounts.**  Whatever any number of threads do: when nobody is under the lock,
    `idle_count` is the length of the idle list and at most the capacity; no connection is in the list twice, or
    idle and leased, or leased twice, or either of them while a thread has it in hand; every connection that was
    reused was verified since it was last put back; and when no call is on its way, `live_count` counts the idle
    connections and the leases. -/
theorem pool_accounting (h : Reachable (code capacity) start s) :
    (s.lock = none → s.mem.idleCount = s.mem.idle.length ∧ s.mem.idleCount ≤ capacity) ∧
    s.mem.idle.Nodup ∧ s.mem.leases.Nodup ∧ (∀ cn ∈ s.mem.idle, cn ∉ s.mem.leases) ∧
    (∀ t cn, (s.pc t).holds = some cn → cn ∉ s.mem.idle ∧ cn ∉ s.mem.leases ∧ ∀ u, (s.pc u).holds = some cn → u = t) ∧
    (∀ p ∈ s.mem.reused, p.2 = true) ∧
    ((∀ t, s.pc t = .idle) → s.mem.liveCount = s.mem.idle.length + s.mem.leases.length) := by
  have howned := reachable_owned capacity h
  have hcounted := reachable_counted capacity h
  refine ⟨fun hfree => ?_, howned.idleOnce, howned.leasedOnce, fun cn hidle hlease => ?_,
    fun t cn hcn => ⟨fun hidle => ?_, fun hlease => ?_, fun u hu => ?_⟩, (reachable_verified capacity h).reused,
      fun hquiet => ?_⟩
  · have hcount := hcounted.idleCount fun t => outside_counts <| by
      by_contra hin
      have hlock := ((reachable_mutex capacity h).lock rfl t).mpr (by simpa using hin)
      rw [hfree] at hlock
      cases hlock
    have hroom := reachable_room capacity h
    exact ⟨hcount, by omega⟩
  · exact howned.other (p := .idle) (q := .lease) hidle hlease (by simp) rfl
  · exact howned.other (p := .hand t) (q := .idle) hcn hidle (by simp) rfl
  · exact howned.other (p := .hand t) (q := .lease) hcn hlease (by simp) rfl
  · exact Place.hand.inj (howned.once cn (.hand u) (.hand t) hu hcn)
  · obtain ⟨n, hn, heq⟩ := hcounted.live
    rw [hn.eq_zero fun t => by rw [hquiet t]; rfl] at heq
    omega

/-- A connection is opened, given back, and taken again. -/
def twice : List (Action Unit Call) :=
  .call () (.acquire {}) :: (List.replicate 7 (.act () none) ++ .call () (.release 0 {}) ::
    (List.replicate 5 (.act () none) ++ .call () (.acquire {}) :: List.replicate 6 (.act () none)))

theorem pool_accounting_twice :
    (run (moves (code 1)) start twice).mem.reused = [(0, true)] ∧ (run (moves (code 1)) start twice).mem.leases = [0] ∧
    (run (moves (code 1)) start twice).mem.liveCount = 1 := by
  have hreach : Reachable (code 1) start (run (moves (code 1)) start twice) :=
    run_keeps (fun _ a h => h.moves a) twice .start
  obtain ⟨_, _, _, _, _, _, hlive⟩ := pool_accounting 1 hreach
  exact ⟨rfl, rfl, hlive fun _ => rfl⟩

end VirtualMssql.Pool
