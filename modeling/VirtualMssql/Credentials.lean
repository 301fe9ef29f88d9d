/-
  THE CREDENTIAL STORE — the memory provider of `vms_credentials.c`, under failing allocations.

  `vms_cred_memory_set` keeps the pairs in a linked list.  A new key is put in front of the list once all three
  allocations are granted; for a known key the old secret is wiped and freed BEFORE the new one is allocated, and when
  that fails the entry stays with a null pointer for its secret.

  The store is atomic when a lookup finds what the last successful set put there, whatever failed in between
  (`Atomic`).  A set that is not an overwrite keeps it so, and an overwrite exactly when its allocation is granted
  (`atomic_step_iff`); the rest is the rule for runs (`Run.along_iff_keeps`).
-/
import VirtualMssql.Lib.Run

namespace VirtualMssql.Credentials

open Run

/-- `MemEntry`; the secret may be a null pointer. -/
structure MemEntry where
  key : List Nat
  secret : Option (List Nat)
  deriving DecidableEq

/-- A call of `vms_cred_memory_set`, with the answers of `HeapAlloc` in the order of the requests. -/
structure SetCall where
  key : List Nat
  secret : List Nat
  heap : Bool × Bool × Bool
  deriving DecidableEq

/-- The pointer to the secret of the first entry with the key. -/
def lookup (entries : List MemEntry) (key : List Nat) : Option (Option (List Nat)) :=
  (entries.find? fun e => e.key == key).map (·.secret)

/-- The secret of the first entry with the key replaced. -/
def setSecret (key : List Nat) (secret : Option (List Nat)) : List MemEntry → List MemEntry
  | [] => []
  | e :: es => if e.key = key then { e with secret } :: es else e :: setSecret key secret es

/-- `vms_cred_memory_set`: what it returns and the list; `none` when `wcslen` is called on a null pointer. -/
def vmsCredMemorySet (c : SetCall) (entries : List MemEntry) : Option (Bool × List MemEntry) :=
  match lookup entries c.key with
  | some none => none
  | some (some _) =>
    if c.heap.1 then some (true, setSecret c.key (some c.secret) entries)
    else some (false, setSecret c.key none entries)
  | none =>
    if c.heap.1 && (c.heap.2.1 && c.heap.2.2) then some (true, ⟨c.key, some c.secret⟩ :: entries)
    else some (false, entries)

/-- What `mem_secret_begin` comes to. -/
inductive Begin
  | found (secret : List Nat)
  | tooLarge
  | notFound
  | fault
  deriving DecidableEq

/-- `mem_secret_begin` with a buffer of `maxLen` units. -/
def memSecretBegin (entries : List MemEntry) (key : List Nat) (maxLen : Nat) : Begin :=
  match lookup entries key with
  | none => .notFound
  | some none => .fault
  | some (some secret) => if maxLen < secret.length + 1 then .tooLarge else .found secret

/-! ## Runs of calls -/

/-- The list, the sets that returned 1 with the latest in front, and whether a call has faulted. -/
structure Store where
  entries : List MemEntry := []
  sets : List (List Nat × List Nat) := []
  faulted : Bool := false

def step (s : Store) (c : SetCall) : Store :=
  if s.faulted then s
  else match vmsCredMemorySet c s.entries with
    | none => { s with faulted := true }
    | some (ok, entries) => { s with entries, sets := if ok then (c.key, c.secret) :: s.sets else s.sets }

/-- The answer for the secret that was set last. -/
def answer (maxLen : Nat) : Option (List Nat) → Begin
  | none => .notFound
  | some secret => if maxLen < secret.length + 1 then .tooLarge else .found secret

/-- **The store is what was set**: every lookup gives the secret of the last successful set of its key. -/
def Atomic (s : Store) : Prop :=
  s.faulted = false ∧ ∀ key maxLen, memSecretBegin s.entries key maxLen = answer maxLen (s.sets.lookup key)

/-- The call overwrites nothing, or its memory is granted. -/
def Granted (s : Store) (c : SetCall) : Prop := (s.sets.lookup c.key).isSome → c.heap.1 = true

/-! ## One call -/

/-- The answers for all buffers show the pointer. -/
theorem begin_iff {entries : List MemEntry} {key : List Nat} {last : Option (List Nat)} :
    (∀ maxLen, memSecretBegin entries key maxLen = answer maxLen last) ↔ lookup entries key = last.map some := by
  unfold memSecretBegin
  generalize lookup entries key = found
  constructor
  · intro h
    -- a buffer that both secrets fit into
    have hbig := h (((found.getD none).getD []).length + (last.getD []).length + 1)
    rcases found with _ | _ | secret <;> rcases last with _ | last <;> simp only [answer] at hbig <;> grind
  · intro h maxLen
    rw [h]
    cases last <;> rfl

theorem lookup_cons (e : MemEntry) (es : List MemEntry) (k : List Nat) :
    lookup (e :: es) k = if e.key = k then some e.secret else lookup es k := by
  by_cases h : e.key = k <;> simp [lookup, h]

theorem lookup_setSecret {key : List Nat} {secret : Option (List Nat)} (k : List Nat) : ∀ {es : List MemEntry},
    (lookup es key).isSome → lookup (setSecret key secret es) k = if key = k then some secret else lookup es k
  | [], h => by simp [lookup] at h
  | e :: es, h => by
    rw [setSecret]
    by_cases hkey : e.key = key
    · rw [if_pos hkey, lookup_cons, lookup_cons, hkey]
      split <;> rfl
    · rw [lookup_cons, if_neg hkey] at h
      rw [if_neg hkey, lookup_cons, lookup_cons, lookup_setSecret k h]
      grind

/-- **One call** keeps the store atomic exactly when it overwrites nothing or its memory is granted. -/
theorem atomic_step_iff (s : Store) (c : SetCall) (h : Atomic s) : Atomic (step s c) ↔ Granted s c := by
  obtain ⟨hfault, hlook⟩ := h
  simp only [begin_iff] at hlook
  have hlast := hlook c.key
  have hsets : ∀ k, ((c.key, c.secret) :: s.sets).lookup k = if c.key = k then some c.secret else s.sets.lookup k := by
    intro k
    rw [List.lookup_cons]
    grind
  have hstep : ∀ ok es, vmsCredMemorySet c s.entries = some (ok, es) → (Atomic (step s c) ↔
      ∀ k, lookup es k = ((if ok then (c.key, c.secret) :: s.sets else s.sets).lookup k).map some) := by
    intro ok es hset
    simp [Atomic, begin_iff, step, hfault, hset]
  rw [Granted]
  cases hprev : s.sets.lookup c.key with
  | none =>
    rw [hprev, Option.map_none] at hlast
    refine iff_of_true ?_ (by simp)
    by_cases hheap : (c.heap.1 && (c.heap.2.1 && c.heap.2.2)) = true
    · rw [hstep true _ (by rw [vmsCredMemorySet, hlast]; exact if_pos hheap)]
      intro k
      rw [if_pos rfl, hsets, lookup_cons, hlook k]
      split <;> rfl
    · rw [hstep false _ (by rw [vmsCredMemorySet, hlast]; exact if_neg hheap)]
      exact hlook
  | some old =>
    rw [hprev, Option.map_some] at hlast
    have hsome : (lookup s.entries c.key).isSome := by rw [hlast]; rfl
    by_cases hheap : c.heap.1 = true
    · refine iff_of_true ?_ fun _ => hheap
      rw [hstep true _ (by rw [vmsCredMemorySet, hlast]; exact if_pos hheap)]
      intro k
      rw [if_pos rfl, hsets, lookup_setSecret k hsome, hlook k]
      split <;> rfl
    · refine iff_of_false (fun hafter => ?_) fun h => hheap (h rfl)
      rw [hstep false _ (by rw [vmsCredMemorySet, hlast]; exact if_neg hheap)] at hafter
      have hkey := hafter c.key
      rw [lookup_setSecret c.key hsome, if_pos rfl, if_neg Bool.false_ne_true, hprev] at hkey
      simp at hkey

/-- **The runs that are atomic**: those in which the memory of every overwrite is granted. -/
theorem credential_store_iff (calls : List SetCall) :
    (∀ before after, calls = before ++ after → Atomic (run step {} before)) ↔ Along step Granted {} calls :=
  along_iff_keeps atomic_step_iff calls ⟨rfl, fun _ _ => rfl⟩

/-- A set, and another one of the same key without memory: the first secret is lost, the next lookup reads through a
    null pointer, and so does the next set. -/
theorem credential_store_fault : let set : SetCall := ⟨[107], [115], (true, true, true)⟩
    let s := run step {} [set, { set with heap := (false, true, true) }]
    s.sets.lookup [107] = some [115] ∧ memSecretBegin s.entries [107] 512 = .fault ∧ (step s set).faulted = true ∧
      ¬ Atomic s := by
  refine ⟨by decide, by decide, by decide, fun h => ?_⟩
  exact absurd (h.2 [107] 512) (by decide)

end VirtualMssql.Credentials
