/-
  CANCEL REACH — what `vms_client_cancel_all` has to rely on.

  `Covered` says that what is in flight is a published statement of a registered connection, `Pending` that
  what the walk has read and not yet cancelled is not freed.  Together they say that a cancel reaches what it
  should (`Good.reaches`), and each has its own condition on a step (`covered_step`, `pending_step`).

  `cancel_reaches_iff`: everything in flight is reached, and nothing freed is cancelled, exactly if every call
  is published and made on a registered connection that stays registered, and no statement is freed between
  the walk's look at it and its cancel.  It is not so for the code: a cursor's own connection, `job_more`,
  `job_verify` and the transaction's own statements do not keep to it, nor do `vms_conn_close`, a failed
  `connreg_add`, and a caller that frees its statement while the walk is at it.
-/
import VirtualMssql.Cancel

namespace VirtualMssql.Cancel

open Run List Option Function

variable {K C H : Type}

/-! ## What a cancel finds -/

/-- What is in flight is published, and its connection is registered. -/
def Covered (s : State K C H) : Prop :=
  ∀ w h, (s.workers w).inFlight = some h → (s.workers w).activeStmt = some h ∧ ∃ k ∈ s.registry, w = .conn k

/-- What the walk is about to cancel is not freed. -/
def Pending (s : State K C H) : Prop := ∀ h, s.reads = some h → s.handles h ≠ .freed

/-- **What is asked of a state**: a cancel made now is issued for everything in flight and for nothing freed;
    a cancel on its way is not about to hit a freed statement, and has reached, when it is through, every call
    that was in flight all the time. -/
structure Reaches (s : State K C H) : Prop where
  inFlight : ∀ w h, (s.workers w).inFlight = some h → h ∈ (vmsClientCancelAll s).2
  notFreed : ∀ h ∈ (vmsClientCancelAll s).2, s.handles h ≠ .freed
  pending : ∀ h, s.reads = some h → s.handles h ≠ .freed
  through : ∀ x, s.walk = some x → x.left = [] → x.read = none → ∀ w h, x.through w = some h → h ∈ x.issued

/-- Every call that has been in flight since the walk began still is, and the walk has cancelled it, has
    read it, or comes to it. -/
def Followed (s : State K C H) : Prop :=
  ∀ x, s.walk = some x → ∀ w h, x.through w = some h →
    (s.workers w).inFlight = some h ∧ (h ∈ x.issued ∨ x.read = some h ∨ ∃ k ∈ x.left, w = .conn k)

variable {s s' : State K C H} {w : WorkerId K C}

theorem mem_cancelAll {h : H} :
    h ∈ (vmsClientCancelAll s).2 ↔ ∃ k ∈ s.registry, (s.workers (.conn k)).activeStmt = some h := by
  rw [vmsClientCancelAll, mem_filterMap]
  rfl

/-- Workers that have nothing in flight need no cover. -/
theorem Covered.move (h : Covered s) (hregistry : s.registry ⊆ s'.registry)
    (hworkers : ∀ w, s'.workers w = s.workers w ∨ (s'.workers w).inFlight = none) : Covered s' := by
  intro w i hi
  rcases hworkers w with hsame | hnone
  · rw [hsame] at hi ⊢
    obtain ⟨hactive, k, hk, rfl⟩ := h w i hi
    exact ⟨hactive, k, hregistry hk, rfl⟩
  · exact absurd (hnone.symm.trans hi) (by simp)

theorem Pending.same (h : Pending s) (hreads : s'.reads = s.reads)
    (hhandles : ∀ i, s.reads = some i → s.handles i ≠ .freed → s'.handles i ≠ .freed) : Pending s' := by
  intro i hi
  rw [hreads] at hi
  exact hhandles i hi (h i hi)

/-- Workers with nothing in flight are not followed. -/
theorem Followed.move (h : Followed s) (hwalk : s'.walk = s.walk)
    (hworkers : ∀ w, s'.workers w = s.workers w ∨ (s.workers w).inFlight = none) : Followed s' := by
  intro x hx w i hi
  rw [hwalk] at hx
  obtain ⟨hflight, hwhere⟩ := h x hx w i hi
  rcases hworkers w with hsame | hnone
  · exact ⟨by rw [hsame, hflight], hwhere⟩
  · exact absurd (hnone.symm.trans hflight) (by simp)

theorem inFlight_nil {x : Worker H} (h : x.job = []) : x.inFlight = none := by
  unfold Worker.inFlight
  rw [h]

/-- Without a walk there is nothing to follow. -/
theorem followed_none (h : s.walk = none) : Followed s := by
  intro x hx
  exact absurd (h.symm.trans hx) (by simp)

theorem Followed.through (h : Followed s) {x : Walk K C H} (hx : s.walk = some x)
    (hleft : x.left = []) (hread : x.read = none) {i : H} (hi : x.through w = some i) : i ∈ x.issued := by
  obtain ⟨_, hissued | hhas | ⟨k, hk, _⟩⟩ := h x hx w i hi
  · exact hissued
  · exact absurd (hread.symm.trans hhas) (by simp)
  · simp [hleft] at hk

section Workers

variable [DecidableEq K] [DecidableEq C]

theorem setWorker_moves (s : State K C H) {x : Worker H} (hx : x.inFlight = none) (w' : WorkerId K C) :
    (s.setWorker w x).workers w' = s.workers w' ∨ ((s.setWorker w x).workers w').inFlight = none :=
  workers_moved (R := fun w' y => y = s.workers w' ∨ y.inFlight = none) (.inr hx) (fun _ _ => .inl rfl) w'

theorem stop_moves (s : State K C H) (w w' : WorkerId K C) :
    (s.stop w).workers w' = s.workers w' ∨ ((s.stop w).workers w').inFlight = none := by
  unfold State.stop
  split_ifs
  · exact setWorker_moves s rfl w'
  · exact .inl rfl

theorem stop_registry (s : State K C H) (w : WorkerId K C) : (s.stop w).registry = s.registry := by
  unfold State.stop
  split_ifs <;> rfl

theorem setWorker_idle (s : State K C H) (x : Worker H) (hw : (s.workers w).inFlight = none) (w' : WorkerId K C) :
    (s.setWorker w x).workers w' = s.workers w' ∨ (s.workers w').inFlight = none :=
  workers_moved (R := fun w' y => y = s.workers w' ∨ (s.workers w').inFlight = none) (.inr hw) (fun _ _ => .inl rfl) w'

theorem Followed.stop {s : State K C H} (h : Followed s) (w : WorkerId K C) : Followed (s.stop w) := by
  unfold State.stop
  split_ifs with hjob
  · exact h.move rfl (setWorker_idle s {} (inFlight_nil hjob))
  · exact h

/-- The call of the worker has come back. -/
theorem Followed.back (h : Followed s) (w : WorkerId K C) (x : Worker H) : Followed ((s.clear w).setWorker w x) := by
  intro y hy w' i hi
  obtain ⟨z, hz, rfl⟩ := map_eq_some_iff.mp hy
  by_cases hw : w' = w
  · subst hw
    exact absurd ((update_self (f := z.through) ..).symm.trans hi) (by simp)
  · have hthrough : z.through w' = some i := (update_of_ne hw none z.through).symm.trans hi
    obtain ⟨hflight, hwhere⟩ := h z hz w' i hthrough
    refine ⟨?_, hwhere⟩
    show (update s.workers w x w').inFlight = some i
    rw [update_of_ne hw, hflight]

end Workers

variable [DecidableEq H]

theorem Base.covered_iff (h : Base s) :
    Covered s ↔ ∀ w i, (s.workers w).inFlight = some i → i ∈ (vmsClientCancelAll s).2 := by
  constructor
  · intro hcov w i hi
    obtain ⟨hactive, k, hk, rfl⟩ := hcov w i hi
    exact mem_cancelAll.mpr ⟨k, hk, hactive⟩
  · intro hall w i hi
    obtain ⟨k, hk, hactive⟩ := mem_cancelAll.mp (hall w i hi)
    -- a statement is of one worker only
    obtain rfl : w = .conn k := by
      have hlive := (h.worker w).inFlight_live hi
      rw [(h.worker (.conn k)).active_live hactive] at hlive
      exact (Status.live.inj hlive).symm
    exact ⟨hactive, k, hk, rfl⟩

/-- What is published is never freed. -/
theorem Base.not_freed (h : Base s) {i : H} (hi : i ∈ (vmsClientCancelAll s).2) : s.handles i ≠ .freed := by
  obtain ⟨k, _, hactive⟩ := mem_cancelAll.mp hi
  rw [(h.worker (.conn k)).active_live hactive]
  simp

/-! ## The conditions on a step -/

/-- The statement that a step frees for its owner. -/
def State.frees (s : State K C H) : Action K C H → Option H
  | .work w _ => match (s.workers w).job with
      | .free h :: _ => some h
      | _ => none
  | .stmtFree h => match s.handles h with
      | .live w => if (s.workers w).uses h then none else some h
      | _ => none
  | _ => none

/-- A call is published when it is made, its connection is registered then, and stays so while it is in
    flight. -/
def Published (s : State K C H) : Action K C H → Prop
  | .work w _ => ∀ h, (s.workers w).enters = some h →
      (s.workers w).activeStmt = some h ∧ ∃ k ∈ s.registry, w = .conn k
  | .connRemove k => s.walk = none → (s.workers (.conn k)).inFlight = none
  | _ => True

/-- No statement is freed that the walk has read and not yet cancelled. -/
def Spares (s : State K C H) (i : Action K C H) : Prop := ∀ h, s.reads = some h → s.frees i ≠ some h

def Careful (s : State K C H) (i : Action K C H) : Prop := Published s i ∧ Spares s i

theorem Pending.alloc (h : Pending s) (i : H) (w : WorkerId K C) : Pending (s.setHandle i (.live w)) := by
  refine h.same rfl fun j _ hj => ?_
  show update s.handles i (.live w) j ≠ .freed
  by_cases hji : j = i
  · rw [hji, update_self]
    simp
  · rw [update_of_ne hji]
    exact hj

theorem pending_free (h : Pending s) (i : H) : Pending (s.setHandle i .freed) ↔ ∀ j, s.reads = some j → i ≠ j := by
  constructor
  · rintro hfree j hj rfl
    exact hfree i hj (update_self ..)
  · intro hother
    refine h.same rfl fun j hj hlive => ?_
    show update s.handles i .freed j ≠ .freed
    rw [update_of_ne (hother j hj).symm]
    exact hlive

theorem spares_of_none {i : Action K C H} (h : s.frees i = none) : Spares s i := by
  intro j _
  rw [h]
  simp

theorem spares_iff {i : Action K C H} {j : H} (h : s.frees i = some j) :
    Spares s i ↔ ∀ j', s.reads = some j' → j ≠ j' := by
  rw [Spares, h]
  simp

/-- What a careful run keeps. -/
structure Good (s : State K C H) : Prop where
  base : Base s
  covered : Covered s
  pending : Pending s

theorem Good.reaches (h : Good s) (hfollowed : Followed s) : Reaches s where
  inFlight := h.base.covered_iff.mp h.covered
  notFreed _ := h.base.not_freed
  pending := h.pending
  through _ hx hleft hread _ _ hi := hfollowed.through hx hleft hread hi

theorem base_start : Base ({} : State K C H) where
  worker _ := ok_idle rfl rfl rfl
  nodup := nodup_nil
  left := by simp
  reads := by simp [State.reads]

theorem good_start : Good ({} : State K C H) where
  base := base_start
  covered := by
    intro w i hi
    simp [Worker.inFlight] at hi
  pending := by simp [Pending, State.reads]

section Moves

variable [DecidableEq K] [DecidableEq C]

/-! ## Calls in flight -/

/-- A worker's step leaves the registry and the other workers alone. -/
theorem work_frame (s : State K C H) (w : WorkerId K C) (ok : Bool) :
    (s.work w ok).registry = s.registry ∧
      ∃ ok', (s.work w ok).workers = update s.workers w ((s.workers w).work ok') := by
  fun_cases State.work s w ok
  case case1 => exact ⟨rfl, true, rfl⟩
  case case2 => exact ⟨rfl, false, rfl⟩
  case case3 => exact ⟨rfl, ok, rfl⟩
  case case4 => split_ifs <;> exact ⟨rfl, ok, rfl⟩

/-- **A worker's step** keeps the cover exactly if the call it makes is covered. -/
theorem covered_work (hbase : Base s) (h : Covered s) (w : WorkerId K C) (ok : Bool) :
    Covered (s.work w ok) ↔ Published s (.work w ok) := by
  obtain ⟨hregistry, ok', hworkers⟩ := work_frame s w ok
  have hsteps := work_steps (hbase.worker w).shape (hbase.worker w).active ok'
  constructor
  · intro hcov i hi
    have hnew : ((s.work w ok).workers w) = (s.workers w).work ok' := by rw [hworkers, update_self]
    have hcover := hcov w i (by rw [hnew, hsteps.inFlight, hi])
    rw [hnew, hregistry, hsteps.keeps (by simp [hi])] at hcover
    exact hcover
  · intro hpub w' i
    rw [hregistry, hworkers]
    revert w'
    refine workers_moved
      (R := fun w' x => x.inFlight = some i → x.activeStmt = some i ∧ ∃ k ∈ s.registry, w' = .conn k) ?_ ?_
    · intro hi
      rw [hsteps.inFlight] at hi
      rw [hsteps.keeps (by simp [hi])]
      exact hpub i hi
    · exact fun w' _ hi => h w' i hi

theorem covered_step (hbase : Base s) (h : Covered s) (i : Action K C H) : Covered (step s i) ↔ Published s i := by
  fun_cases step s i
  case case1 k node hopen _ =>
    refine iff_of_true (h.move ?_ (setWorker_moves s rfl)) trivial
    cases node with
    | true => exact subset_cons_self k s.registry
    | false => exact List.Subset.refl _
  case case3 k hwalk =>
    rw [isNone_iff_eq_none] at hwalk
    constructor
    · intro hcov _
      by_contra hflight
      obtain ⟨i, hi⟩ := ne_none_iff_exists'.mp hflight
      obtain ⟨_, k', hk', heq⟩ := hcov (.conn k) i hi
      obtain rfl := WorkerId.conn.inj heq
      exact hbase.nodup.not_mem_erase hk'
    · intro hnone w i hi
      obtain ⟨hactive, k', hk', rfl⟩ := h w i hi
      have hne : k' ≠ k := by
        rintro rfl
        exact absurd ((hnone hwalk).symm.trans hi) (by simp)
      exact ⟨hactive, k', (mem_erase_of_ne hne).mpr hk', rfl⟩
  case case4 k hwalk => exact iff_of_true h fun hnone => absurd hnone (by simpa using hwalk)
  case case6 k _ => exact iff_of_true (h.move (by simp [stop_registry]) (stop_moves s _)) trivial
  case case8 => exact iff_of_true (h.move (List.Subset.refl _) (setWorker_moves s rfl)) trivial
  case case9 => exact iff_of_true (h.move (by simp [stop_registry]) (stop_moves s _)) trivial
  case case15 w j _ hsubmit =>
    simp only [Bool.and_eq_true, decide_eq_true_eq] at hsubmit
    have hjob : (s.workers w).job = [] := hsubmit.1.2
    have hstage := (hbase.worker w).shape.ready (by simp [hjob])
    have hidle := (of_ready (x := { s.workers w with job := j.ops }) hstage).1
    exact iff_of_true (h.move (List.Subset.refl _) (setWorker_moves s hidle)) trivial
  case case17 w ok => exact covered_work hbase h w ok
  all_goals exact iff_of_true h trivial

/-! ## The statement that was read -/

/-- The statements of a registered connection are not freed with another one. -/
theorem Pending.stop {s : State K C H} (h : Pending s) (hbase : Base s) {w : WorkerId K C}
    (hw : ∀ k ∈ s.registry, w ≠ .conn k) :
    Pending (s.stop w) := by
  unfold State.stop
  split_ifs
  · refine h.same rfl fun i hi hlive => ?_
    rcases hbase.reads i hi with hfreed | ⟨k, hk, hof⟩
    · exact absurd hfreed hlive
    · have hother : s.handles i ≠ .live w := by
        rw [hof]
        simpa using (hw k hk).symm
      simpa [hother] using hlive
  · exact h

/-- **A worker's step** spares what was read exactly if it does not free it. -/
theorem pending_work (h : Pending s) (w : WorkerId K C) (ok : Bool) :
    Pending (s.work w ok) ↔ Spares s (.work w ok) := by
  fun_cases State.work s w ok
  case case1 _ i _ hjob _ =>
    exact iff_of_true (h.alloc i w) (spares_of_none (by simp [State.frees, show (s.workers w).job = _ from hjob]))
  case case2 hjob _ =>
    exact iff_of_true h (spares_of_none (by simp [State.frees, show (s.workers w).job = _ from hjob]))
  case case3 _ i _ hjob =>
    rw [spares_iff (j := i) (by simp [State.frees, show (s.workers w).job = _ from hjob])]
    exact pending_free h i
  case case4 _ hfree =>
    refine iff_of_true ?_ (spares_of_none ?_)
    · split_ifs
      · exact h.same (clear_reads s w) fun _ _ hi => hi
      · exact h
    · rw [State.frees]
      split
      · exact (hfree _ _ (by assumption)).elim
      · rfl

theorem pending_step (hbase : Base s) (h : Pending s) (i : Action K C H) : Pending (step s i) ↔ Spares s i := by
  fun_cases step s i
  case case6 k hk =>
    exact iff_of_true (h.stop hbase fun k' hk' heq => hk ((WorkerId.conn.inj heq) ▸ hk')) (spares_of_none rfl)
  case case9 => exact iff_of_true (h.stop hbase (by simp)) (spares_of_none rfl)
  case case10 w i _ => exact iff_of_true (h.alloc i w) (spares_of_none rfl)
  case case12 i w hi huses => exact iff_of_true h (spares_of_none (by simp [State.frees, hi, huses]))
  case case13 i w hi huses =>
    rw [spares_iff (j := i) (by simp [State.frees, hi, huses])]
    exact pending_free h i
  case case14 i hi => exact iff_of_true h (spares_of_none (by cases hs : s.handles i <;> simp_all [State.frees]))
  case case17 w ok => exact pending_work h w ok
  case case18 | case22 | case24 => exact iff_of_true (by simp [Pending, State.reads]) (spares_of_none rfl)
  case case20 k left issued through hwalk =>
    refine iff_of_true (fun i hi => ?_) (spares_of_none rfl)
    exact hbase.not_freed (mem_cancelAll.mpr ⟨k, hbase.left _ hwalk k mem_cons_self, hi⟩)
  all_goals exact iff_of_true h (spares_of_none rfl)

/-! ## The walk -/

theorem Followed.work {s : State K C H} (h : Followed s) (w : WorkerId K C) (ok : Bool) : Followed (s.work w ok) := by
  fun_cases State.work s w ok
  case case4 =>
    split_ifs with hwaiting
    · exact h.back w _
    · refine h.move rfl (setWorker_idle s _ ?_)
      by_contra hflight
      obtain ⟨i, hi⟩ := ne_none_iff_exists'.mp hflight
      obtain ⟨_, _, _, hstage⟩ := inFlight_iff.mp hi
      exact hwaiting hstage
  case case1 x _ _ hjob _ | case2 x _ _ hjob _ | case3 x _ _ hjob =>
    have hidle : x.inFlight = none := by simp [Worker.inFlight, hjob]
    exact h.move rfl (setWorker_idle s _ hidle)

/-- **Every step** follows the calls, where all are covered. -/
theorem followed_step (hcov : Covered s) (h : Followed s) (i : Action K C H) : Followed (step s i) := by
  fun_cases step s i
  case case1 k node hopen _ =>
    simp only [Bool.and_eq_true] at hopen
    exact followed_none (isNone_iff_eq_none.mp hopen.1.1)
  case case6 | case9 => exact h.stop _
  case case8 c _ =>
    refine h.move rfl (setWorker_idle s _ ?_)
    -- what is in flight is covered, so it is not of a cursor
    by_contra hflight
    obtain ⟨i, hi⟩ := ne_none_iff_exists'.mp hflight
    obtain ⟨_, _, _, heq⟩ := hcov _ i hi
    cases heq
  case case15 w j _ hsubmit =>
    simp only [Bool.and_eq_true, decide_eq_true_eq] at hsubmit
    exact h.move rfl (setWorker_idle s _ (inFlight_nil hsubmit.1.2))
  case case17 w ok => exact h.work w ok
  case case18 hwalk =>
    intro x hx w i hi
    cases hx
    obtain ⟨_, k, hk, rfl⟩ := hcov w i hi
    exact ⟨hi, .inr (.inr ⟨k, hk, rfl⟩)⟩
  case case20 k left issued through hwalk =>
    intro x hx w i hi
    cases hx
    obtain ⟨hflight, hissued | hread | ⟨k', hk', rfl⟩⟩ := h _ hwalk w i hi
    · exact ⟨hflight, .inl hissued⟩
    · cases hread
    · rcases mem_cons.mp hk' with rfl | hk'
      · exact ⟨hflight, .inr (.inl (hcov _ i hflight).1)⟩
      · exact ⟨hflight, .inr (.inr ⟨k', hk', rfl⟩)⟩
  case case22 left j issued through hwalk =>
    intro x hx w i hi
    cases hx
    obtain ⟨hflight, hissued | hread | hleft⟩ := h _ hwalk w i hi
    · exact ⟨hflight, .inl (mem_append_left [j] hissued)⟩
    · cases hread
      exact ⟨hflight, .inl (mem_append_right issued (mem_singleton_self j))⟩
    · exact ⟨hflight, .inr (.inr hleft)⟩
  case case24 => exact followed_none rfl
  all_goals exact h

/-! ## The run -/

theorem good_step (h : Good s) (i : Action K C H) : Good (step s i) ↔ Careful s i := by
  constructor
  · intro hnext
    exact ⟨(covered_step h.base h.covered i).mp hnext.covered, (pending_step h.base h.pending i).mp hnext.pending⟩
  · rintro ⟨hpub, hspares⟩
    exact ⟨base_step h.base i, (covered_step h.base h.covered i).mpr hpub,
      (pending_step h.base h.pending i).mpr hspares⟩

/-- **When a cancel reaches what it should**: at every moment of a run, exactly if the run is careful. -/
theorem cancel_reaches_iff (acts : List (Action K C H)) :
    (∀ before after, acts = before ++ after → Reaches (run step ({} : State K C H) before)) ↔
      Along step Careful ({} : State K C H) acts := by
  have hgood := along_iff_keeps (fun s i (h : Good s) => good_step h i) acts good_start
  constructor
  · intro hreach
    refine hgood.mp fun before after hacts => ?_
    have hkeep : ∀ s i, Base s → Base (step s i : State K C H) := fun _ i h => base_step h i
    have hbase := run_keeps hkeep before base_start
    have hnow := hreach before after hacts
    exact ⟨hbase, hbase.covered_iff.mpr hnow.inFlight, hnow.pending⟩
  · rintro halong before after rfl
    refine (hgood.mpr halong before after rfl).reaches ?_
    -- along a careful run the walk loses no call
    have hkeep : ∀ (s : State K C H) i, Good s ∧ Followed s → Careful s i → Good (step s i) ∧ Followed (step s i) := by
      rintro s i ⟨hs, hfollowed⟩ hcareful
      exact ⟨(good_step hs i).mpr hcareful, followed_step hs.covered hfollowed i⟩
    exact (Along.keeps hkeep ⟨good_start, followed_none rfl⟩ (along_append.mp halong).1).2

end Moves

/-- A statement of a connection, up to where it waits for the server. -/
def executing : List (Action Nat Nat Nat) :=
  [.connOpen 0 true, .stmtAlloc (.conn 0) 7, .submit (.conn 0) (.exec 7), .work (.conn 0) true, .work (.conn 0) true]

theorem cancel_reaches_executing : ((run step {} executing).workers (.conn 0)).inFlight = some 7 ∧
      ∀ before after, executing ++ [.cancelBegin, .cancelVisit, .cancelIssue, .work (.conn 0) false, .cancelEnd] =
        before ++ after →
        Reaches (run step {} before) := by
  refine ⟨rfl, (cancel_reaches_iff _).mpr ?_⟩
  have hidle : ∀ {s : State Nat Nat Nat} {w : WorkerId Nat Nat} {ok : Bool}, (s.workers w).enters = none →
      Published s (.work w ok) := by
    intro s w ok hnone h hh
    exact absurd (hnone.symm.trans hh) (by simp)
  refine ⟨⟨trivial, spares_of_none rfl⟩, ⟨trivial, spares_of_none rfl⟩, ⟨trivial, spares_of_none rfl⟩,
    ⟨hidle rfl, spares_of_none rfl⟩, ⟨?_, spares_of_none rfl⟩, ⟨trivial, spares_of_none rfl⟩,
    ⟨trivial, spares_of_none rfl⟩, ⟨trivial, spares_of_none rfl⟩, ⟨hidle rfl, spares_of_none rfl⟩, ⟨trivial, spares_of_none rfl⟩, trivial⟩
  intro h hh
  cases hh
  exact ⟨rfl, 0, mem_singleton_self 0, rfl⟩

/-- The scan of a cursor with a connection of its own. -/
def scanning : List (Action Nat Nat Nat) :=
  [.connOpen 0 true, .cursorStart 1, .stmtAlloc (.cursor 1) 7, .submit (.cursor 1) (.fetch 7 2), .work (.cursor 1) true,
    .work (.cursor 1) true]

/-- `job_verify` on a registered connection. -/
def verifying : List (Action Nat Nat Nat) :=
  [.connOpen 0 true, .submit (.conn 0) (.verify 7), .work (.conn 0) true, .work (.conn 0) true]

/-- The statement returns and is freed while the walk is about to cancel it. -/
def freeing : List (Action Nat Nat Nat) :=
  executing ++ [.cancelBegin, .cancelVisit, .work (.conn 0) true, .work (.conn 0) true, .stmtFree 7]

/-- **What a cancel misses, and what it hits**: it misses the scan of a cursor with its own connection, the
    probe of `job_verify`, a statement of a connection without a node, and one of a connection that is being
    closed; and it hits a statement that was freed. -/
theorem cancel_misses :
    (((run step {} scanning).workers (.cursor 1)).inFlight = some 7 ∧
        vmsClientCancelAll (run step {} scanning) = (1, [])) ∧
    (((run step {} verifying).workers (.conn 0)).inFlight = some 7 ∧
        vmsClientCancelAll (run step {} verifying) = (1, [])) ∧
    (((run step {} (.connOpen 0 false :: executing)).workers (.conn 0)).inFlight = some 7 ∧
      vmsClientCancelAll (run step {} (.connOpen 0 false :: executing)) = (0, [])) ∧
    (((run step {} (executing ++ [.connRemove 0])).workers (.conn 0)).inFlight = some 7 ∧
      vmsClientCancelAll (run step {} (executing ++ [.connRemove 0])) = (0, [])) ∧
    (run step {} freeing).reads = some 7 ∧ (run step {} freeing).handles 7 = .freed ∧
    ¬ Reaches (run step {} scanning) ∧ ¬ Reaches (run step {} freeing) := by
  refine ⟨⟨rfl, rfl⟩, ⟨rfl, rfl⟩, ⟨rfl, rfl⟩, ⟨rfl, rfl⟩, rfl, rfl, fun h => ?_, fun h => h.pending 7 rfl rfl⟩
  exact absurd (h.inFlight (.cursor 1) 7 rfl) (by decide)

end VirtualMssql.Cancel
