import Gpq.Lifecycle.PoolSlots

/-!
# Runs of a Pool

Every operation on a pool takes it from a state of rest to one, wherever it is dropped and whatever
leases are dropped on the way, so what `Ok` and `Rest` say holds in every run:

* the slot is held at most once, and a lease that outlived its child frees nothing of the next one;
* the child that a pool owns is the only one that is there;
* what was advertised last is what the pool is;
* a pool that is parked, or shut down, stays so under maintenance, and a pool with nothing leased can
  serve.
-/

namespace Gpq

open Routine
open Relation (ReflTransGen)

namespace Pool

variable {pool pool' : Pool} {entry : PoolEntry} {p : ManagedProcess} {r : Bool}

/-! ## Operations -/

/-- A child that is taken out of a pool at rest. -/
theorem Rest.take (h : pool.Rest) (hp : pool.state.process = some p) {f : PoolState → PoolState}
    (hbusy : (f pool.state).busy = pool.state.busy) (hready : (f pool.state).ready = false)
    (htotal : (f pool.state).slotsTotal = 0) (hfree : (f pool.state).slotsFree = 0)
    (hprocess : (f pool.state).process = none) (hrestart : (f pool.state).restartRequested = r) :
    (pool.modifyState f).Down (some p) r where
  ok := h.ok.modifyState hbusy (by rw [htotal, hready]; rfl) (by rw [hfree, hready]; rfl)
  process := hprocess
  ready := hready
  children := by
    change pool.children = _
    rw [h.owned, hp]
  restart := hrestart

/-- A pool at rest without a child. -/
theorem Rest.vacant (h : pool.Rest) (hp : pool.state.process = none) :
    pool.Vacant pool.state.restartRequested :=
  ⟨⟨h.ok, hp, (h.idle hp).1, by rw [h.owned, hp], rfl⟩, (h.idle hp).2⟩

/-- A child that is terminated leaves a pool at rest, where the pool is to be started again or the
    reason parks it. -/
theorem terminate_rests {reason : String} (h : pool.Down (some p) r) (htold : pool.Told)
    (hparked : r = true ∨ reason ∈ parkedReasons) :
    Runs (terminateManagedProcess p reason) (fun _ s => s.Rest) pool := by
  refine wp_mono ?_ (terminateManagedProcess_runs h htold reason)
  intro gone s hs
  cases gone with
  | false => exact hs.1
  | true => exact hs.1.rest (hparked.imp id fun hr => ⟨reason, hr, hs.2⟩)

/-- A replacement is started in a vacant pool, which rests afterwards. -/
theorem startReplacement_runs (h : pool.Vacant r) :
    Runs (PoolSupervisor.startReplacement entry) (fun _ s => s.Rest) pool := by
  refine wp_bind (wp_mono ?_ (startPoolProcess_runs entry h))
  intro result s hs
  cases result with
  | error error => exact Stalled.toRest hs
  | ok =>
    refine wp_bind (wp_look (fun _ _ => Rest.around) hs (fun _ h => h.ok) fun s hs => ?_)
    dsimp only
    split
    · exact hs
    · exact hs

/-- A pool is recovered: a child that is left is terminated before another is started. -/
theorem recover_runs (h : pool.Rest) :
    Runs (PoolSupervisor.recover entry) (fun _ s => s.Rest) pool := by
  refine wp_bind (wp_locked (fun _ _ => Rest.around) h (fun _ h => h.ok) fun s hs => ?_)
  dsimp only
  cases hp : s.state.process with
  | none =>
    refine wp_bind (wp_alter (P := Vacant true) (fun _ _ => Vacant.around) ?_ (fun _ h => h.ok)
      fun s hs => startReplacement_runs hs.notify)
    have hvacant := hs.vacant hp
    exact ⟨⟨hs.ok.modifyState rfl rfl rfl, rfl, rfl, hvacant.children, rfl⟩, hvacant.nobody⟩
  | some p =>
    refine wp_bind (wp_alter (P := Down (some p) true) (fun _ _ => Down.around) ?_ (fun _ h => h.ok)
      fun s hs => ?_)
    · exact hs.take hp rfl rfl rfl rfl rfl rfl
    refine wp_bind (wp_mono ?_ (terminateManagedProcess_runs hs.notify told_notify _))
    intro gone s hs
    cases gone with
    | true => exact startReplacement_runs hs.1.toVacant
    | false => exact wp_bind (wp_look (fun _ _ => Rest.around) hs.1 (fun _ h => h.ok) fun s hs => hs)

/-! ## Slots -/

/-- The slot of a running child goes to an Attempt that has no lease. -/
theorem Rest.acquire (h : pool.Rest) {a : Uuid} {now : ℕ}
    (ha : ∀ lease ∈ pool.leases, lease.attemptId ≠ a)
    (hready : pool.state.ready) (hfree : pool.state.slotsFree ≠ 0) : Settled { pool with
      state := { pool.state with slotsFree := 0, busy := pool.state.busy ++ [a], lastActivity := now }
      leases := ⟨a, pool.state.process.map (·.generation)⟩ :: pool.leases } := by
  have hbusy : pool.state.busy = [] := by
    have := h.ok.free
    cases hlist : pool.state.busy with
    | nil => rfl
    | cons b rest => simp [this, hlist] at hfree
  obtain ⟨p, hp⟩ : ∃ p, pool.state.process = some p :=
    Option.ne_none_iff_exists'.1 fun hnone => by simp [(h.idle hnone).1] at hready
  have hchildren : pool.children = [p.generation] := by rw [h.owned, hp]; rfl
  have hnolease : ∀ lease ∈ pool.leases, lease.child ≠ some p.generation := fun lease hl hchild => by
    have := h.ok.leased p.generation (by simp [hchildren]) lease hl hchild
    simp [hbusy] at this
  exact {
    ok := {
      total := h.ok.total
      free := by
        change 0 = (pool.state.ready && (pool.state.busy ++ [a]).isEmpty).toNat
        rw [hbusy, List.nil_append, List.isEmpty_cons, Bool.and_false, Bool.toNat_false]
      busy := by simp [hbusy]
      alone := h.ok.alone
      older := h.ok.older
      olderLease := by
        simp only [List.forall_mem_cons]
        refine ⟨fun g hg => h.ok.older g ?_, h.ok.olderLease⟩
        simp_all
      attempts := by
        simp only [List.map_cons, List.nodup_cons]
        exact ⟨by simpa using ha, h.ok.attempts⟩
      leased := by
        simp only [hchildren, List.forall_mem_singleton, List.forall_mem_cons, hbusy]
        exact ⟨by simp, fun l hl hchild => absurd hchild (hnolease l hl)⟩
      held := by simp [hchildren, hbusy, hp] }
    owned := h.owned
    idle := fun hnone => absurd (hp.symm.trans hnone) (Option.some_ne_none p)
    pending := h.pending
    passing := h.passing
    failing := h.failing
    parked := fun hnone => absurd (hp.symm.trans hnone) (Option.some_ne_none p) }

/-- The Attempt has no lease. -/
def Apart (a : Uuid) (pool : Pool) : Prop := ∀ lease ∈ pool.leases, lease.attemptId ≠ a

theorem Apart.around {a : Uuid} (h : pool.Apart a) (ha : Around pool pool') : pool'.Apart a := by
  cases ha with
  | release => exact fun l hl => h l (List.mem_of_mem_erase hl)
  | notify => exact h

/-- The pool rests, and the Attempt has no lease. -/
structure Unleased (a : Uuid) (pool : Pool) : Prop extends pool.Rest where
  apart : pool.Apart a

theorem Unleased.around {a : Uuid} (h : pool.Unleased a) (ha : Around pool pool') :
    pool'.Unleased a :=
  ⟨h.toRest.around ha, h.apart.around ha⟩

/-- An Attempt without a lease takes the slot where it is free. -/
theorem acquireSlot_runs {a : Uuid} (h : pool.Unleased a) :
    Runs (PoolSupervisor.acquireSlot entry a) (fun _ s => s.Rest) pool := by
  refine wp_bind (wp_chosen (fun _ _ => Unleased.around) h (fun _ h => h.ok) fun now s hs => ?_)
  refine wp_bind (wp_locked (fun _ _ => Unleased.around) hs (fun _ h => h.ok) fun s hs => ?_)
  -- the slot is looked at and taken at once
  by_cases hfree : s.state.ready ∧ s.state.slotsFree ≠ 0
  · rw [PoolState.tryAcquire_free hfree.1 hfree.2]
    exact wp_bind (wp_alter (P := Settled) (fun _ _ => Settled.around)
      (hs.toRest.acquire hs.apart hfree.1 hfree.2) (fun _ h => h.ok) fun s hs => hs.rest)
  · rw [PoolState.tryAcquire_busy hfree]
    exact hs.toRest

section Leases

variable {a : Uuid}

theorem modifyState_keeps (f : PoolState → PoolState) : (alter (modifyState f)).Keeps (Apart a) :=
  keeps_alter fun _ h => h

theorem notify_keeps : (alter notify).Keeps (Apart a) := keeps_alter fun _ h => h

theorem markUnready_keeps (reason : String) : (markUnready reason).Keeps (Apart a) :=
  keeps_bind (modifyState_keeps _) fun _ => notify_keeps

/-- A termination gives nobody a lease. -/
theorem terminateManagedProcess_keeps (process : ManagedProcess) (reason : String) :
    (terminateManagedProcess process reason).Keeps (Apart a) := by
  refine keeps_bind ⟨fun answer s h => ?_, fun _ => trivial⟩ fun answer => ?_
  · cases answer with
    | ok => exact h
    | error => exact h
  cases answer with
  | ok => exact keeps_bind (modifyState_keeps _) fun _ =>
    keeps_bind (markUnready_keeps reason) fun _ => keeps_pure _
  | error =>
    exact keeps_bind (modifyState_keeps _) fun _ => keeps_bind (modifyState_keeps _) fun _ =>
      keeps_bind notify_keeps fun _ => keeps_pure _

/-- Nor does a start. -/
theorem startInferChild_keeps : startInferChild.Keeps (Apart a) := by
  refine keeps_bind ⟨fun answer s h => ?_, fun _ => trivial⟩ fun answer => ?_
  · cases answer with
    | ok => exact h
    | error => exact h
  cases answer with
  | error => exact keeps_pure _
  | ok process =>
    refine keeps_bind (modifyState_keeps _) fun _ => keeps_bind notify_keeps fun _ =>
      keeps_bind keeps_answer fun recorded => ?_
    cases recorded with
    | ok => exact keeps_bind (modifyState_keeps _) fun _ => keeps_pure _
    | error =>
      exact keeps_bind (modifyState_keeps _) fun _ => keeps_bind notify_keeps fun _ => keeps_pure _

/-- Nor does a probe. -/
theorem probePoolProcess_keeps (backend : Backend) :
    (probePoolProcess entry backend).Keeps (Apart a) := by
  refine keeps_bind keeps_answer fun attempts => ?_
  cases probeUntilReady entry none attempts with
  | error => exact keeps_bind (modifyState_keeps _) fun _ => keeps_bind notify_keeps fun _ =>
    keeps_pure _
  | ok =>
    exact keeps_bind keeps_chosen fun _ => keeps_bind (modifyState_keeps _) fun _ =>
      keeps_bind notify_keeps fun _ => keeps_pure _

/-- So a replacement does not. -/
theorem startReplacement_keeps : (PoolSupervisor.startReplacement entry).Keeps (Apart a) := by
  refine keeps_bind (keeps_bind (modifyState_keeps _) fun _ => keeps_bind notify_keeps fun _ =>
    keeps_bind keeps_chosen fun built => ?_) fun result => ?_
  · cases built with
    | error => exact keeps_pure _
    | ok backend =>
      refine keeps_bind keeps_chosen fun executable => ?_
      cases executable with
      | error => exact keeps_pure _
      | ok =>
        refine keeps_bind startInferChild_keeps fun result => ?_
        cases result with
        | error => exact keeps_pure _
        | ok => exact probePoolProcess_keeps backend
  · cases result with
    | error => exact keeps_pure _
    | ok =>
      refine keeps_bind (keeps_look _) fun found => ?_
      dsimp only
      split
      · exact keeps_pure _
      · exact keeps_pure _

/-- No step of a recovery leases a slot. -/
theorem recover_keeps : (PoolSupervisor.recover entry).Keeps (Apart a) := by
  refine keeps_bind (keeps_locked fun _ h => h) fun process => keeps_bind notify_keeps fun _ => ?_
  cases process with
  | none => exact startReplacement_keeps
  | some process =>
    refine keeps_bind (terminateManagedProcess_keeps process _) fun gone => ?_
    cases gone with
    | true => exact startReplacement_keeps
    | false => exact keeps_bind (keeps_look _) fun _ => keeps_pure _

end Leases

/-- Whoever asks for the slot leaves the pool at rest. -/
theorem ensureRuntimeAndAcquireSlot_runs {a : Uuid} (h : pool.Unleased a) (files : Files)
    (modelVersion : ContentHash) :
    Runs (PoolSupervisor.ensureRuntimeAndAcquireSlot files entry modelVersion a)
      (fun _ s => s.Rest) pool := by
  rw [PoolSupervisor.ensureRuntimeAndAcquireSlot]
  split
  · exact h.toRest
  refine wp_bind (wp_look (fun _ _ => Unleased.around) h (fun _ h => h.ok) fun s hs => ?_)
  dsimp only
  split
  · exact hs.toRest
  split
  · exact acquireSlot_runs hs
  · -- the Attempt has no lease after the recovery either
    refine wp_bind (wp_mono ?_
      (wp_frame (F := Apart a) (fun _ _ => Apart.around) recover_keeps
        (recover_runs hs.toRest) hs.apart))
    rintro result s ⟨hrest, hapart⟩
    cases result with
    | error error => exact hrest
    | ok => exact acquireSlot_runs ⟨hrest, hapart⟩

/-! ## Maintenance -/

/-- A pool at rest whose child does not go away by itself. -/
structure Served (pool : Pool) : Prop extends pool.Rest where
  process : pool.state.process.isSome

theorem Served.around (h : pool.Served) (ha : Around pool pool') : pool'.Served :=
  ⟨h.toRest.around ha, ha.process ▸ h.process⟩

/-- An idle child is terminated. -/
theorem unloadIdle_runs (h : pool.Served) :
    Runs PoolSupervisor.unloadIdle (fun _ s => s.Rest) pool := by
  refine wp_bind (wp_locked (fun _ _ => Served.around) h (fun _ h => h.ok) fun s hs => ?_)
  obtain ⟨p, hp⟩ := Option.isSome_iff_exists.1 hs.process
  dsimp only
  rw [hp]
  refine wp_bind (wp_alter (P := Down (some p) s.state.restartRequested) (fun _ _ => Down.around) ?_
    (fun _ h => h.ok) fun s hs => ?_)
  · exact hs.take hp rfl rfl rfl rfl rfl rfl
  · exact wp_discard (terminate_rests hs.notify told_notify (.inr (List.mem_cons_self ..)))

/-- An idle child releases its memory, or is terminated. -/
theorem releaseIdle_runs (h : pool.Rest) (now : ℕ) :
    Runs (PoolSupervisor.releaseIdle now) (fun _ s => s.Rest) pool := by
  refine wp_bind (wp_look (fun _ _ => Rest.around) h (fun _ h => h.ok) fun s hs => ?_)
  split
  swap
  · exact hs
  -- it has been idle for long enough, and there is a child
  rename_i hunload
  simp only [Bool.and_eq_true] at hunload
  refine wp_bind (wp_look (P := Served) (fun _ _ => Served.around) ⟨hs, hunload.1.1⟩ (fun _ h => h.ok)
    fun s hs => ?_)
  refine wp_bind (wp_mono (Q := fun _ => Served) ?_ ?_)
  · intro released s hs
    cases released with
    | true =>
      refine wp_alter (fun _ _ => Rest.around) hs.toRest (fun _ h => h.ok) fun s hs => ?_
      have hsettled : (s.modifyState fun state => { state with lastActivity := now }).Settled :=
        ⟨hs.ok.modifyState rfl hs.ok.total hs.ok.free, hs.owned, hs.idle, hs.pending, hs.passing,
          hs.failing, hs.parked⟩
      exact ⟨hsettled, hs.told⟩
    | false => exact unloadIdle_runs hs
  · cases s.state.backend with
    | none => exact hs
    | some backend =>
      exact wp_map
        (wp_answer (fun _ _ => Served.around) hs (fun _ h => h.ok) (fun _ h => h.toRest)
          fun _ s hs => hs)

/-- The child of a busy Attempt is terminated; for others nothing is done. -/
theorem forceReclaim_runs (h : pool.Rest) (a : Uuid) :
    Runs (PoolSupervisor.forceReclaim a) (fun _ s => s.Rest) pool := by
  refine wp_bind (wp_locked (fun _ _ => Rest.around) h (fun _ h => h.ok) fun s hs => ?_)
  by_cases hbusy : s.state.busy.contains a
  · rw [hbusy, Bool.not_true, if_neg Bool.false_ne_true]
    cases hp : s.state.process with
    | none => exact hs
    | some p =>
      dsimp only
      refine wp_bind (wp_alter (P := Down (some p) true) (fun _ _ => Down.around) ?_ (fun _ h => h.ok)
        fun s hs => wp_discard (terminate_rests hs.notify told_notify (.inl rfl)))
      exact hs.take hp rfl rfl rfl rfl rfl rfl
  · rw [Bool.not_eq_true] at hbusy
    rw [hbusy, Bool.not_false, if_pos rfl]
    exact hs

/-- A vacant pool is started again. -/
theorem restart_runs (h : pool.Vacant r) :
    Runs (PoolSupervisor.restart entry) (fun _ s => s.Rest) pool := by
  refine wp_bind (wp_mono ?_ (startPoolProcess_runs entry h))
  intro result s hs
  cases result with
  | ok => exact hs
  | error error =>
    refine wp_bind
      (wp_alter (P := Stalled) (fun _ _ => Stalled.around) hs (fun _ h => h.ok) fun s hs => ?_)
    exact wp_alter (P := Settled) (fun _ _ => Settled.around) (hs.because _) (fun _ h => h.ok)
      fun s hs => hs.rest

/-- A child that has exited leaves the pool settled; what it advertises is still to be told. -/
theorem noticeExit_settled (h : pool.Rest) (status : Option String) :
    (PoolSupervisor.noticeExit status pool).2.Settled ∧
      ((PoolSupervisor.noticeExit status pool).1 = none →
        (PoolSupervisor.noticeExit status pool).2.Rest) := by
  rw [PoolSupervisor.noticeExit]
  split
  · exact ⟨h.toSettled, fun _ => h⟩
  · rename_i status hstatus
    obtain ⟨p, hp, -⟩ := Option.bind_eq_some_iff.1 hstatus
    refine ⟨?_, fun hnone => absurd hnone (Option.some_ne_none status)⟩
    dsimp only
    exact {
      ok := h.ok.modifyState rfl rfl rfl
      owned := h.owned
      idle := fun hnone => absurd (hp.symm.trans hnone) (Option.some_ne_none p)
      pending := fun _ => ⟨rfl, rfl⟩
      passing := fun hready => absurd hready Bool.false_ne_true
      failing := fun hfail => absurd hfail Bool.noConfusion
      parked := fun _ => .inl rfl }

/-- A pool at rest whose child is to be terminated. -/
structure Pending (pool : Pool) : Prop extends pool.Served where
  terminates : pool.state.terminationPending

theorem Pending.around (h : pool.Pending) (ha : Around pool pool') : pool'.Pending :=
  ⟨h.toServed.around ha, ha.pending ▸ h.terminates⟩

/-- A termination that was left pending is finished, and the pool started again where it is to be. -/
theorem finishTermination_runs (h : pool.Pending) :
    Runs (PoolSupervisor.finishTermination entry) (fun _ s => s.Rest) pool := by
  refine wp_bind (wp_locked (fun _ _ => Pending.around) h (fun _ h => h.ok) fun s hs => ?_)
  obtain ⟨p, hp⟩ := Option.isSome_iff_exists.1 hs.process
  dsimp only
  rw [hp]
  have hready : s.state.ready = false := (hs.pending hs.terminates).1
  -- what is advertised stays as it was told
  have hdown : Down (some p) s.state.restartRequested
      (s.modifyState fun state => { state with process := none }) :=
    hs.take hp rfl hready (by rw [hs.ok.total, hready]; rfl) (by rw [hs.ok.free, hready]; rfl) rfl rfl
  refine wp_bind (wp_mono ?_ (terminateManagedProcess_runs hdown hs.told _))
  intro gone s hs
  cases gone with
  | false =>
    exact wp_bind (wp_look (P := Rest) (fun _ _ => Rest.around) hs.1 (fun _ h => h.ok) fun s hs => hs)
  | true =>
    refine wp_bind (wp_look (P := fun t => Gone _ t ∧ t.state.unreadyReason = _)
      (fun _ _ h ha => ⟨h.1.around ha, ha.unreadyReason.trans h.2⟩) hs (fun _ h => h.1.ok)
        fun t ht => ?_)
    split
    · exact restart_runs ht.1.toVacant
    · exact ht.1.rest (.inr ⟨_, by simp [parkedReasons], ht.2⟩)

/-- What is found is acted on. -/
theorem maintain_runs (h : pool.Rest) {terminatePending restartRequested : Bool}
    (hterminate : terminatePending → pool.state.terminationPending ∧ pool.state.process.isSome)
    (hrestart : restartRequested → pool.state.process = none) :
    Runs (PoolSupervisor.maintain entry terminatePending restartRequested)
      (fun _ s => s.Rest) pool := by
  rw [PoolSupervisor.maintain]
  split
  · rename_i hp
    exact finishTermination_runs ⟨⟨h, (hterminate hp).2⟩, (hterminate hp).1⟩
  split
  · rename_i hr
    exact restart_runs (h.vacant (hrestart hr))
  · exact h

/-- A look at the child leaves the pool at rest. -/
theorem checkProcessLiveness_runs (h : pool.Rest) :
    Runs (PoolSupervisor.checkProcessLiveness entry) (fun _ s => s.Rest) pool := by
  refine wp_bind (wp_chosen (fun _ _ => Rest.around) h (fun _ h => h.ok) fun status s hs => ?_)
  refine wp_bind (wp_locked (fun _ _ => Rest.around) hs (fun _ h => h.ok) fun s hs => ?_)
  obtain ⟨hsettled, hrest⟩ := noticeExit_settled hs status
  dsimp only
  generalize PoolSupervisor.noticeExit status s = found at hsettled hrest ⊢
  obtain ⟨exited, s⟩ := found
  dsimp only at hsettled hrest ⊢
  -- neither the child nor whether it is to be terminated changes before that is acted on
  have hgo : ∀ t : Pool, t.Rest → t.state.process = s.state.process →
      t.state.terminationPending = s.state.terminationPending →
      Runs (PoolSupervisor.maintain entry (s.state.terminationPending && s.state.process.isSome)
        (s.state.process.isNone && s.state.restartRequested)) (fun _ s => s.Rest) t := by
    intro t ht hprocess hpending
    refine maintain_runs ht (fun h => ?_) fun h => ?_
    · rwa [hpending, hprocess, ← Bool.and_eq_true]
    · rw [Bool.and_eq_true, Option.isNone_iff_eq_none] at h
      exact hprocess.trans h.1
  split
  · exact wp_bind (wp_alter
      (P := fun t => t.Settled ∧ t.state.process = s.state.process ∧
        t.state.terminationPending = s.state.terminationPending)
      (fun _ _ h ha => ⟨h.1.around ha, ha.process.trans h.2.1, ha.pending.trans h.2.2⟩)
      ⟨hsettled, rfl, rfl⟩ (fun _ h => h.1.ok) fun t ht => hgo _ ht.1.rest ht.2.1 ht.2.2)
  · rename_i hexited
    exact hgo s (hrest (Option.not_isSome_iff_eq_none.1 hexited)) rfl rfl

/-- A pool at rest whose child answers probes. -/
structure Probed (pool : Pool) : Prop extends pool.Served where
  steady : pool.state.terminationPending = false

theorem Probed.around (h : pool.Probed) (ha : Around pool pool') : pool'.Probed :=
  ⟨h.toServed.around ha, ha.pending.trans h.steady⟩

/-- A ready pool whose probe fails is told of with its reason, and keeps its probes. -/
theorem Probed.fail (h : pool.Probed) (error : BackendError) :
    (PoolSupervisor.probeFailed error pool).Rest := by
  rw [PoolSupervisor.probeFailed]
  split
  · rename_i hready
    have hpassed := (h.passing hready).1
    refine Settled.rest {
      ok := h.ok.modifyState rfl rfl rfl
      owned := h.owned
      idle := fun hnone => absurd hnone (Option.isSome_iff_ne_none.1 h.process)
      pending := fun hp => absurd (h.steady.symm.trans hp) Bool.false_ne_true
      passing := fun hready => absurd hready Bool.false_ne_true
      failing := fun hfail => ?_
      parked := fun hnone => absurd hnone (Option.isSome_iff_ne_none.1 h.process) }
    exact absurd (hfail.symm.trans hpassed) Bool.false_ne_true
  · exact h.toRest

/-- What a probe shows is taken over, and it is told of unless it was seen before. -/
theorem Probed.observe (h : pool.Probed) (observed : BackendCapabilities) :
    (pool.modifyState (PoolState.observe observed)).Settled ∧
      (PoolState.differs observed pool.state = false →
        (pool.modifyState (PoolState.observe observed)).Told) := by
  refine ⟨{
    ok := h.ok.modifyState rfl rfl rfl
    owned := h.owned
    idle := fun hnone => absurd hnone (Option.isSome_iff_ne_none.1 h.process)
    pending := fun hp => absurd (h.steady.symm.trans hp) Bool.false_ne_true
    passing := fun hready => ⟨hready, if_pos hready⟩
    failing := fun hfail => if_neg (Bool.eq_false_iff.1 hfail)
    parked := fun hnone => absurd hnone (Option.isSome_iff_ne_none.1 h.process) },
      fun hsame hzero => ?_⟩
  simp only [PoolState.differs, decide_eq_false_iff_not, not_or, not_not] at hsame
  obtain ⟨hready, hversion, haccelerator, -, hprobes⟩ := hsame
  -- the reason is the same as before, since it goes by the probes
  have hreason : pool.state.unreadyReason =
      if observed.probes.passed then none else some (Gpq.unreadyReason observed.probes) := by
    cases hpassed : observed.probes.passed with
    | true => exact (h.passing (hready.trans hpassed)).2
    | false => exact hprobes ▸ h.failing (by rw [hprobes, hpassed])
  have htotal : pool.state.slotsTotal = observed.probes.passed.toNat := by rw [h.ok.total, hready]
  change pool.seen = PoolAdvertisementData.mk _ _ _ _ _ _
  rw [h.told hzero, PoolState.capabilities, haccelerator, hversion, hready, hreason, htotal]
  rfl

/-- What a child says of itself is told if it differs. -/
theorem refreshCapabilities_runs (h : pool.Rest) :
    Runs PoolSupervisor.refreshCapabilities (fun _ s => s.Rest) pool := by
  refine wp_bind (wp_look (fun _ _ => Rest.around) h (fun _ h => h.ok) fun s hs => ?_)
  split
  · exact hs
  rename_i backend hbackend
  obtain ⟨p, hp, hsome⟩ := Option.bind_eq_some_iff.1 hbackend
  -- a child with a backend is not to be terminated
  have hprobed : s.Probed := by
    refine ⟨⟨hs, by simp [hp]⟩, ?_⟩
    by_contra hpending
    have := (hs.pending (Bool.eq_true_of_not_eq_false hpending)).2
    simp [hsome] at this
  refine wp_bind (wp_answer (fun _ _ => Probed.around) hprobed (fun _ h => h.ok) (fun _ h => h.toRest)
    fun observed s hs => ?_)
  cases observed with
  | error error =>
    exact wp_alter (fun _ _ => Probed.around) hs (fun _ h => h.ok) fun s hs => hs.fail error
  | ok observed =>
    refine wp_bind (wp_locked (fun _ _ => Probed.around) hs (fun _ h => h.ok) fun s hs => ?_)
    obtain ⟨hsettled, htold⟩ := hs.observe observed
    dsimp only
    split
    · exact wp_alter (P := Settled) (fun _ _ => Settled.around) hsettled (fun _ h => h.ok)
        fun s hs => hs.rest
    · rename_i hsame
      exact ⟨hsettled, htold (Bool.eq_false_iff.2 hsame)⟩

/-! ## Runs -/

variable (entry)

/-- What takes the lock of a pool without asking for its slot. -/
inductive Maintenance : Routine Pool Unit → Prop
  | releaseIdle (now : ℕ) : Maintenance (PoolSupervisor.releaseIdle now)
  | forceReclaim (attemptId : Uuid) : Maintenance (PoolSupervisor.forceReclaim attemptId)
  | checkProcessLiveness : Maintenance (PoolSupervisor.checkProcessLiveness entry)
  | refreshCapabilities : Maintenance PoolSupervisor.refreshCapabilities

/-- What takes the lock of a pool before the worker shuts down; the shutdown itself, after which a
    pool is never started again, is left out. An Attempt asks for the slot only while it holds no
    lease (`Apart`), as Remote names every Attempt anew and the worker runs it once: a slot is
    released by the identifier of its Attempt, so that a stale lease of an Attempt that asked again
    would free the slot that this Attempt was given. -/
inductive Operation : Pool → Routine Pool Unit → Prop
  | maintenance {pool : Pool} {x} (h : Maintenance entry x) : Operation pool x
  | ensure {pool : Pool} (files : Files) (modelVersion : ContentHash) {attemptId : Uuid}
    (h : pool.Apart attemptId) :
    Operation pool
      (discard (PoolSupervisor.ensureRuntimeAndAcquireSlot files entry modelVersion attemptId))

/-- A pool whose models were scanned. -/
def fresh (now : ℕ) : Pool where
  state := .notYetStarted now
  children := []
  spawned := 0
  leases := []
  dropping := 0
  seen := (PoolState.notYetStarted now).capabilities

/-- The first start, after which the pool is watched. -/
def launch : Routine Pool Unit := do
  PoolSupervisor.start entry
  alter notify

/-- The pool is about to be started. -/
def Launched (c : Locked Pool) : Prop := ∃ now, c = ⟨fresh now, some (launch entry)⟩

/-- What is reached by the operations of a pool, each of which may be dropped, among leases that are
    dropped. -/
abbrev Reachable : Locked Pool → Prop := Locked.Reachable (Launched entry) Around (Operation entry)

variable {entry}

/-- At first there is nothing. -/
theorem fresh_vacant (now : ℕ) : (fresh now).Vacant false where
  ok := {
    total := rfl
    free := rfl
    busy := Nat.zero_le 1
    alone := Nat.zero_le 1
    older := List.forall_mem_nil _
    olderLease := List.forall_mem_nil _
    attempts := .nil
    leased := List.forall_mem_nil _
    held := List.forall_mem_nil _ }
  process := rfl
  ready := rfl
  children := rfl
  restart := rfl
  nobody := rfl

/-- The first start leaves the pool settled, and then everything is told. -/
theorem launch_runs (now : ℕ) : Runs (launch entry) (fun _ s => s.Rest) (fresh now) := by
  refine wp_bind (wp_mono (Q := fun _ => Settled) (fun _ s hs => ?_) ?_)
  · exact wp_alter (fun _ _ => Settled.around) hs (fun _ h => h.ok) fun s hs => hs.rest
  refine wp_bind (wp_mono ?_ (startPoolProcess_runs entry (fresh_vacant now)))
  intro result s hs
  cases result with
  | ok => exact Rest.toSettled hs
  | error error =>
    exact wp_alter (P := Stalled) (fun _ _ => Stalled.around) hs (fun _ h => h.ok) fun s hs =>
      hs.because _

/-- Maintenance leaves the pool at rest. -/
theorem Maintenance.runs {x : Routine Pool Unit} (hx : Maintenance entry x) (h : pool.Rest) :
    Runs x (fun _ s => s.Rest) pool := by
  cases hx with
  | releaseIdle now => exact releaseIdle_runs h now
  | forceReclaim a => exact forceReclaim_runs h a
  | checkProcessLiveness => exact checkProcessLiveness_runs h
  | refreshCapabilities => exact refreshCapabilities_runs h

/-- So does every operation. -/
theorem Operation.runs {x : Routine Pool Unit} (hx : Operation entry pool x) (h : pool.Rest) :
    Runs x (fun _ s => s.Rest) pool := by
  cases hx with
  | maintenance hx => exact hx.runs h
  | ensure files modelVersion hapart =>
    exact wp_discard (ensureRuntimeAndAcquireSlot_runs ⟨h, hapart⟩ files modelVersion)

/-- `Ok` holds in every run, and `Rest` whenever no operation is under way. -/
theorem invariant {c : Locked Pool} (hc : Reachable entry c) :
    c.state.Ok ∧ (c.holder = none → c.state.Rest) := by
  have hinit : ∀ c, Launched entry c → c.Meets Around (fun s _ => s.Ok) Rest := by
    rintro c ⟨now, rfl⟩
    exact launch_runs now
  exact Locked.invariant hinit (fun s hs => hs.ok) (fun _ _ h => h) (fun _ _ => Rest.around)
    (fun s x hs (hx : Operation entry s x) => hx.runs hs) hc

/-- An operation that takes the free lock, and comes about. -/
theorem Reachable.run {s : Pool} {x : Routine Pool Unit} {Q : Pool → Prop}
    (hs : Reachable entry ⟨s, none⟩) (hx : Operation entry s x) (h : Can x (fun _ => Q) s) :
    ∃ s', Q s' ∧ Reachable entry ⟨s', none⟩ := by
  obtain ⟨s', hs', hrun⟩ := Locked.exists_run Around (Operation entry) h
  exact ⟨s', hs', hs.trans (hrun.head (.acquire hx))⟩

namespace Sample

/-- A pool that runs one model on the CPU. -/
def cpu : PoolEntry := ⟨"cpu", [⟨7, []⟩], "60s"⟩

/-- A pool whose first child is ready. -/
def running : Pool where
  state := {
    process := some ⟨100, 0, true⟩
    backend := some ⟨"token"⟩
    ready := true
    unreadyReason := none
    slotsTotal := 1
    slotsFree := 1
    restartRequested := false
    terminationPending := false
    busy := []
    accelerator := "cpu"
    acceleratorVersion := ""
    backendVersion := "1"
    probes := .none
    lastActivity := 0 }
  children := [0]
  spawned := 1
  leases := []
  dropping := 0
  seen := ⟨"cpu", "1", true, none, 1, []⟩

/-- An Attempt has its slot. -/
def leased : Pool := { running with
  state := { running.state with slotsFree := 0, busy := [1] }
  leases := [⟨1, some 0⟩]
  seen := ⟨"cpu", "1", true, none, 1, [1]⟩ }

theorem can_launch : Can (launch cpu) (fun _ s => s = running) (fresh 0) :=
  .intro (.ok ⟨"token"⟩) <| .intro (.ok ()) <| .intro (.ok 100) <| .intro (.ok ()) <|
    .intro [⟨.ok ⟨"1", "cpu", "", .none⟩, false⟩] <| .intro 0 rfl

theorem reachable_running : Reachable cpu ⟨running, none⟩ := by
  obtain ⟨s, rfl, hrun⟩ := Locked.exists_run Around (Operation cpu) can_launch
  exact (Machine.Reachable.init ⟨0, rfl⟩).trans hrun

/-- A lease is reached. -/
theorem reachable_leased : Reachable cpu ⟨leased, none⟩ := by
  have hapart : running.Apart 1 := List.forall_mem_nil _
  have hcan : Can (discard (PoolSupervisor.ensureRuntimeAndAcquireSlot (fun _ => none) cpu 7 1))
      (fun _ s => s = leased) running := .intro 0 rfl
  obtain ⟨s, rfl, hs⟩ := reachable_running.run (.ensure (fun _ => none) 7 hapart) hcan
  exact hs

/-- The child exits while the Attempt has its slot, and another one takes its place. -/
theorem exists_replaced : ∃ s, (s.leases = [⟨1, some 0⟩] ∧ s.children = [1]) ∧
    Reachable cpu ⟨s, none⟩ :=
  reachable_leased.run (.maintenance .checkProcessLiveness) <|
    .intro (some "signal: 9 (SIGKILL)") <| .intro (.ok ()) <| .intro (.ok ⟨"token"⟩) <|
      .intro (.ok ()) <|
      .intro (.ok 101) <| .intro (.ok ()) <| .intro [⟨.ok ⟨"1", "cpu", "", .none⟩, false⟩] <|
        .intro 0 ⟨rfl, rfl⟩

/-- The idle child is unloaded. -/
theorem exists_unloaded :
    ∃ s, (s.state.process = none ∧ s.state.restartRequested = false) ∧ Reachable cpu ⟨s, none⟩ :=
  reachable_running.run (.maintenance (.releaseIdle PoolSupervisor.IDLE_UNLOAD_AFTER)) <|
    .intro (.ok false) <| .intro (.ok ()) ⟨rfl, rfl⟩

end Sample

/-! ## The slot -/

/-- In every run the slots are counted by who is there: a ready pool has one, which is free unless an
    Attempt is busy, and of the leases on one child there is at most one. -/
theorem slot_exclusive {c : Locked Pool} (hc : Reachable entry c) :
    c.state.state.slotsTotal = c.state.state.ready.toNat ∧
    c.state.state.slotsFree = (c.state.state.ready && c.state.state.busy.isEmpty).toNat ∧
    c.state.state.busy.length ≤ 1 ∧
    ∀ g ∈ c.state.children, ∀ l ∈ c.state.leases, ∀ l' ∈ c.state.leases,
      l.child = some g → l'.child = some g → l = l' := by
  have h := (invariant hc).1
  refine ⟨h.total, h.free, h.busy, fun g hg l hl l' hl' hchild hchild' => ?_⟩
  refine h.lease_inj hl hl' ?_
  have hmem := h.leased g hg l hl hchild
  have hmem' := h.leased g hg l' hl' hchild'
  obtain ⟨b, hb⟩ := List.length_eq_one_iff.1 (h.busy.antisymm (List.length_pos_of_mem hmem))
  rw [hb, List.mem_singleton] at hmem hmem'
  rw [hmem, hmem']

theorem slot_exclusive_leased :
    Sample.leased.state.slotsTotal = Sample.leased.state.ready.toNat ∧
    Sample.leased.state.slotsFree =
      (Sample.leased.state.ready && Sample.leased.state.busy.isEmpty).toNat ∧
    Sample.leased.state.busy.length ≤ 1 ∧
    ∀ g ∈ Sample.leased.children, ∀ l ∈ Sample.leased.leases, ∀ l' ∈ Sample.leased.leases,
      l.child = some g → l'.child = some g → l = l' :=
  slot_exclusive Sample.reachable_leased

/-- In every run a lease that outlived its child frees nothing of the child that came after it. -/
theorem stale_release {c : Locked Pool} (hc : Reachable entry c) {lease : SlotLease}
    (hl : lease ∈ c.state.leases) {g : ℕ} (hg : g ∈ c.state.children)
    (hstale : lease.child ≠ some g) (now : ℕ) :
    c.state.state.release lease.attemptId now = { c.state.state with lastActivity := now } := by
  have h := (invariant hc).1
  have hbusy : lease.attemptId ∉ c.state.state.busy := fun ha => by
    obtain ⟨l, hl', heq, hchild⟩ := h.held g hg lease.attemptId ha
    exact hstale (h.lease_inj hl' hl heq ▸ hchild)
  have hfilter : c.state.state.busy.filter (· ≠ lease.attemptId) = c.state.state.busy :=
    List.filter_eq_self.2 fun a ha => decide_eq_true fun heq => hbusy (heq ▸ ha)
  rw [PoolState.release, hfilter, if_neg (Nat.lt_irrefl _)]

/-- A child that was replaced, with a lease on the former one. -/
theorem stale_release_replaced : ∃ s : Pool, s.children = [1] ∧
    s.state.release 1 5 = { s.state with lastActivity := 5 } := by
  obtain ⟨s, ⟨hleases, hchildren⟩, hs⟩ := Sample.exists_replaced
  refine ⟨s, hchildren,
    stale_release hs (?_ : ⟨1, some 0⟩ ∈ s.leases) (?_ : 1 ∈ s.children) (by simp) 5⟩
  · rw [hleases]
    exact List.mem_singleton_self _
  · rw [hchildren]
    exact List.mem_singleton_self _

/-! ## Between the operations -/

/-- Whenever no operation is under way, the process trees that are there are that of the child which
    the pool owns; and a pool that owns none is not ready, has nobody busy, and is to be started again
    or says why it is not. -/
theorem owns_children {c : Locked Pool} (hc : Reachable entry c) (hfree : c.holder = none) :
    c.state.children = c.state.state.process.toList.map ManagedProcess.generation ∧
    (c.state.state.process = none → c.state.state.ready = false ∧ c.state.state.busy = [] ∧
      (c.state.state.restartRequested ∨
        ∃ reason ∈ parkedReasons, c.state.state.unreadyReason = some reason)) := by
  have h := (invariant hc).2 hfree
  exact ⟨h.owned, fun hnone => ⟨(h.idle hnone).1, (h.idle hnone).2, h.parked hnone⟩⟩

theorem owns_children_running :
    Sample.running.children = Sample.running.state.process.toList.map ManagedProcess.generation ∧
    (Sample.running.state.process = none → Sample.running.state.ready = false ∧
      Sample.running.state.busy = [] ∧
      (Sample.running.state.restartRequested ∨
        ∃ reason ∈ parkedReasons, Sample.running.state.unreadyReason = some reason)) :=
  owns_children Sample.reachable_running rfl

/-- Whenever no operation is under way and no lease is being dropped, what was read when a change was
    last told of is what the pool is. -/
theorem advertised {c : Locked Pool} (hc : Reachable entry c) (hfree : c.holder = none)
    (hdropping : c.state.dropping = 0) : c.state.seen = c.state.state.capabilities :=
  ((invariant hc).2 hfree).told hdropping

theorem advertised_leased : Sample.leased.seen = Sample.leased.state.capabilities :=
  advertised Sample.reachable_leased rfl rfl

/-! ## Parked pools -/

/-- A pool that has no child and is not to be started. -/
structure Parked (n : ℕ) (pool : Pool) : Prop where
  process : pool.state.process = none
  ready : pool.state.ready = false
  restart : pool.state.restartRequested = false
  spawned : pool.spawned = n

theorem Parked.around {n : ℕ} (h : pool.Parked n) (ha : Around pool pool') : pool'.Parked n := by
  cases ha with
  | release => exact ⟨h.process, h.ready, h.restart, h.spawned⟩
  | notify => exact ⟨h.process, h.ready, h.restart, h.spawned⟩

/-- Maintenance of a parked pool starts nothing. -/
theorem Maintenance.parked {n : ℕ} {x : Routine Pool Unit} (hx : Maintenance entry x)
    (h : pool.Parked n) :
    Wp Around (fun s _ => s.Parked n) (Parked n) x (fun _ => Parked n) pool := by
  cases hx with
  | releaseIdle now =>
    refine wp_bind (wp_look (fun _ _ => Parked.around) h (fun _ h => h) fun s hs => ?_)
    rw [hs.process]
    exact hs
  | forceReclaim a =>
    refine wp_bind (wp_locked (fun _ _ => Parked.around) h (fun _ h => h) fun s hs => ?_)
    have hnone :
        (if (!s.state.busy.contains a) = true then ((none : Option ManagedProcess), s)
          else (none, s)) =
        (none, s) := ite_self _
    rw [hs.process]
    dsimp only
    rw [hnone]
    exact hs
  | checkProcessLiveness =>
    refine wp_bind (wp_chosen (fun _ _ => Parked.around) h (fun _ h => h) fun status s hs => ?_)
    refine wp_bind (wp_locked (fun _ _ => Parked.around) hs (fun _ h => h) fun s hs => ?_)
    have hnotice : PoolSupervisor.noticeExit status s = (none, s) := by
      rw [PoolSupervisor.noticeExit, hs.process, Option.bind_none]
    rw [hnotice]
    dsimp only
    rw [hs.process, hs.restart, Option.isSome_none, Option.isSome_none, Bool.and_false,
      Bool.and_false]
    exact hs
  | refreshCapabilities =>
    refine wp_bind (wp_look (fun _ _ => Parked.around) h (fun _ h => h) fun s hs => ?_)
    rw [hs.process]
    exact hs

/-- A parked pool stays as it is in every run of its maintenance. -/
theorem Parked.run {n : ℕ} {c c' : Locked Pool} (hfree : c.holder = none) (hparked : c.state.Parked n)
    (hrun : ReflTransGen (Locked.Next Around fun _ => Maintenance entry) c c') :
    c'.state.Parked n := by
  have hmeets : c.Meets Around (fun s _ => s.Parked n) (Parked n) := by
    rw [Locked.Meets, hfree]
    exact hparked
  have hstable : ∀ s s', Parked n s → Around s s' → Parked n s' := fun _ _ => Parked.around
  have hmeets' : c'.Meets Around (fun s _ => s.Parked n) (Parked n) :=
    hmeets.run hstable (fun s x hs (hx : Maintenance entry x) => hx.parked hs) hrun
  exact Locked.Meets.always (Parked n) (fun _ hs => hs) (fun _ _ hs => hs) hmeets'

/-- A pool that rests without a child, and is not to be started, stays without one, and unready, under
    any maintenance: only an Attempt that asks for its slot starts it. -/
theorem parked_stays {c c' : Locked Pool} (hc : Reachable entry c) (hfree : c.holder = none)
    (hprocess : c.state.state.process = none) (hrestart : c.state.state.restartRequested = false)
    (hrun : ReflTransGen (Locked.Next Around fun _ => Maintenance entry) c c') :
    c'.state.state.process = none ∧ c'.state.state.ready = false ∧
    c'.state.spawned = c.state.spawned := by
  have hrest := (invariant hc).2 hfree
  have hparked : c.state.Parked c.state.spawned :=
    ⟨hprocess, (hrest.idle hprocess).1, hrestart, rfl⟩
  have h := hparked.run hfree hrun
  exact ⟨h.process, h.ready, h.spawned⟩

theorem parked_stays_unloaded : ∃ s : Pool, s.state.process = none ∧ s.state.ready = false := by
  obtain ⟨s, ⟨hprocess, hrestart⟩, hs⟩ := Sample.exists_unloaded
  obtain ⟨hnone, hready, -⟩ :=
    parked_stays hs rfl hprocess hrestart (.single (.acquire .checkProcessLiveness))
  exact ⟨s, hnone, hready⟩

/-- Whoever gives up a lease leaves a parked pool as it is. -/
theorem parked_around {s s' : Pool} (h : s.Parked s.spawned) (haround : Around s s') :
    s'.Parked s'.spawned := by
  have h' := h.around haround
  exact ⟨h'.process, h'.ready, h'.restart, rfl⟩

/-- A shutdown takes the child, and with it what would start another, at once; only then it waits. -/
theorem shutdown_parks (pool : Pool) :
    Wp Around (fun _ _ => True) (fun _ => True) PoolSupervisor.shutdown
    (fun _ s => s.Parked s.spawned) pool := by
  have hstable : ∀ s s' : Pool, (s.state.process = none ∧ s.state.restartRequested = false) →
      Around s s' →
      s'.state.process = none ∧ s'.state.restartRequested = false := by
    intro s s' h ha
    cases ha with
    | release => exact h
    | notify => exact h
  have hmark : ∀ s : Pool, (s.state.process = none ∧ s.state.restartRequested = false) →
      Wp Around (fun _ _ => True) (fun _ => True) (markUnready "worker shutting down")
        (fun _ s => s.Parked s.spawned) s := fun s hs =>
    wp_bind (wp_alter hstable hs (fun _ _ => trivial) fun s hs =>
      wp_alter (fun _ _ => parked_around) ⟨rfl, rfl, hs.2, rfl⟩ (fun _ _ => trivial)
        fun s hs => ⟨hs.process, hs.ready, hs.restart, rfl⟩)
  refine wp_bind (wp_locked (P := fun _ => True) (fun _ _ _ _ => trivial) trivial (fun _ _ => trivial)
    fun s _ => ?_)
  dsimp only
  cases s.state.process with
  | none => exact hmark _ ⟨rfl, rfl⟩
  | some p =>
    -- the tree may withstand its termination: the pool forgets it all the same
    refine wp_bind (wp_discard (wp_await hstable ⟨rfl, rfl⟩ (fun _ _ => trivial) (fun _ _ => trivial)
      fun answer s hs => ⟨trivial, hmark _ ?_⟩))
    cases answer with
    | ok => exact hs
    | error => exact hs

/-- From whatever state a pool is shut down, among leases that are dropped meanwhile, and whether or
    not its child could be terminated, it has no child afterwards, and maintenance never starts one
    again. -/
theorem shutdown_stays {pool pool' : Pool}
    (hshutdown : EndsAmong Around PoolSupervisor.shutdown pool () pool') {c : Locked Pool}
    (hrun : ReflTransGen (Locked.Next Around fun _ => Maintenance entry) ⟨pool', none⟩ c) :
    c.state.state.process = none ∧ c.state.state.ready = false ∧ c.state.spawned = pool'.spawned := by
  have hkept : ∀ (_ : Unit) (s s' : Pool), s.Parked s.spawned → Around s s' → s'.Parked s'.spawned :=
    fun _ _ _ => parked_around
  have hparked : pool'.Parked pool'.spawned := (shutdown_parks pool).endsAmong hkept hshutdown
  have h := hparked.run rfl hrun
  exact ⟨h.process, h.ready, h.spawned⟩

/-- A pool is shut down whose child withstands its termination. -/
theorem shutdown_stays_running :
    ∃ pool' : Pool, Routine.Ends PoolSupervisor.shutdown Sample.running () pool' ∧
    pool'.state.process = none ∧ pool'.state.ready = false := by
  have hcan : Can PoolSupervisor.shutdown (fun _ _ => True) Sample.running := by
    refine can_bind (can_locked ?_)
    exact can_bind (can_discard ⟨.error "", can_bind (can_alter (can_alter trivial))⟩)
  obtain ⟨_, pool', hend, -⟩ := exists_ends hcan
  obtain ⟨hnone, hready, -⟩ := @shutdown_stays Sample.cpu _ _ (hend.among Around) _
    (.single (.acquire .checkProcessLiveness))
  exact ⟨pool', hend, hnone, hready⟩

/-! ## Recovery -/

/-- What an Attempt that asks for the slot needs. -/
def Free (s : Pool) : Prop := s.state.ready ∧ s.state.slotsFree ≠ 0

/-- A child may be spawned and recorded. -/
theorem can_startInferChild (s : Pool) : Can startInferChild (fun result _ => result = .ok ()) s := by
  refine can_bind ⟨.ok 0, ?_⟩
  exact can_bind
    (can_alter (can_bind (can_alter (can_bind (can_answer (.ok ()) (can_bind (can_alter rfl)))))))

/-- A child that passes every probe makes the pool ready. -/
theorem can_probePoolProcess (backend : Backend) (s : Pool) :
    Can (probePoolProcess entry backend) (fun result s => result = .ok () ∧ s.Free) s := by
  refine can_bind (can_answer [⟨.ok ⟨"", "", "", .none⟩, false⟩] ?_)
  refine can_bind (can_chosen 0 (can_bind (can_alter (can_bind (can_alter ?_)))))
  exact ⟨rfl, rfl, Nat.one_ne_zero⟩

/-- A replacement may be started, and ready, wherever one may be. -/
theorem can_startReplacement (s : Pool) :
    Can (PoolSupervisor.startReplacement entry) (fun result s => result = .ok () ∧ s.Free) s := by
  refine can_bind (can_mono (Q := fun result s => result = .ok () ∧ s.Free) ?_ ?_)
  · rintro result s ⟨rfl, hfree⟩
    refine can_bind (can_look ?_)
    rw [hfree.1]
    exact ⟨rfl, hfree⟩
  · -- the backend is built, the executable found, the child started and probed
    refine can_bind (can_alter (can_bind (can_alter (can_bind (can_chosen (.ok ⟨""⟩) ?_)))))
    refine can_bind (can_chosen (.ok ()) (can_bind (can_mono ?_ (can_startInferChild _))))
    rintro result s rfl
    exact can_probePoolProcess _ s

/-- The child of a pool may be terminated, and another one started. -/
theorem can_recover (s : Pool) :
    Can (PoolSupervisor.recover entry) (fun result s => result = .ok () ∧ s.Free) s := by
  refine can_bind (can_locked (can_bind (can_alter ?_)))
  dsimp only
  cases s.state.process with
  | none => exact can_startReplacement _
  | some p =>
    refine can_bind (can_mono (Q := fun gone _ => gone = true) ?_ ?_)
    · rintro gone s rfl
      exact can_startReplacement s
    · refine can_bind ⟨.ok (), can_bind (can_alter (can_bind ?_))⟩
      exact can_bind (can_alter (can_alter rfl))

/-- A free slot may be taken. -/
theorem can_acquireSlot {a : Uuid} {s : Pool} (h : s.Free) :
    Can (PoolSupervisor.acquireSlot entry a)
      (fun _ s => ∃ lease ∈ s.leases, lease.attemptId = a) s := by
  refine can_bind (can_chosen 0 (can_bind (can_locked ?_)))
  rw [PoolState.tryAcquire_free h.1 h.2]
  exact can_bind (can_alter ⟨_, List.mem_cons_self .., rfl⟩)

/-- An idle pool may serve an Attempt whose model is there. -/
theorem can_ensureRuntimeAndAcquireSlot {files : Files} {modelVersion : ContentHash} {a : Uuid}
    {s : Pool} (hs : s.Rest) (hmodel : PoolSupervisor.findModel files entry modelVersion = .ok ())
    (hbusy : s.state.busy = []) :
    Can (PoolSupervisor.ensureRuntimeAndAcquireSlot files entry modelVersion a)
      (fun _ s => ∃ lease ∈ s.leases, lease.attemptId = a) s := by
  rw [PoolSupervisor.ensureRuntimeAndAcquireSlot, hmodel]
  dsimp only
  refine can_bind (can_look ?_)
  rw [hbusy, List.isEmpty_nil, Bool.not_true, Bool.and_false]
  cases hrunning : s.state.process.isSome && s.state.ready with
  | true =>
    have hready : s.state.ready := (Bool.and_eq_true_iff.1 hrunning).2
    refine can_acquireSlot ⟨hready, ?_⟩
    rw [hs.ok.free, hready, hbusy]
    exact Nat.one_ne_zero
  | false =>
    refine can_bind (can_mono ?_ (can_recover s))
    rintro result s ⟨rfl, hfree⟩
    exact can_acquireSlot hfree

/-- Without a lease nobody is busy. -/
theorem Rest.nobody (h : pool.Rest) (hleases : pool.leases = []) : pool.state.busy = [] := by
  cases hp : pool.state.process with
  | none => exact (h.idle hp).2
  | some p =>
    refine List.eq_nil_iff_forall_not_mem.2 fun a ha => ?_
    obtain ⟨lease, hl, -⟩ := h.ok.held p.generation (by simp [h.owned, hp]) a ha
    exact List.not_mem_nil (hleases ▸ hl)

/-- Every lease may be dropped. -/
theorem exists_unleased (pool : Pool) : ∃ pool' : Pool, pool'.leases = [] ∧
    ReflTransGen Around pool pool' := by
  generalize hleases : pool.leases = leases
  induction leases generalizing pool with
  | nil => exact ⟨pool, hleases, .refl⟩
  | cons lease leases ih =>
    obtain ⟨pool', hnone, hpath⟩ := ih { pool with
      state := pool.state.release lease.attemptId 0
      leases := pool.leases.erase lease
      dropping := pool.dropping + 1 } (by rw [hleases, List.erase_cons_head])
    exact ⟨pool', hnone, hpath.head (.release pool lease 0 (by simp [hleases]))⟩

/-- The slot of a pool is never lost: whenever no operation is under way, what is leased may be given
    back, and then any Attempt may be given the slot, with a child that is started anew where none is
    running. -/
theorem serves_again {c : Locked Pool} (hc : Reachable entry c) (hfree : c.holder = none)
    (files : Files) (modelVersion : ContentHash)
    (hmodel : PoolSupervisor.findModel files entry modelVersion = .ok ()) (a : Uuid) :
    ∃ c', ReflTransGen (Locked.Next Around (Operation entry)) c c' ∧ c'.holder = none ∧
      ∃ lease ∈ c'.state.leases, lease.attemptId = a := by
  obtain ⟨pool, holder⟩ := c
  obtain rfl : holder = none := hfree
  obtain ⟨pool', hnone, hpath⟩ := exists_unleased pool
  have hrest : pool'.Rest :=
    stable_path (P := Rest) (fun _ _ => Rest.around) ((invariant hc).2 rfl) hpath
  have hapart : pool'.Apart a := by
    rw [Apart, hnone]
    exact List.forall_mem_nil _
  obtain ⟨s, hs, hrun⟩ := Locked.exists_run Around (Operation entry)
    (can_discard (can_ensureRuntimeAndAcquireSlot hrest hmodel (hrest.nobody hnone)))
  have hdrops := Locked.run_around (Operation entry) hpath none
  exact ⟨⟨s, none⟩, hdrops.trans (hrun.head (.acquire (.ensure files modelVersion hapart))), rfl, hs⟩

theorem serves_again_leased :
    ∃ c', ReflTransGen (Locked.Next Around (Operation Sample.cpu)) ⟨Sample.leased, none⟩ c' ∧
      c'.holder = none ∧
      ∃ lease ∈ c'.state.leases, lease.attemptId = 2 :=
  serves_again Sample.reachable_leased rfl (fun _ => none) 7 rfl 2

end Pool

end Gpq
