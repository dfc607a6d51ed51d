import Gpq.Worker.Pool

/-!
# Slots of a Pool

A pool among everything that may happen to it: its operations under the lock, each of which may be
dropped at any of its awaits, and leases that are dropped at any time, also long after the child
they were acquired on is gone.

* `Ok` holds at every moment: the two slot counters say what `ready` and `busy` say, at most one
  process tree is there, and the Attempts that are busy are those of the leases on it;
* `Rest` holds whenever no operation is under way.
-/

namespace Gpq

open Routine

namespace PoolState

variable {state : PoolState} {a : Uuid} {now : ℕ}

theorem tryAcquire_free (hready : state.ready) (hfree : state.slotsFree ≠ 0) :
    state.tryAcquire a now =
    (true, { state with slotsFree := 0, busy := state.busy ++ [a], lastActivity := now }) := by
  rw [tryAcquire, if_neg (by simp [hready, hfree])]

theorem tryAcquire_busy (h : ¬(state.ready ∧ state.slotsFree ≠ 0)) :
    state.tryAcquire a now = (false, state) := by
  refine if_pos ?_
  cases hready : state.ready with
  | false => rfl
  | true => simpa [hready] using h

/-- With one Attempt at most, the one that releases leaves nobody busy. -/
theorem release_slotsFree (htotal : state.slotsTotal = state.ready.toNat)
    (hfree : state.slotsFree = (state.ready && state.busy.isEmpty).toNat)
    (hbusy : state.busy.length ≤ 1) :
    (state.release a now).slotsFree = (state.ready && (state.release a now).busy.isEmpty).toNat := by
  simp only [release]
  rcases hlist : state.busy with _ | ⟨b, _ | ⟨c, rest⟩⟩
  · simp [hfree, hlist]
  · by_cases hb : b = a
    · cases hready : state.ready <;> simp [hb, htotal, hready]
    · simp [hb, hfree, hlist]
  · simp [hlist] at hbusy

end PoolState

namespace Pool

/-- What holds of a pool at every moment. -/
structure Ok (pool : Pool) : Prop where
  total : pool.state.slotsTotal = pool.state.ready.toNat
  free : pool.state.slotsFree = (pool.state.ready && pool.state.busy.isEmpty).toNat
  busy : pool.state.busy.length ≤ 1
  alone : pool.children.length ≤ 1
  older : ∀ g ∈ pool.children, g < pool.spawned
  olderLease : ∀ lease ∈ pool.leases, ∀ g, lease.child = some g → g < pool.spawned
  attempts : (pool.leases.map SlotLease.attemptId).Nodup
  /-- A lease on the child that is there is busy. -/
  leased : ∀ g ∈ pool.children, ∀ lease ∈ pool.leases, lease.child = some g →
    lease.attemptId ∈ pool.state.busy
  /-- Who is busy has a lease on the child that is there. -/
  held : ∀ g ∈ pool.children, ∀ a ∈ pool.state.busy, ∃ lease ∈ pool.leases, lease.attemptId = a ∧
    lease.child = some g

variable {pool pool' : Pool} {f : PoolState → PoolState}

/-- Leases of one Attempt are one lease. -/
theorem Ok.lease_inj (h : pool.Ok) {l l' : SlotLease} (hl : l ∈ pool.leases) (hl' : l' ∈ pool.leases)
    (heq : l.attemptId = l'.attemptId) : l = l' :=
  List.inj_on_of_nodup_map h.attempts hl hl' heq

theorem Ok.notify (h : pool.Ok) : pool.notify.Ok :=
  ⟨h.total, h.free, h.busy, h.alone, h.older, h.olderLease, h.attempts, h.leased, h.held⟩

/-- A change that leaves who is busy, and counts the slots by it. -/
theorem Ok.modifyState (h : pool.Ok) (hbusy : (f pool.state).busy = pool.state.busy)
    (htotal : (f pool.state).slotsTotal = (f pool.state).ready.toNat)
    (hfree : (f pool.state).slotsFree = ((f pool.state).ready && (f pool.state).busy.isEmpty).toNat) :
    (pool.modifyState f).Ok where
  total := htotal
  free := hfree
  busy := (congrArg List.length hbusy).trans_le h.busy
  alone := h.alone
  older := h.older
  olderLease := h.olderLease
  attempts := h.attempts
  leased g hg lease hlease hchild := hbusy.symm ▸ h.leased g hg lease hlease hchild
  held g hg a ha := h.held g hg a (hbusy ▸ ha)

/-- A change that leaves nobody busy, where no lease is on a child that is there. -/
theorem Ok.vacate (h : pool.Ok)
    (hunleased : ∀ g ∈ pool.children, ∀ lease ∈ pool.leases, lease.child ≠ some g)
    (hbusy : (f pool.state).busy = [])
    (htotal : (f pool.state).slotsTotal = (f pool.state).ready.toNat)
    (hfree : (f pool.state).slotsFree = (f pool.state).ready.toNat) : (pool.modifyState f).Ok where
  total := htotal
  free := by
    change (f pool.state).slotsFree = ((f pool.state).ready && (f pool.state).busy.isEmpty).toNat
    rw [hfree, hbusy, List.isEmpty_nil, Bool.and_true]
  busy := (congrArg List.length hbusy).trans_le (Nat.zero_le 1)
  alone := h.alone
  older := h.older
  olderLease := h.olderLease
  attempts := h.attempts
  leased g hg lease hlease hchild := absurd hchild (hunleased g hg lease hlease)
  held g hg a ha := by
    rw [Pool.modifyState, hbusy] at ha
    exact absurd ha List.not_mem_nil

/-- The process tree of the last child is gone. -/
theorem Ok.bury (h : pool.Ok) {children : List ℕ} (hchildren : children = []) :
    Ok { pool with children } where
  total := h.total
  free := h.free
  busy := h.busy
  alone := hchildren ▸ Nat.zero_le 1
  older := hchildren ▸ List.forall_mem_nil _
  olderLease := h.olderLease
  attempts := h.attempts
  leased := hchildren ▸ List.forall_mem_nil _
  held := hchildren ▸ List.forall_mem_nil _

/-- Around the operations a lease is dropped: its slot is freed, and that of no other Attempt. -/
theorem Ok.around (h : pool.Ok) (ha : Around pool pool') : pool'.Ok := by
  cases ha with
  | notify hd =>
    exact ⟨h.total, h.free, h.busy, h.alone, h.older, h.olderLease, h.attempts, h.leased, h.held⟩
  | release lease now hlease =>
    have hmem : ∀ l, l ∈ pool.leases.erase lease ↔ l ∈ pool.leases ∧ l ≠ lease := fun l => by
      rw [(List.Nodup.of_map _ h.attempts).mem_erase_iff, and_comm]
    have hother : ∀ l ∈ pool.leases, l ≠ lease → l.attemptId ≠ lease.attemptId :=
      fun l hl hne heq => hne (h.lease_inj hl hlease heq)
    exact {
      total := h.total
      free := PoolState.release_slotsFree h.total h.free h.busy
      busy := (List.length_filter_le _ _).trans h.busy
      alone := h.alone
      older := h.older
      olderLease := fun l hl => h.olderLease l (List.mem_of_mem_erase hl)
      attempts := h.attempts.sublist (List.erase_sublist.map _)
      leased := fun g hg l hl hchild => by
        obtain ⟨hl, hne⟩ := (hmem l).1 hl
        exact List.mem_filter.2 ⟨h.leased g hg l hl hchild, by simpa using hother l hl hne⟩
      held := fun g hg a ha => by
        obtain ⟨ha, hne⟩ := List.mem_filter.1 ha
        obtain ⟨l, hl, rfl, hchild⟩ := h.held g hg a ha
        refine ⟨l, (hmem l).2 ⟨hl, ?_⟩, rfl, hchild⟩
        rintro rfl
        simp at hne }

/-! ## Where an operation may be -/

theorem Around.process (ha : Around pool pool') : pool'.state.process = pool.state.process := by
  cases ha with
  | release => rfl
  | notify => rfl

theorem Around.pending (ha : Around pool pool') :
    pool'.state.terminationPending = pool.state.terminationPending := by
  cases ha with
  | release => rfl
  | notify => rfl

theorem Around.unreadyReason (ha : Around pool pool') :
    pool'.state.unreadyReason = pool.state.unreadyReason := by
  cases ha with
  | release => rfl
  | notify => rfl

/-- Where no lease is being dropped, who was told last has seen what is advertised. -/
def Told (pool : Pool) : Prop := pool.dropping = 0 → pool.seen = pool.state.capabilities

theorem told_around (ha : Around pool pool') : pool'.Told := by
  cases ha with
  | release lease now hlease => exact fun hzero => absurd hzero (Nat.succ_ne_zero _)
  | notify hd => exact fun _ => rfl

theorem told_notify : pool.notify.Told := fun _ => rfl

/-- An operation has taken the child `p` out of the pool, or there is none. -/
structure Down (p : Option ManagedProcess) (restarts : Bool) (pool : Pool) : Prop where
  ok : pool.Ok
  process : pool.state.process = none
  ready : pool.state.ready = false
  children : pool.children = p.toList.map ManagedProcess.generation
  restart : pool.state.restartRequested = restarts

/-- A pool that is down stays so when leases are dropped. -/
theorem Down.around {p : Option ManagedProcess} {r : Bool} (h : pool.Down p r)
    (ha : Around pool pool') :
    pool'.Down p r := by
  have hok := h.ok.around ha
  cases ha with
  | release => exact ⟨hok, h.process, h.ready, h.children, h.restart⟩
  | notify => exact ⟨hok, h.process, h.ready, h.children, h.restart⟩

theorem Down.notify {p : Option ManagedProcess} {r : Bool} (h : pool.Down p r) :
    pool.notify.Down p r :=
  ⟨h.ok.notify, h.process, h.ready, h.children, h.restart⟩

/-- There is no child, and nobody is busy. -/
structure Vacant (restarts : Bool) (pool : Pool) : Prop extends pool.Down none restarts where
  nobody : pool.state.busy = []

theorem Vacant.around {r : Bool} (h : pool.Vacant r) (ha : Around pool pool') : pool'.Vacant r := by
  refine ⟨h.toDown.around ha, ?_⟩
  cases ha with
  | release => exact List.filter_eq_nil_iff.2 (h.nobody ▸ List.forall_mem_nil _)
  | notify => exact h.nobody

theorem Vacant.notify {r : Bool} (h : pool.Vacant r) : pool.notify.Vacant r :=
  ⟨⟨h.ok.notify, h.process, h.ready, h.children, h.restart⟩, h.nobody⟩

/-- There is no child, and nothing is left of the one before. -/
structure Cleared (restarts : Bool) (pool : Pool) : Prop extends pool.Vacant restarts where
  backend : pool.state.backend = none
  probes : pool.state.probes = .none
  pending : pool.state.terminationPending = false

theorem Cleared.around {r : Bool} (h : pool.Cleared r) (ha : Around pool pool') :
    pool'.Cleared r := by
  have hvacant := h.toVacant.around ha
  cases ha with
  | release => exact ⟨hvacant, h.backend, h.probes, h.pending⟩
  | notify => exact ⟨hvacant, h.backend, h.probes, h.pending⟩

/-- There is no child, and this was told. -/
structure Gone (restarts : Bool) (pool : Pool) : Prop extends pool.Cleared restarts where
  told : pool.Told

theorem Gone.around {r : Bool} (h : pool.Gone r) (ha : Around pool pool') : pool'.Gone r :=
  ⟨h.toCleared.around ha, told_around ha⟩

theorem Cleared.notify {r : Bool} (h : pool.Cleared r) : pool.notify.Gone r :=
  ⟨⟨⟨⟨h.ok.notify, h.process, h.ready, h.children, h.restart⟩, h.nobody⟩, h.backend, h.probes,
    h.pending⟩, told_notify⟩

/-- Why a pool that has no child is not to be started again. -/
def parkedReasons : List String :=
  ["idle: native inference child unloaded", "native inference child tree terminated"]

/-- What holds of a pool between the operations, save that it was told of. -/
structure Settled (pool : Pool) : Prop where
  ok : pool.Ok
  owned : pool.children = pool.state.process.toList.map ManagedProcess.generation
  idle : pool.state.process = none → pool.state.ready = false ∧ pool.state.busy = []
  pending : pool.state.terminationPending → pool.state.ready = false ∧ pool.state.backend = none
  passing : pool.state.ready → pool.state.probes.passed ∧ pool.state.unreadyReason = none
  failing : pool.state.probes.passed = false →
    pool.state.unreadyReason = some (unreadyReason pool.state.probes)
  parked : pool.state.process = none → pool.state.restartRequested ∨
    ∃ reason ∈ parkedReasons, pool.state.unreadyReason = some reason

/-- A settled pool stays so when leases are dropped. -/
theorem Settled.around (h : pool.Settled) (ha : Around pool pool') : pool'.Settled := by
  have hok := h.ok.around ha
  cases ha with
  | release lease now =>
    refine ⟨hok, h.owned, fun hnone => ⟨(h.idle hnone).1, ?_⟩, h.pending, h.passing, h.failing,
      h.parked⟩
    exact List.filter_eq_nil_iff.2 ((h.idle hnone).2 ▸ List.forall_mem_nil _)
  | notify => exact ⟨hok, h.owned, h.idle, h.pending, h.passing, h.failing, h.parked⟩

theorem Settled.notify (h : pool.Settled) : pool.notify.Settled :=
  ⟨h.ok.notify, h.owned, h.idle, h.pending, h.passing, h.failing, h.parked⟩

/-- What holds of a pool between the operations. -/
structure Rest (pool : Pool) : Prop extends pool.Settled where
  told : pool.Told

theorem Rest.around (h : pool.Rest) (ha : Around pool pool') : pool'.Rest :=
  ⟨h.toSettled.around ha, told_around ha⟩

theorem Settled.rest (h : pool.Settled) : pool.notify.Rest := ⟨h.notify, told_notify⟩

/-- A child was spawned that the pool does not own yet. -/
structure Spawned (p : ManagedProcess) (pool : Pool) : Prop extends pool.Down (some p) true where
  backend : pool.state.backend = none
  probes : pool.state.probes = .none
  unleased : ∀ g ∈ pool.children, ∀ lease ∈ pool.leases, lease.child ≠ some g

/-- A new child is nobody's while leases are dropped. -/
theorem Spawned.around {p : ManagedProcess} (h : pool.Spawned p) (ha : Around pool pool') :
    pool'.Spawned p := by
  have hdown := h.toDown.around ha
  cases ha with
  | release lease now =>
    exact ⟨hdown, h.backend, h.probes, fun g hg l hl => h.unleased g hg l (List.mem_of_mem_erase hl)⟩
  | notify => exact ⟨hdown, h.backend, h.probes, h.unleased⟩

/-- No lease is as young as a child that is just spawned. -/
theorem Cleared.spawn (h : pool.Cleared true) (p : ManagedProcess)
    (hp : p.generation = pool.spawned) :
    Spawned p { pool with
      children := pool.spawned :: pool.children
      spawned := pool.spawned + 1 } where
  ok := {
    total := h.ok.total
    free := h.ok.free
    busy := h.ok.busy
    alone := by simp [h.children]
    older := by simp [h.children]
    olderLease := fun l hl g hg => (h.ok.olderLease l hl g hg).trans (Nat.lt_succ_self _)
    attempts := h.ok.attempts
    leased := by
      simp only [h.children, Option.toList_none, List.map_nil, List.forall_mem_singleton]
      exact fun l hl hchild => absurd (h.ok.olderLease l hl _ hchild) (Nat.lt_irrefl _)
    held := by simp [h.nobody] }
  process := h.process
  ready := h.ready
  children := by simp [h.children, hp]
  restart := h.restart
  backend := h.backend
  probes := h.probes
  unleased := by
    simp only [h.children, Option.toList_none, List.map_nil, List.forall_mem_singleton]
    exact fun l hl hchild => absurd (h.ok.olderLease l hl _ hchild) (Nat.lt_irrefl _)

/-- A child is there, without a lease, and the pool is not ready. -/
structure Starting (pool : Pool) : Prop extends pool.Settled where
  process : pool.state.process.isSome
  unready : pool.state.ready = false
  backend : pool.state.backend = none
  probes : pool.state.probes = .none
  unleased : ∀ g ∈ pool.children, ∀ lease ∈ pool.leases, lease.child ≠ some g

/-- So is one that starts. -/
theorem Starting.around (h : pool.Starting) (ha : Around pool pool') : pool'.Starting := by
  have hsettled := h.toSettled.around ha
  cases ha with
  | release lease now =>
    exact ⟨hsettled, h.process, h.unready, h.backend, h.probes,
      fun g hg l hl => h.unleased g hg l (List.mem_of_mem_erase hl)⟩
  | notify => exact ⟨hsettled, h.process, h.unready, h.backend, h.probes, h.unleased⟩

theorem Starting.notify (h : pool.Starting) : pool.notify.Starting ∧ pool.notify.Told :=
  ⟨⟨h.toSettled.notify, h.process, h.unready, h.backend, h.probes, h.unleased⟩, told_notify⟩

/-- The pool owns the child. -/
theorem Spawned.starting {p : ManagedProcess} (h : pool.Spawned p) :
    (pool.modifyState fun state => { state with
      process := some p
      terminationPending := true
      unreadyReason := some "native inference child readiness probe pending" }).Starting where
  ok := h.ok.modifyState rfl h.ok.total h.ok.free
  owned := h.children
  idle hnone := absurd hnone (Option.some_ne_none p)
  pending _ := ⟨h.ready, h.backend⟩
  passing hready := absurd (h.ready.symm.trans hready) Bool.false_ne_true
  failing hfail := by
    change pool.state.probes.passed = false at hfail
    simp [h.probes, Probes.passed, Probes.none] at hfail
  parked hnone := absurd hnone (Option.some_ne_none p)
  process := rfl
  unready := h.ready
  backend := h.backend
  probes := h.probes
  unleased := h.unleased

/-- Another reason for not being ready. -/
theorem Starting.because (h : pool.Starting) (reason : String) :
    (pool.modifyState fun state => { state with unreadyReason := some reason }).Starting where
  ok := h.ok.modifyState rfl h.ok.total h.ok.free
  owned := h.owned
  idle := h.idle
  pending := h.pending
  passing hready := absurd (h.unready.symm.trans hready) Bool.false_ne_true
  failing hfail := by
    change pool.state.probes.passed = false at hfail
    simp [h.probes, Probes.passed, Probes.none] at hfail
  parked hnone := absurd hnone (Option.isSome_iff_ne_none.1 h.process)
  process := h.process
  unready := h.unready
  backend := h.backend
  probes := h.probes
  unleased := h.unleased

/-- The child is identified. -/
theorem Starting.identify (h : pool.Starting) : (pool.modifyState fun state => { state with
      process := state.process.map fun process => { process with identified := true } }).Starting
        where
  ok := h.ok.modifyState rfl h.ok.total h.ok.free
  owned := by
    change pool.children = (pool.state.process.map _).toList.map ManagedProcess.generation
    rw [h.owned]
    cases pool.state.process <;> rfl
  idle hnone := h.idle (Option.map_eq_none_iff.1 hnone)
  pending := h.pending
  passing := h.passing
  failing := h.failing
  parked hnone := h.parked (Option.map_eq_none_iff.1 hnone)
  process := Option.isSome_map.trans h.process
  unready := h.unready
  backend := h.backend
  probes := h.probes
  unleased := h.unleased

/-- The child has answered what it can do. -/
theorem Starting.probed (h : pool.Starting) (backend : Backend) (capabilities : BackendCapabilities)
    (now : ℕ) :
    (pool.modifyState fun state => { state with
      restartRequested := false
      terminationPending := false
      backend := some backend
      ready := capabilities.probes.passed
      unreadyReason := if capabilities.probes.passed then none
        else some (unreadyReason capabilities.probes)
      slotsTotal := capabilities.probes.passed.toNat
      slotsFree := capabilities.probes.passed.toNat
      busy := []
      accelerator := capabilities.accelerator
      acceleratorVersion := capabilities.acceleratorVersion
      backendVersion := capabilities.version
      probes := capabilities.probes
      lastActivity := now }).Settled where
  ok := h.ok.vacate h.unleased rfl rfl rfl
  owned := h.owned
  idle hnone := absurd hnone (Option.isSome_iff_ne_none.1 h.process)
  pending hpending := absurd hpending Bool.false_ne_true
  passing hready := ⟨hready, if_pos hready⟩
  failing hfail := if_neg (Bool.eq_false_iff.1 hfail)
  parked hnone := absurd hnone (Option.isSome_iff_ne_none.1 h.process)

/-! ## Children -/

section Children

variable {p : ManagedProcess} {r : Bool}

/-- A routine of a pool meets `Q`, whatever happens around it and wherever it is dropped. -/
abbrev Runs {α : Type} (x : Routine Pool α) (Q : α → Pool → Prop) : Pool → Prop :=
  Wp Around (fun s _ => s.Ok) Rest x Q

/-- A pool that is down is cleared, and says why. -/
theorem markUnready_runs (h : pool.Down none r) (reason : String) :
    Runs (markUnready reason) (fun _ s =>
    s.Gone r ∧ s.state.unreadyReason = some reason) pool := by
  refine wp_bind (wp_alter (fun _ _ => Down.around) h (fun _ h => h.ok) fun s hs => ?_)
  -- without a child no lease is on one
  have hnone : ∀ g ∈ s.children, ∀ lease ∈ s.leases, lease.child ≠ some g := by
    rw [hs.children]
    exact List.forall_mem_nil _
  exact wp_alter (P := fun s => s.Cleared r ∧ s.state.unreadyReason = some reason)
    (fun s s' hs ha => ⟨hs.1.around ha, ha.unreadyReason.trans hs.2⟩)
    ⟨⟨⟨⟨hs.ok.vacate hnone rfl rfl rfl, rfl, rfl, hs.children, hs.restart⟩, rfl⟩, rfl, rfl, rfl⟩, rfl⟩
    (fun _ h => h.1.ok) fun s hs => ⟨hs.1.notify, hs.2⟩

/-- The guard gives the child back. -/
theorem Down.restore (h : pool.Down (some p) r) (interrupted : Bool) :
    (pool.modifyState (TerminatingProcessGuard.restore p interrupted)).Settled where
  ok := h.ok.modifyState rfl rfl rfl
  owned := h.children
  idle hnone := absurd hnone (Option.some_ne_none p)
  pending _ := ⟨rfl, rfl⟩
  passing hready := absurd hready Bool.false_ne_true
  failing hfail := absurd hfail Bool.noConfusion
  parked hnone := absurd hnone (Option.some_ne_none p)

/-- The tree of a child that was taken out of the pool is gone, or the child is back. -/
theorem terminateManagedProcess_runs (h : pool.Down (some p) r) (htold : pool.Told)
    (reason : String) :
    Runs (terminateManagedProcess p reason) (fun gone s =>
      if gone then s.Gone r ∧ s.state.unreadyReason = some reason
      else s.Rest ∧ s.state.process.isSome) pool := by
  have hstable : ∀ s s', s.Down (some p) r ∧ s.Told → Around s s' → s'.Down (some p) r ∧ s'.Told :=
    fun _ _ h ha => ⟨h.1.around ha, told_around ha⟩
  refine wp_bind (wp_await hstable ⟨h, htold⟩ (fun _ h => h.1.ok)
    (fun s hs => (hs.1.restore true).rest)
    fun answer s hs => ⟨hs.1.ok, ?_⟩)
  cases answer with
  | ok _ =>
    have hdown : Down none r { s with children := s.children.erase p.generation } := by
      have hchildren : s.children.erase p.generation = [] := by
        rw [hs.1.children]
        exact List.erase_cons_head ..
      exact ⟨hs.1.ok.bury hchildren, hs.1.process, hs.1.ready, hchildren, hs.1.restart⟩
    refine wp_bind (wp_alter (fun _ _ => Down.around) hdown (fun _ h => h.ok) fun s hs => ?_)
    have hpending : Down none r
        (s.modifyState fun state => { state with terminationPending := false }) :=
      ⟨hs.ok.modifyState rfl hs.ok.total hs.ok.free, hs.process, hs.ready, hs.children, hs.restart⟩
    refine wp_bind (wp_mono ?_ (markUnready_runs hpending reason))
    exact fun _ s hs => hs
  | error error =>
    refine wp_bind (wp_alter hstable hs (fun _ h => h.1.ok) fun s hs => ?_)
    refine wp_bind (wp_alter (P := Down (some p) r) (fun _ _ => Down.around)
      ⟨hs.1.ok.modifyState rfl rfl rfl, hs.1.process, rfl, hs.1.children,
        hs.1.restart⟩ (fun _ h => h.ok)
      fun s hs => ?_)
    refine wp_bind (wp_alter (P := fun s => s.Settled ∧ s.state.process.isSome) ?_
      ⟨hs.restore false, rfl⟩
      (fun _ h => h.1.ok) fun s hs => ⟨hs.1.rest, hs.2⟩)
    exact fun s s' hs ha => ⟨hs.1.around ha, ha.process ▸ hs.2⟩

/-- A pool without a child rests, where it is to be started again or has been parked. -/
theorem Gone.rest (h : pool.Gone r)
    (hparked : r = true ∨ ∃ reason ∈ parkedReasons, pool.state.unreadyReason = some reason) :
    pool.Rest where
  ok := h.ok
  owned := by rw [h.children, h.process]
  idle _ := ⟨h.ready, h.nobody⟩
  pending hp := by simp [h.pending] at hp
  passing hready := by simp [h.ready] at hready
  failing hfail := by simp [h.probes, Probes.passed, Probes.none] at hfail
  parked _ := by rwa [h.restart]
  told := h.told

/-- A pool rests unready, with nothing left of a child that answered. -/
structure Stalled (pool : Pool) : Prop extends pool.Rest where
  unready : pool.state.ready = false
  probes : pool.state.probes = .none
  restart : pool.state.process = none → pool.state.restartRequested

theorem Gone.stalled (h : pool.Gone true) : pool.Stalled :=
  ⟨h.rest (.inl rfl), h.ready, h.probes, fun _ => h.restart⟩

theorem Starting.stalled (h : pool.Starting) (htold : pool.Told) : pool.Stalled :=
  ⟨⟨h.toSettled, htold⟩, h.unready, h.probes, fun hnone => by simpa [hnone] using h.process⟩

theorem Stalled.around (h : pool.Stalled) (ha : Around pool pool') : pool'.Stalled := by
  have hrest := h.toRest.around ha
  cases ha with
  | release => exact ⟨hrest, h.unready, h.probes, h.restart⟩
  | notify => exact ⟨hrest, h.unready, h.probes, h.restart⟩

/-- Another reason for not being ready, where a child may be missing. -/
theorem Stalled.because (h : pool.Stalled) (reason : String) :
    (pool.modifyState fun state => { state with unreadyReason := some reason }).Settled where
  ok := h.ok.modifyState rfl h.ok.total h.ok.free
  owned := h.owned
  idle := h.idle
  pending := h.pending
  passing hready := absurd (h.unready.symm.trans hready) Bool.false_ne_true
  failing hfail := by
    change pool.state.probes.passed = false at hfail
    simp [h.probes, Probes.passed, Probes.none] at hfail
  parked hnone := .inl (h.restart hnone)

/-- What is left of an attempt to start: `P`, or a pool that has stalled. -/
def Tried (P : Pool → Prop) : Except BackendError Unit → Pool → Prop
  | .ok (), pool => P pool
  | .error _, pool => pool.Stalled

/-- A child is spawned into a pool without one. -/
theorem startInferChild_runs (h : pool.Gone true) :
    Runs startInferChild (Tried fun s => s.Starting ∧ s.Told) pool := by
  refine wp_bind (wp_await (fun _ _ => Gone.around) h (fun _ h => h.ok)
    (fun s hs => hs.stalled.toRest)
    fun answer s hs => ⟨hs.ok, ?_⟩)
  cases answer with
  | error error => exact hs.stalled
  | ok pid =>
    have hspawned : Spawned ⟨pid, s.spawned, false⟩ _ :=
      hs.toCleared.spawn ⟨pid, s.spawned, false⟩ rfl
    refine wp_bind (wp_alter (P := Spawned ⟨pid, s.spawned, false⟩) (fun _ _ => Spawned.around)
      hspawned (fun _ h => h.ok) fun s hs => ?_)
    refine wp_bind (wp_alter (P := Starting) (fun _ _ => Starting.around) hs.starting
      (fun _ h => h.ok) fun s hs => ?_)
    -- the child has been told of when its identity is recorded
    have htold : ∀ s s', s.Starting ∧ s.Told → Around s s' → s'.Starting ∧ s'.Told :=
      fun _ _ h ha => ⟨h.1.around ha, told_around ha⟩
    refine wp_bind (wp_answer htold hs.notify (fun _ h => h.1.ok) (fun s hs => ⟨hs.1.toSettled, hs.2⟩)
      fun answer s hs => ?_)
    cases answer with
    | error error =>
      refine wp_bind (wp_alter htold hs (fun _ h => h.1.ok) fun s hs => ?_)
      exact wp_bind (wp_alter (P := Starting) (fun _ _ => Starting.around) (hs.1.because error)
        (fun _ h => h.ok)
        fun s hs => hs.notify.1.stalled hs.notify.2)
    | ok =>
      exact wp_bind (wp_alter htold hs (fun _ h => h.1.ok) fun s hs => ⟨hs.1.identify, hs.2⟩)

/-- A child that is probed is ready at the end, or is given up. -/
theorem probePoolProcess_runs (entry : PoolEntry) (backend : Backend) (h : pool.Starting)
    (htold : pool.Told) :
    Runs (probePoolProcess entry backend) (Tried Rest) pool := by
  refine wp_bind (wp_answer (P := fun s => s.Starting ∧ s.Told)
    (fun _ _ h ha => ⟨h.1.around ha, told_around ha⟩) ⟨h, htold⟩ (fun _ h => h.1.ok)
    (fun s hs => ⟨hs.1.toSettled, hs.2⟩) fun attempts s hs => ?_)
  cases probeUntilReady entry none attempts with
  | error error =>
    refine wp_bind
      (wp_alter (P := Starting) (fun _ _ => Starting.around) hs.1 (fun _ h => h.ok) fun s hs => ?_)
    exact wp_bind (wp_alter (P := Starting) (fun _ _ => Starting.around) (hs.because _)
      (fun _ h => h.ok)
      fun s hs => hs.notify.1.stalled hs.notify.2)
  | ok capabilities =>
    refine wp_bind
      (wp_chosen (P := Starting) (fun _ _ => Starting.around) hs.1 (fun _ h => h.ok)
        fun now s hs => ?_)
    refine wp_bind
      (wp_alter (P := Starting) (fun _ _ => Starting.around) hs (fun _ h => h.ok) fun s hs => ?_)
    exact wp_bind (wp_alter (P := Settled) (fun _ _ => Settled.around)
      (hs.probed backend capabilities now)
      (fun _ h => h.ok) fun s hs => hs.rest)

/-- A pool without a child is started, or rests where it is to be started again. -/
theorem startPoolProcess_runs (entry : PoolEntry) (h : pool.Vacant r) :
    Runs (startPoolProcess entry) (Tried Rest) pool := by
  refine wp_bind
    (wp_alter (P := Vacant r) (fun _ _ => Vacant.around) h (fun _ h => h.ok) fun s hs => ?_)
  have hcleared : Cleared true (s.modifyState fun state => { state with
      restartRequested := true
      terminationPending := false
      backend := none
      ready := false
      slotsTotal := 0
      slotsFree := 0
      probes := .none
      unreadyReason := some "native inference child startup pending" }) :=
    ⟨⟨⟨hs.ok.modifyState rfl rfl rfl, hs.process, rfl, hs.children, rfl⟩, hs.nobody⟩, rfl, rfl, rfl⟩
  refine wp_bind (wp_alter (fun _ _ => Cleared.around) hcleared (fun _ h => h.ok) fun s hs => ?_)
  refine wp_bind (wp_chosen (fun _ _ => Gone.around) hs.notify (fun _ h => h.ok) fun built s hs => ?_)
  cases built with
  | error error => exact hs.stalled
  | ok backend =>
    refine wp_bind (wp_chosen (fun _ _ => Gone.around) hs (fun _ h => h.ok) fun executable s hs => ?_)
    cases executable with
    | error error => exact hs.stalled
    | ok =>
      refine wp_bind (wp_mono ?_ (startInferChild_runs hs))
      intro result s hs
      cases result with
      | error error => exact hs
      | ok => exact probePoolProcess_runs entry backend hs.1 hs.2

end Children

end Pool

end Gpq
