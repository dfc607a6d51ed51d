import Gpq.Lib.Routine
import Gpq.Worker.Models
import Gpq.Worker.Native

/-!
# Device Pools

The supervision of one Device Pool (`pool.rs`): the managed `gpq infer` child, its one execution
slot, and the operations that change both. The operations of a pool take its `op_lock`, so they run
one at a time; each critical section of theirs is one lock of the pool's state, and an operation can
be dropped at each of its awaits. A `SlotLease` is dropped at any time, without the lock.
-/

namespace Gpq

open Routine

/-! ## State -/

/-- The probes of a backend, in the order of their names. -/
structure Probes where
  entries : List (String × Bool)
  sorted : entries.Pairwise fun a b => a.1 < b.1
  deriving DecidableEq

namespace Probes

/-- No probe has run. -/
def none : Probes := ⟨[], .nil⟩

/-- Whether every probe passed. -/
def passed (probes : Probes) : Bool := probes.entries.all (·.2)

end Probes

/-- What a child says of itself. -/
structure BackendCapabilities where
  version : String
  accelerator : String
  acceleratorVersion : String
  probes : Probes

/-- A managed child. -/
structure ManagedProcess where
  pid : UInt32
  /-- How many children the pool had before it. -/
  generation : ℕ
  identified : Bool

/-- A handle of the child's control protocol. -/
structure Backend where
  token : String

/-- The state of a pool: its child and what that said last, its slot, and whom it runs. -/
structure PoolState where
  process : Option ManagedProcess
  backend : Option Backend
  ready : Bool
  unreadyReason : Option String
  slotsTotal : ℕ
  slotsFree : ℕ
  restartRequested : Bool
  terminationPending : Bool
  busy : List Uuid
  accelerator : String
  acceleratorVersion : String
  backendVersion : String
  probes : Probes
  lastActivity : ℕ

/-- What a pool advertises of its state. -/
structure PoolAdvertisementData where
  accelerator : String
  backendVersion : String
  ready : Bool
  unreadyReason : Option String
  slotsTotal : ℕ
  slotsBusy : List Uuid
  deriving DecidableEq

namespace PoolState

/-- A pool before its first child. -/
def notYetStarted (now : ℕ) : PoolState where
  process := none
  backend := none
  ready := false
  unreadyReason := some "not yet started"
  slotsTotal := 0
  slotsFree := 0
  restartRequested := false
  terminationPending := false
  busy := []
  accelerator := ""
  acceleratorVersion := ""
  backendVersion := ""
  probes := .none
  lastActivity := now

/-- The slot goes to an Attempt where it is free. -/
def tryAcquire (attemptId : Uuid) (now : ℕ) (state : PoolState) : Bool × PoolState :=
  if !state.ready || state.slotsFree = 0 then (false, state)
  else (true, { state with slotsFree := 0, busy := state.busy ++ [attemptId], lastActivity := now })

/-- An Attempt gives the slot back, by its identifier; where nobody has it then, a ready pool has it
    free again. -/
def release (attemptId : Uuid) (now : ℕ) (state : PoolState) : PoolState :=
  let busy := state.busy.filter (· ≠ attemptId)
  { state with
    busy
    slotsFree := if busy.length < state.busy.length then if state.ready then state.slotsTotal else 0
      else state.slotsFree
    lastActivity := now }

/-- What the pool advertises. -/
def capabilities (state : PoolState) : PoolAdvertisementData where
  accelerator := state.accelerator
  backendVersion := state.backendVersion
  ready := state.ready
  unreadyReason := state.unreadyReason
  slotsTotal := state.slotsTotal
  slotsBusy := state.busy

end PoolState

/-- The right of an Attempt to the slot, until it is dropped. -/
structure SlotLease where
  attemptId : Uuid
  /-- The generation of the child that it was acquired on. -/
  child : Option ℕ
  deriving DecidableEq

/-- A pool among what surrounds it. -/
structure Pool where
  state : PoolState
  /-- The generations of the children that were spawned and whose process tree is not known to be
      gone. -/
  children : List ℕ
  spawned : ℕ
  /-- The leases that were not dropped yet. -/
  leases : List SlotLease
  /-- How many dropped leases have released their slot and not told of it yet. -/
  dropping : ℕ
  /-- What a receiver of `changes_tx` reads where it was told last. -/
  seen : PoolAdvertisementData

namespace Pool

/-- One lock of the state, in which it is changed. -/
def modifyState (f : PoolState → PoolState)
    (pool : Pool) : Pool := { pool with state := f pool.state }

/-- `changes_tx.send(())`. -/
def notify (pool : Pool) : Pool := { pool with seen := pool.state.capabilities }

/-- What happens around the operations: a lease is dropped, which releases its slot and tells of
    it. -/
inductive Around : Pool → Pool → Prop
  | release (pool : Pool) (lease : SlotLease) (now : ℕ) (h : lease ∈ pool.leases) :
    Around pool { pool with
      state := pool.state.release lease.attemptId now
      leases := pool.leases.erase lease
      dropping := pool.dropping + 1 }
  | notify (pool : Pool) (h : 0 < pool.dropping) :
    Around pool { pool.notify with dropping := pool.dropping - 1 }

end Pool

/-! ## Children -/

/-- Which probes a child failed. -/
def unreadyReason (probes : Probes) : String :=
  match (probes.entries.filter (!·.2)).map (·.1) with
  | [] => "native inference child is not ready"
  | missing => "native inference child failed probes: " ++ ", ".intercalate missing

/-- Whether a probe shows something new. -/
def PoolState.differs (observed : BackendCapabilities) (state : PoolState) : Bool :=
  state.ready ≠ observed.probes.passed ∨ state.backendVersion ≠ observed.version ∨
    state.accelerator ≠ observed.accelerator ∨
      state.acceleratorVersion ≠ observed.acceleratorVersion ∨
    state.probes ≠ observed.probes

/-- What a probe shows is taken over. -/
def PoolState.observe (observed : BackendCapabilities) (state : PoolState) : PoolState :=
  let ready := observed.probes.passed
  { state with
    ready
    unreadyReason := if ready then none else some (Gpq.unreadyReason observed.probes)
    backendVersion := observed.version
    accelerator := observed.accelerator
    acceleratorVersion := observed.acceleratorVersion
    probes := observed.probes
    slotsTotal := ready.toNat
    slotsFree := (ready && state.busy.isEmpty).toNat }

/-- `TerminatingProcessGuard::restore`. -/
def TerminatingProcessGuard.restore (process : ManagedProcess) (interrupted : Bool)
    (state : PoolState) : PoolState :=
  { state with
    process := some process
    terminationPending := true
    backend := none
    ready := false
    unreadyReason :=
      if interrupted then some "native inference child tree cleanup interrupted; verification pending"
      else state.unreadyReason
    slotsTotal := 0
    slotsFree := 0
    probes := .none }

/-- The pool forgets its child and everybody on it, and says why. -/
def markUnready (reason : String) : Routine Pool Unit := do
  alter <| Pool.modifyState fun state => { state with
    process := none
    backend := none
    ready := false
    unreadyReason := some reason
    slotsTotal := 0
    slotsFree := 0
    busy := []
    terminationPending := false
    probes := .none }
  alter Pool.notify

/-- `process.terminate_tree(TERMINATE_GRACE)`: it succeeds where the process tree is gone. -/
def terminateTree (process : ManagedProcess) (onDrop : Pool → Pool) :
    Routine Pool (Except String Unit) :=
  await (fun answer pool =>
    (answer, match answer with
      | .ok () => { pool with children := pool.children.erase process.generation }
      | .error _ => pool)) onDrop .done

/-- The child is terminated, and the pool marked unready; where the process tree stays, so does the
    child, to be terminated again. The answer is whether it is gone. -/
def terminateManagedProcess (process : ManagedProcess) (reason : String) : Routine Pool Bool := do
  -- the guard that is dropped at the await gives the child back
  match ← terminateTree process fun pool =>
      (pool.modifyState (TerminatingProcessGuard.restore process true)).notify with
  | .ok () =>
    alter <| Pool.modifyState fun state => { state with terminationPending := false }
    markUnready reason
    return true
  | .error error =>
    alter <| Pool.modifyState fun state => { state with
      terminationPending := true
      backend := none
      ready := false
      unreadyReason := some ("native inference child tree cleanup failed: " ++ error)
      slotsTotal := 0
      slotsFree := 0
      probes := .none }
    alter <| Pool.modifyState (TerminatingProcessGuard.restore process false)
    alter Pool.notify
    return false

/-- The configuration of a pool, as far as it is supervised by it. -/
structure PoolEntry where
  key : String
  models : List ConfiguredModel
  /-- The text of its `startup_timeout`. -/
  startupTimeout : String

/-- `ManagedProcess::spawn`. -/
def ManagedProcess.spawn : Routine Pool (Except String ManagedProcess) :=
  await (fun (answer : Except String UInt32) pool =>
    match answer with
    | .ok pid => (.ok ⟨pid, pool.spawned, false⟩,
        { pool with children := pool.spawned :: pool.children, spawned := pool.spawned + 1 })
    | .error error => (.error error, pool)) id .done

/-- A child is spawned and becomes that of the pool. -/
def startInferChild : Routine Pool (Except BackendError Unit) := do
  match ← ManagedProcess.spawn with
  | .error error => return .error ⟨.backendCrashed, error, true⟩
  | .ok process =>
    alter <| Pool.modifyState fun state => { state with
      process := some process
      terminationPending := true
      unreadyReason := some "native inference child readiness probe pending" }
    alter Pool.notify
    -- the record of its identity
    match ← answer (Except String Unit) with
    | .error error =>
      alter <| Pool.modifyState fun state => { state with unreadyReason := some error }
      alter Pool.notify
      return .error ⟨.backendCrashed, error, true⟩
    | .ok () =>
      alter <| Pool.modifyState fun state => { state with
        process := state.process.map fun process => { process with identified := true } }
      return .ok ()

/-- What a probe of the child answered, and whether the time to start was up then. -/
structure ProbeAttempt where
  result : Except BackendError BackendCapabilities
  late : Bool

/-- The probes until the child is ready or the time is up, where the last one of the list is followed
    by one that takes longer than there is time. -/
def probeUntilReady (entry : PoolEntry) (lastError : Option BackendError) :
    List ProbeAttempt → Except BackendError BackendCapabilities
  | [] => .error ⟨.backendCrashed,
    "native inference readiness exceeded " ++ entry.startupTimeout, true⟩
  | ⟨.ok capabilities, late⟩ :: attempts =>
    if capabilities.probes.passed || late then .ok capabilities
      else probeUntilReady entry lastError attempts
  | ⟨.error error, late⟩ :: attempts =>
    if late then .error (lastError.getD error) else probeUntilReady entry (some error) attempts

/-- The child is probed until it is ready, and the pool says what it found. -/
def probePoolProcess (entry : PoolEntry) (backend : Backend) :
    Routine Pool (Except BackendError Unit) := do
  -- nothing is changed before the loop ends
  match probeUntilReady entry none (← answer (List ProbeAttempt)) with
  | .error error =>
    alter <| Pool.modifyState fun state => { state with unreadyReason := some error.message }
    alter Pool.notify
    return .error error
  | .ok capabilities =>
    let ready := capabilities.probes.passed
    let now ← chosen ℕ
    alter <| Pool.modifyState fun state => { state with
      restartRequested := false
      terminationPending := false
      backend := some backend
      ready
      unreadyReason := if ready then none else some (unreadyReason capabilities.probes)
      slotsTotal := ready.toNat
      slotsFree := ready.toNat
      busy := []
      accelerator := capabilities.accelerator
      acceleratorVersion := capabilities.acceleratorVersion
      backendVersion := capabilities.version
      probes := capabilities.probes
      lastActivity := now }
    alter Pool.notify
    return .ok ()

/-- A child is started for a pool that has none, and probed. -/
def startPoolProcess (entry : PoolEntry) : Routine Pool (Except BackendError Unit) := do
  alter <| Pool.modifyState fun state => { state with
    restartRequested := true
    terminationPending := false
    backend := none
    ready := false
    slotsTotal := 0
    slotsFree := 0
    probes := .none
    unreadyReason := some "native inference child startup pending" }
  alter Pool.notify
  match ← chosen (Except String Backend) with
  | .error error => return .error ⟨.backendCrashed, error, true⟩
  | .ok backend =>
    match ← chosen (Except String Unit) with
    | .error error => return .error ⟨.backendCrashed,
      "resolving current executable: " ++ error, false⟩
    | .ok () =>
      match ← startInferChild with
      | .error error => return .error error
      | .ok () => probePoolProcess entry backend

/-! ## Operations -/

namespace PoolSupervisor

/-- The first start of a pool whose models were scanned. -/
def start (entry : PoolEntry) : Routine Pool Unit := do
  match ← startPoolProcess entry with
  | .ok () => return
  | .error error => alter <|
    Pool.modifyState fun state => { state with unreadyReason := some error.message }

/-- Whether a model can be served, before the lock is asked for. -/
def findModel (files : Files) (entry : PoolEntry) (modelVersion : ContentHash) :
    Except BackendError Unit :=
  match entry.models.find? (·.manifestHash = modelVersion) with
  | none => .error ⟨.modelUnavailable,
    "model " ++ modelVersion.toHex ++ " is not registered on pool `" ++ entry.key ++
      "`", false⟩
  | some model =>
    match model.verifyAssets files with
    | .error error => .error ⟨.modelUnavailable,
      "model " ++ modelVersion.toHex ++ " changed since advertisement: " ++
        error, false⟩
    | .ok () => .ok ()

/-- A child in the place of the one that is gone, which has to be ready. -/
def startReplacement (entry : PoolEntry) : Routine Pool (Except BackendError Unit) := do
  match ← startPoolProcess entry with
  | .error error => return .error error
  | .ok () =>
    let (ready, reason) ← look fun pool => (pool.state.ready, pool.state.unreadyReason)
    if ready then return .ok ()
    else return .error ⟨.backendCrashed, reason.getD "native pool failed to become ready", true⟩

/-- The child of a pool without a running one is replaced. -/
def recover (entry : PoolEntry) : Routine Pool (Except BackendError Unit) := do
  let oldProcess ← locked fun pool => (pool.state.process, pool.modifyState fun state => { state with
    restartRequested := true
    terminationPending := state.process.isSome
    backend := none
    ready := false
    unreadyReason := some "native inference child recovery pending"
    slotsTotal := 0
    slotsFree := 0
    probes := .none
    process := none })
  alter Pool.notify
  match oldProcess with
  | none => startReplacement entry
  | some process =>
    if ← terminateManagedProcess process "native inference child terminated for recovery" then
      startReplacement entry
    else
      let reason ← look fun pool => pool.state.unreadyReason
      return .error ⟨.backendCrashed, reason.getD "native child tree cleanup failed", true⟩

/-- A slot of the child that is running. -/
def acquireSlot (entry : PoolEntry) (attemptId : Uuid) :
    Routine Pool (Except BackendError SlotLease) := do
  let now ← chosen ℕ
  let lease ← locked fun pool =>
    let (acquired, state) := pool.state.tryAcquire attemptId now
    if acquired then
      let lease : SlotLease := ⟨attemptId, pool.state.process.map (·.generation)⟩
      (some lease, { pool with state, leases := lease :: pool.leases })
    else (none, pool)
  match lease with
  | none => return .error ⟨.internal, "pool `" ++ entry.key ++ "` has no free execution slot", true⟩
  | some lease =>
    alter Pool.notify
    return .ok lease

/-- The slot of a ready pool for an Attempt, whose model must be there; a child that is gone or not
    ready is started first. -/
def ensureRuntimeAndAcquireSlot (files : Files) (entry : PoolEntry) (modelVersion : ContentHash)
    (attemptId : Uuid) :
    Routine Pool (Except BackendError SlotLease) :=
  match findModel files entry modelVersion with
  | .error error => return .error error
  | .ok () => do
    let (running, hasActiveAttempt) ← look fun pool =>
      (pool.state.process.isSome && pool.state.ready, !pool.state.busy.isEmpty)
    if !running && hasActiveAttempt then
      return .error ⟨.backendCrashed,
        "pool `" ++ entry.key ++ "` still owns an active attempt during recovery", true⟩
    match ← if running then pure (.ok ()) else recover entry with
    | .error error => return .error error
    | .ok () => acquireSlot entry attemptId

/-- `IDLE_UNLOAD_AFTER`, in nanoseconds. -/
def IDLE_UNLOAD_AFTER : ℕ := 5 * 60 * 1000000000

/-- A child is asked to release its memory. -/
def releaseMemory : Option Backend → Routine Pool Bool
  | some _ => (fun released => released.toOption.getD false) <$> answer (Except BackendError Bool)
  | none => return false

/-- An idle child is unloaded. -/
def unloadIdle : Routine Pool Unit := do
  let process ← locked fun pool => (pool.state.process, pool.modifyState fun state => { state with
    terminationPending := true
    ready := false
    unreadyReason := some "idle: native inference child unloading"
    slotsTotal := 0
    slotsFree := 0
    backend := none
    probes := .none
    process := none })
  alter Pool.notify
  match process with
  | none => return
  | some process => discard <| terminateManagedProcess process "idle: native inference child unloaded"

/-- A child that has been idle for long is asked to release its memory, and ended if it does not. -/
def releaseIdle (now : ℕ) : Routine Pool Unit := do
  let shouldUnload ← look fun pool =>
    pool.state.process.isSome && pool.state.busy.isEmpty && IDLE_UNLOAD_AFTER ≤
      now - pool.state.lastActivity
  if shouldUnload then
    let backend ← look fun pool => pool.state.backend
    if ← releaseMemory backend then
      alter <| Pool.modifyState fun state => { state with lastActivity := now }
    else unloadIdle

/-- The child of an Attempt that does not stop is terminated. -/
def forceReclaim (attemptId : Uuid) : Routine Pool Unit := do
  let process ← locked fun pool =>
    if !pool.state.busy.contains attemptId then (none, pool)
    else match pool.state.process with
      | none => (none, pool)
      | some process => (some process, pool.modifyState fun state => { state with
          process := none
          restartRequested := true
          terminationPending := true
          ready := false
          unreadyReason := some "native inference child force-terminating"
          slotsTotal := 0
          slotsFree := 0
          backend := none
          probes := .none })
  match process with
  | none => return
  | some process =>
    alter Pool.notify
    discard <| terminateManagedProcess process "native inference child force-terminated"

/-- The child is terminated for good. -/
def shutdown : Routine Pool Unit := do
  let process ← locked fun pool => (pool.state.process, pool.modifyState fun state => { state with
    restartRequested := false
    terminationPending := false
    process := none })
  match process with
  | none => pure ()
  | some process => discard <| terminateTree process id
  markUnready "worker shutting down"

/-- The pool is started where it may be. -/
def restart (entry : PoolEntry) : Routine Pool Unit := do
  match ← startPoolProcess entry with
  | .ok () => return
  | .error error =>
    alter <| Pool.modifyState fun state => { state with unreadyReason := some error.message }
    alter Pool.notify

/-- The child has exited, where there is one and `try_wait` says so. -/
def noticeExit (status : Option String) (pool : Pool) : Option String × Pool :=
  match pool.state.process.bind fun _ => status with
  | none => (none, pool)
  | some status => (some status, pool.modifyState fun state => { state with
      restartRequested := true
      terminationPending := true
      ready := false
      unreadyReason :=
        some ("native inference child exited; verifying process tree cleanup: " ++ status)
      slotsTotal := 0
      slotsFree := 0
      backend := none
      probes := .none })

/-- The child whose termination is pending is terminated, and then replaced where that is
    requested. -/
def finishTermination (entry : PoolEntry) : Routine Pool Unit := do
  let process ← locked fun pool => (pool.state.process,
    pool.modifyState fun state => { state with process := none })
  match process with
  | none => return
  | some process =>
    let terminated ← terminateManagedProcess process "native inference child tree terminated"
    let restartRequested ← look fun pool => pool.state.restartRequested
    if terminated && restartRequested then restart entry

/-- What is left to do once the child was looked at. -/
def maintain (entry : PoolEntry) (terminatePending restartRequested : Bool) : Routine Pool Unit :=
  if terminatePending then finishTermination entry
  else if restartRequested then restart entry
  else return

/-- Looks whether the child is still there, and starts the pool again where it is to be. -/
def checkProcessLiveness (entry : PoolEntry) : Routine Pool Unit := do
  let status ← chosen (Option String)
  let (exited, terminatePending, restartRequested) ← locked fun pool =>
    let (exited, pool) := noticeExit status pool
    ((exited, pool.state.terminationPending && pool.state.process.isSome,
      pool.state.process.isNone && pool.state.restartRequested), pool)
  if exited.isSome then alter Pool.notify
  maintain entry terminatePending restartRequested

/-- A probe that fails makes a ready pool unready, and tells so under the lock of the state. -/
def probeFailed (error : BackendError) (pool : Pool) : Pool :=
  if pool.state.ready then
    (pool.modifyState fun state => { state with
      ready := false
      slotsTotal := 0
      slotsFree := 0
      unreadyReason := some error.message }).notify
  else pool

/-- Asks the child again what it is. -/
def refreshCapabilities : Routine Pool Unit := do
  let backend ← look fun pool => pool.state.process.bind fun _ => pool.state.backend
  match backend with
  | none => return
  | some _ =>
    match ← answer (Except BackendError BackendCapabilities) with
    | .error error => alter (probeFailed error)
    | .ok observed =>
      let changed ← locked fun pool =>
        (PoolState.differs observed pool.state, pool.modifyState (PoolState.observe observed))
      if changed then alter Pool.notify

end PoolSupervisor

end Gpq
