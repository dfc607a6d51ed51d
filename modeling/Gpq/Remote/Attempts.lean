import Gpq.Remote.Generations

/-!
# Attempts

The statements and the multi-statement operations of `db::attempts`: leasing
(`create`), renewal, settlement with the retry policy (`finishAndDecide`),
pre-execution rejection and cancellation acknowledgement.
-/

namespace Gpq

open Sql DbKey

variable [ManifestHash]

/-- The row settled in a terminal state, with an optional failure. -/
def AttemptRow.settled (r : AttemptRow) (target : AttemptState) (kind : Option FailureKind)
    (message : String) (hint : Bool) (now : Time) : AttemptRow :=
  { r with
    state := target
    finishedAt := some now
    failureKind := kind
    failureMessage := message
    workerRetryHint := hint }

namespace Attempts

/-- Why an Attempt could not be created. -/
inductive CreateAttemptError
  | notQueued
  | maxAttemptsReached (max : ℕ)
  deriving DecidableEq, Repr

/-- Inserts a leased Attempt, where its keys and references allow it. -/
def insert (id generationId : Uuid) (attemptNumber : ℕ) (workerId poolId : Uuid) (slotKey : String)
    (leaseExpiry now : Time) : Statement Unit :=
  .require (storable slotKey) .encoding <| .write fun db =>
    if h : 1 ≤ attemptNumber ∧ attemptNumber ≤ maxAttempts then
      if (fetch db (attempt id)).isSome || db.attempts.rows.any fun e =>
          e.2.generationId = generationId && e.2.attemptNumber = attemptNumber then .error .unique
      else if (fetch db (generation generationId)).isNone || (fetch db (worker workerId)).isNone ||
          (fetch db (devicePool poolId)).isNone then .error .foreignKey
      else .ok ((), [⟨attempt id, some {
        generationId
        attemptNumber
        state := .leased
        workerId
        poolId
        slotKey
        leaseExpiresAt := leaseExpiry
        createdAt := now
        attempt_number_check := h }⟩])
    else .error .check

/-- Creates the next Attempt for a queued Generation and leases it to one Slot. -/
def create (id generationId workerId poolId : Uuid) (slotKey : String) (leaseExpiry now : Time) :
    Body (Except CreateAttemptError Uuid) := do
  let some row ← lockGeneration generationId | return .error .notQueued
  if row.state ≠ .queued then return .error .notQueued
  let excluded ← NativeExclusions.excludedPools generationId
  if poolId ∈ excluded then return .error .notQueued
  let attemptNumber := row.attemptCount + 1
  if attemptNumber > maxAttempts then return .error (.maxAttemptsReached maxAttempts)
  .exec <| insert id generationId attemptNumber workerId poolId slotKey leaseExpiry now
  let _ ← .exec <| updateGeneration generationId (fun _ => true) fun r => r.counted attemptNumber
  return .ok id

/-- Whether a heartbeat of the Worker renews the Attempt. -/
def renewable (workerId : Uuid) (attemptIds : List Uuid) (clock : Time) (id : Uuid)
    (r : AttemptRow) : Bool :=
  r.workerId = workerId && id ∈ attemptIds && r.state.isLive && r.leaseExpiresAt > clock

/-- Renews the lease of every named live Attempt of the Worker and returns the
    named ones that could not be renewed. -/
def heartbeat (workerId : Uuid) (attemptIds : List Uuid) (now clock : Time) : Body (List Uuid) :=
  if attemptIds.isEmpty then return []
  else .exec <| .write fun db =>
    let renewed := db.attempts.rows.filter fun e => renewable workerId attemptIds clock e.1 e.2
    .ok (attemptIds.filter (· ∉ renewed.map Prod.fst), renewed.map fun e =>
      ⟨attempt e.1, some { e.2 with
        leaseExpiresAt := clock + (leaseExpiryFrom now - now)
        lastHeartbeatAt := some clock }⟩)

/-- The Generation a live Attempt of the Worker executes. -/
def generationIdOf (id workerId : Uuid) (now : Time) : Body (Option Uuid) :=
  .exec (.read fun db => ((fetch db (attempt id)).filter fun r =>
    r.workerId = workerId && r.state.isLive && r.leaseExpiresAt > now).map AttemptRow.generationId)

/-- `Leased → Running`, starting the execution timeout clock. -/
def markRunning (id workerId : Uuid) (now : Time) : Body Bool :=
  .exec <| .write fun db =>
    match (fetch db (attempt id)).filter fun r =>
        r.workerId = workerId && r.state = .leased && r.leaseExpiresAt > now with
    | none => .ok (false, [])
    | some r => match fetch db (generation r.generationId) with
      | none => .ok (false, [])
      | some g => .ok (true, [⟨attempt id, some { r with
          state := .running
          startedAt := some now
          executionDeadline := some (now + g.executionTimeout) }⟩])

/-- Whether an Attempt is live and, where a Worker is named, that Worker's. -/
def liveOf (workerId : Option Uuid) (r : AttemptRow) : Bool :=
  r.state.isLive && workerId.all (· = r.workerId)

/-- Failure information of a settlement. -/
structure FailureDetails where
  kind : FailureKind
  message : String
  workerRetryHint : Bool

/-- Settles a live Attempt into a terminal state and releases its Slot: whether
    it was live. -/
def finish (id : Uuid) (workerId : Option Uuid) (target : AttemptState)
    (failure : Option FailureDetails) (now : Time) : Body Bool := do
  if !target.isTerminal then return false
  let message := (failure.map FailureDetails.message).getD ""
  let settled ← .exec <| .require (storable message) .encoding <|
    @Stmt.updateReturning Db _ _ (attempt id) (liveOf workerId)
      (fun r => r.settled target (failure.map FailureDetails.kind) message
        ((failure.map FailureDetails.workerRetryHint).getD false) now)
      AttemptRow.poolId
  match settled with
  | none => return false
  | some poolId =>
    Workers.releaseSlot poolId
    return true

/-- Settles a live Attempt and applies the retry policy to its Generation; a
    Generation already cancelling is cancelled whatever the policy says. Returns
    `none` only when the Attempt was already settled or gone. -/
def finishAndDecide (attemptId : Uuid) (workerId : Option Uuid) (target : AttemptState)
    (failure : FailureDetails) (now : Time) : Body (Option (Uuid × RetryDecision)) := do
  let some generationId ← .exec (.read fun db => ((fetch db (attempt attemptId)).filter
    (liveOf workerId)).map AttemptRow.generationId) | return none
  if !(← finish attemptId workerId target (some failure) now) then return none
  let row ← Generations.getOne generationId
  if row.state = .cancelling then
    let _ ← Generations.finishCancelled generationId now
    return some (generationId, .fail)
  let requirement ← Generations.requirementOf generationId
  let excluded ← NativeExclusions.excludedPools generationId
  let capabilities ← Workers.poolCapabilities
  let eligibleCandidatesRemain := requirement.any fun req => anyCandidateRemains
    ((capabilities.map Prod.fst).filter fun capability => capability.poolId ∉ excluded) req
  let decision := failure.kind.retryDecision row.attemptCount eligibleCandidatesRemain
  match decision with
  | .requeue =>
    let _ ← Generations.requeue generationId
  | .fail =>
    let _ ← Generations.fail generationId failure.kind failure.message now
  return some (generationId, decision)

/-- Marks a live Attempt failed and applies the retry policy. -/
def recordFailure (attemptId : Uuid) (failure : FailureDetails) (now : Time) :
    Body (Option (Uuid × RetryDecision)) :=
  finishAndDecide attemptId none .failed failure now

/-- Settles a Worker-reported failure only when the Attempt belongs to it. -/
def recordFailureForWorker (attemptId workerId : Uuid) (failure : FailureDetails) (now : Time) :
    Body (Option (Uuid × RetryDecision)) :=
  finishAndDecide attemptId (some workerId) .failed failure now

/-- Marks a live Attempt's lease expired and applies the retry policy. -/
def recordLeaseExpiry (attemptId : Uuid) (now : Time) : Body (Option (Uuid × RetryDecision)) :=
  finishAndDecide attemptId none .leaseExpired
    { kind := .leaseExpired
      message := "lease expired without a renewing heartbeat"
      workerRetryHint := false } now

/-- Deletes a Worker's leased Attempt. -/
def delete (id workerId : Uuid) : Statement Unit :=
  .write fun db =>
    match (fetch db (attempt id)).filter fun r => r.workerId = workerId && r.state = .leased with
    | none => .ok ((), [])
    | some _ =>
      if Workers.attemptsReferenced db [id] then .error .notNull
      else .ok ((), [⟨attempt id, none⟩])

/-- Handles a pre-execution rejection, which never counts as an Attempt: the
    Pool is excluded, the Attempt deleted, its Slot released, the count rolled
    back and the Generation queued again. -/
def rejectLease (attemptId workerId : Uuid) (now : Time) : Body (Option Uuid) := do
  let some lease ← lockAttempt attemptId fun r => r.workerId = workerId && r.state = .leased
    | return none
  if lease.leaseExpiresAt ≤ now then return none
  let row ← lockGeneration lease.generationId
  if row.map GenerationRow.state ≠ some .running then return none
  let _ ← NativeExclusions.recordPreexecutionRejection lease.generationId lease.poolId
  .exec (delete attemptId workerId)
  Workers.releaseSlot lease.poolId
  let _ ← .exec <| updateGeneration lease.generationId (fun r => r.state = .running) fun r =>
    { r.withState .queued GenerationRow.queued_unsettled with attemptCount := r.attemptCount - 1 }
  return some lease.generationId

/-- Handles a Worker's acknowledgement of a cancellation: the Attempt, if still
    live, and its cancelling Generation are cancelled. -/
def acknowledgeCancel (attemptId workerId : Uuid) (now : Time) : Body (Option Uuid) := do
  let some lock ← lockAttempt attemptId fun r => r.workerId = workerId | return none
  let row ← Generations.get lock.generationId
  if row.map GenerationRow.state ≠ some .cancelling then return none
  if lock.state.isLive then
    let poolId ← .exec <| .write fun db =>
      match (fetch db (attempt attemptId)).filter fun r => r.workerId = workerId && r.state.isLive,
          (fetch db (generation lock.generationId)).map GenerationRow.state with
      | some r, some .cancelling =>
        .ok (some r.poolId, [⟨attempt attemptId, some (r.settled .cancelled none "" false now)⟩])
      | _, _ => .ok (none, [])
    match poolId with
    | none => return none
    | some poolId => Workers.releaseSlot poolId
  let settled ← Generations.finishCancelled lock.generationId now
  return if settled then some lock.generationId else none

/-! ## Sweeps -/

/-- The first `limit` Attempts that match, by a time. -/
def oldest (db : Db) (p : Uuid → AttemptRow → Bool) (time : AttemptRow → Time) (limit : ℕ) :
    List Uuid :=
  (((db.attempts.rows.filter fun e => p e.1 e.2).insertionSort
    fun a b => time a.2 ≤ time b.2).take limit).map Prod.fst

/-- Live Attempts whose lease has lapsed, locked for the sweep. Rows that other
    transactions hold are skipped: `skip` says which. -/
def expiredLeases (now : Time) (limit : ℕ) (skip : Uuid → Bool) : Body (List Uuid) :=
  .exec <| .lockAll (fun db => oldest db
    (fun id r => !skip id && r.state.isLive && r.leaseExpiresAt ≤ now)
    AttemptRow.leaseExpiresAt limit) fun ids => ids.map attempt

/-- Live Attempts past their execution deadline, locked for the sweep. -/
def overdueExecutions (now : Time) (limit : ℕ) (skip : Uuid → Bool) : Body (List Uuid) :=
  .exec <| .lockAll (fun db => oldest db
    (fun id r => !skip id && r.state.isLive && r.executionDeadline.any (· ≤ now))
    (fun r => r.executionDeadline.getD 0) limit) fun ids => ids.map attempt

/-- Live Attempts whose Generation is cancelling. -/
def liveForCancellingGenerations (limit : ℕ) : Body (List Uuid) :=
  .exec (.read fun db => oldest db (fun _ r => r.state.isLive &&
    (fetch db (generation r.generationId)).any fun g => g.state = .cancelling)
    AttemptRow.createdAt limit)

/-- Records cooperative cancellation intent on a live Attempt. -/
def requestCancel (id : Uuid) (now : Time) : Body Bool :=
  .exec <| updateAttempt id (fun r => r.state.isLive && r.cancelRequestedAt.isNone) fun r =>
    { r with cancelRequestedAt := some now }

end Attempts

end Gpq
