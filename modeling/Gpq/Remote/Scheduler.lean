import Gpq.Remote.Session

/-!
# Assignment, cancellation and the sweeps

The Remote's transactions that no Worker message starts: leasing a queued
Generation to a Pool (`tryAssign`), the caller's cancellation
(`cancelGeneration`), and the periodic sweeps.
-/

namespace Gpq

open Sql DbKey

variable [ManifestHash]

/-- One scheduling decision: a Slot of a Worker's Pool for a queued Generation. -/
structure SlotAssignment where
  workerId : Uuid
  poolId : Uuid
  generationId : Uuid
  deriving DecidableEq

/-- Claims one free Slot, creates the Attempt and sends the lease, committed only
    if the lease was built and delivered (`sent`). The planning snapshot may be
    stale, so everything it decided is checked again. -/
def tryAssign (assignment : SlotAssignment) (attemptId : Uuid) (now : Time) (sent : Bool) :
    Body (Verdict Unit) := do
  let excluded ← NativeExclusions.excludedPools assignment.generationId
  if assignment.poolId ∈ excluded then return .rollback ()
  if !(← Workers.claimSlot assignment.poolId) then return .rollback ()
  let slotKey := displayUuid assignment.poolId
  match ← Attempts.create attemptId assignment.generationId assignment.workerId assignment.poolId
    slotKey (leaseExpiryFrom now) now with
  | .error _ => return .rollback ()
  | .ok _ =>
    let _ ← Generations.markRunning assignment.generationId now
    let some row ← Generations.get assignment.generationId | return .rollback ()
    let version ← .exec (.read fun db => (fetch db (modelVersion row.versionSha256)).isSome)
    if !version then return .rollback ()
    if sent then return .commit () else return .rollback ()

/-- The caller's `CancelGeneration`: the Generation as it then is, or nothing if
    there is none. -/
def cancelGeneration (id : Uuid) (now : Time) : Body (Verdict (Option GenerationState)) := do
  if ← Generations.cancelQueued id now then Artifacts.deleteInputsForGeneration id
  let _ ← Generations.requestCancelRunning id
  let some row ← Generations.get id | return .rollback none
  return .commit (some row.state)

/-- The Generation that `cancelGeneration` returns. -/
def cancelAnswer (id : Uuid) : Body (Verdict (Option GenerationState)) := do
  let some row ← Generations.get id | return .rollback none
  return .commit (some row.state)

/-- What is left of `cancelGeneration` behind the queued case. -/
def cancelRunning (id : Uuid) : Body (Verdict (Option GenerationState)) := do
  let _ ← Generations.requestCancelRunning id
  cancelAnswer id

/-! ## Sweeps -/

/-- How many rows one sweep handles. -/
def sweepLimit : ℕ := 200

/-- How many queue ages a Generation waits before the starvation sweep. -/
def starvationExpiryMultiplier : ℕ := 2

/-- Deletes a Generation's inputs where its settlement terminated it. -/
def deleteInputsOnFail : Option (Uuid × RetryDecision) → Body Unit
  | some (generationId, .fail) => Artifacts.deleteInputsForGeneration generationId
  | _ => pure ()

/-- Expires live Attempts whose lease lapsed. -/
def expireLeases (now : Time) (skip : Uuid → Bool) : Body (Verdict Unit) := do
  let expired ← Attempts.expiredLeases now sweepLimit skip
  let _ ← Prog.forEach (fun attemptId => do
    let _ ← Attempts.requestCancel attemptId now
    deleteInputsOnFail (← Attempts.recordLeaseExpiry attemptId now)) expired
  return .commit ()

/-- Fails Attempts that ran past their execution deadline. -/
def enforceExecutionDeadlines (now : Time) (skip : Uuid → Bool) : Body (Verdict Unit) := do
  let overdue ← Attempts.overdueExecutions now sweepLimit skip
  let _ ← Prog.forEach (fun attemptId => do
    deleteInputsOnFail (← Attempts.recordFailure attemptId
      { kind := .executionTimedOut
        message := "execution exceeded its resolved timeout"
        workerRetryHint := false } now)) overdue
  return .commit ()

/-- Records cancellation intent on the live Attempts of cancelling Generations. -/
def propagateCancellations (now : Time) : Body (Verdict Unit) := do
  let cancelling ← Attempts.liveForCancellingGenerations sweepLimit
  let _ ← Prog.forEach (fun attemptId => Attempts.requestCancel attemptId now) cancelling
  return .commit ()

/-- Whether any Pool capable of the Generation remains after exclusions. -/
def hasUnrejectedCandidate (capabilities : List SlotCapability) (requirement : Requirement)
    (excluded : List Uuid) : Bool :=
  anyCandidateRemains (capabilities.filter fun capability => capability.poolId ∉ excluded) requirement

/-- Expires queued Generations past twice the maximum queue age that no
    registered, unrejected Slot could ever run. -/
def expireStarvedQueue (now : Time) : Body (Verdict Unit) := do
  let settings := (← tenantSettings).getD .default
  let cutoff := now - settings.maximumQueueAge * starvationExpiryMultiplier
  let candidates ← Generations.queuedCandidates sweepLimit
  if candidates.isEmpty then return .rollback ()
  let capabilities ← Workers.poolCapabilities
  let exclusions ← .exec (.read fun db => NativeExclusions.excluded db)
  let _ ← Prog.forEach (fun candidate : Candidate => do
    if !hasUnrejectedCandidate (capabilities.map Prod.fst) candidate.requirement
        (exclusions candidate.generationId) then
      if ← Generations.expire candidate.generationId now then
        Artifacts.deleteInputsForGeneration candidate.generationId)
    (candidates.filter fun candidate => candidate.createdAt ≤ cutoff)
  return .commit ()

/-- Expires lapsed Artifacts. -/
def expireArtifacts (now : Time) : Body (Verdict Unit) := do
  Artifacts.expireDue now
  return .commit ()

end Gpq
