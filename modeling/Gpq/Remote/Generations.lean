import Gpq.Remote.Workers

/-!
# Generations

The statements of `db::generations`. Every state change is an `UPDATE` guarded by
the state it leaves, and answers whether the guard matched; `acceptResult` is the
one transition that is decided over locked rows instead.
-/

namespace Gpq

open Sql DbKey

/-- A queued Generation offered to the scheduler. -/
structure Candidate where
  generationId : Uuid
  createdAt : Time
  priority : Priority
  requirement : Requirement

/-- Fields required to admit a new Generation. -/
structure NewGeneration where
  id : Uuid
  aliasName : String
  version : ContentHash
  parameters : GenerationParameters
  priority : Priority
  seed : Option ℕ
  /-- In nanoseconds. -/
  executionTimeout : ℕ
  outputPlacement : ArtifactPlacement
  createdAt : Time

namespace GenerationRow

theorem queued_unsettled : GenerationState.queued ≠ .succeeded ∧
    GenerationState.queued ≠ .failed := by decide

/-- The row in a state that needs neither an accepted result nor a failure. -/
def withState (r : GenerationRow) (state : GenerationState)
    (h : state ≠ .succeeded ∧ state ≠ .failed := by decide) : GenerationRow :=
  { r with
    state
    accepted_check := fun he => absurd he h.1
    failed_check := fun he => absurd he h.2 }

/-- The row terminated in a state that needs neither an accepted result nor a
    failure. -/
def terminated (r : GenerationRow) (state : GenerationState) (now : Time)
    (h : state ≠ .succeeded ∧ state ≠ .failed := by decide) : GenerationRow :=
  { r.withState state h with terminatedAt := some now }

/-- The row failed for a reason. -/
def failedWith (r : GenerationRow) (kind : FailureKind) (message : String) (now : Time) :
    GenerationRow :=
  { r with
    state := .failed
    failureKind := some kind
    failureMessage := message
    terminatedAt := some now
    accepted_check := nofun
    failed_check := fun _ => nofun }

/-- The row succeeded with an accepted result. -/
def acceptedWith (r : GenerationRow) (attemptId : Uuid) (now : Time) : GenerationRow :=
  { r with
    state := .succeeded
    acceptedAttemptId := some attemptId
    terminatedAt := some now
    accepted_check := fun _ => nofun
    failed_check := nofun }

/-- The row with the next Attempt counted. -/
def counted (r : GenerationRow) (attemptNumber : ℕ) : GenerationRow :=
  { r with attemptCount := attemptNumber }

section

variable (r : GenerationRow) (state : GenerationState) (now : Time)
  (h : state ≠ .succeeded ∧ state ≠ .failed)

@[simp] theorem withState_state : (r.withState state h).state = state := rfl

@[simp] theorem terminated_state : (r.terminated state now h).state = state := rfl

@[simp] theorem failedWith_state (kind : FailureKind) (message : String) :
    (r.failedWith kind message now).state = .failed := rfl

@[simp] theorem acceptedWith_state (attemptId : Uuid) :
    (r.acceptedWith attemptId now).state = .succeeded := rfl

end

end GenerationRow

variable [ManifestHash]

namespace Generations

/-- The texts of the parameters can be stored. -/
def storableParameters : GenerationParameters → Bool
  | .image p => storable p.prompt && storable p.negativePrompt
  | .video p => storable p.prompt && storable p.negativePrompt

/-- The row of a new queued Generation, where its values fit their columns. -/
def insertion (new : NewGeneration) (db : Db) : Except DbError (Unit × List (Write Db)) :=
  -- an interval holds whole microseconds, at most `i64::MAX` of them
  let timeout := new.executionTimeout / 1000
  if new.seed.any (· > i64Max) then .error .decode
  else if new.executionTimeout % 1000 ≠ 0 ∨ timeout > i64Max then .error .decode
  else if (fetch db (generation new.id)).isSome then .error .unique
  else if h : 0 < timeout ∧ new.outputPlacement ≠ .remoteLocal then
    .ok ((), [⟨generation new.id, some {
      state := .queued
      aliasName := new.aliasName
      versionSha256 := new.version
      parameters := new.parameters
      priority := new.priority
      seed := new.seed
      executionTimeout := timeout
      outputPlacement := new.outputPlacement
      createdAt := new.createdAt
      execution_timeout_check := Int.natCast_pos.2 h.1
      output_placement_check := h.2
      accepted_check := nofun
      failed_check := nofun }⟩])
  else .error .check

/-- Inserts a new queued Generation. -/
def insert (new : NewGeneration) : Body Unit :=
  .exec <| .require (storable new.aliasName && storableParameters new.parameters) .encoding <|
    .write (insertion new)

omit [ManifestHash] in
/-- What an insertion that succeeds writes. -/
theorem insertion_eq_ok {new : NewGeneration} {db : Db} {b : Unit} {ws : List (Write Db)}
    (h : insertion new db = .ok (b, ws)) : fetch db (generation new.id) = none ∧
      ∃ r : GenerationRow, ws = [⟨generation new.id, some r⟩] ∧ r.state = .queued ∧
        r.acceptedAttemptId = none ∧ r.attemptCount = 0 ∧ r.versionSha256 = new.version ∧
        r.parameters = new.parameters := by
  unfold insertion at h
  dsimp only at h
  split at h
  · cases h
  split at h
  · cases h
  split at h
  · cases h
  rename_i hnew
  split at h
  · cases h
    exact ⟨Option.not_isSome_iff_eq_none.1 hnew, _, rfl, rfl, rfl, rfl, rfl, rfl⟩
  · cases h

/-- Fetches one Generation. -/
def get (id : Uuid) : Body (Option GenerationRow) := .exec (.read fun db => fetch db (generation id))

/-- Fetches one Generation that must exist. -/
def getOne (id : Uuid) : Body GenerationRow :=
  .exec <| .tryRead fun db => match fetch db (generation id) with
    | some r => .ok r
    | none => .error .rowNotFound

/-- Counts every nonterminal Generation of the Tenant. -/
def countNonterminal : Body ℕ :=
  .exec (.read fun db => db.generations.count fun _ r => !r.state.isTerminal)

/-! ## Guarded transitions -/

/-- A state change from the states `source`: whether the Generation was in one. -/
def transition (id : Uuid) (source : GenerationState → Bool) (f : GenerationRow → GenerationRow) :
    Statement Bool :=
  updateGeneration id (fun r => source r.state) f

/-- `Queued → Running`, when a Slot leases an Attempt. -/
def markRunning (id : Uuid) (now : Time) : Body Bool :=
  .exec <| transition id (· = .queued) fun r => { r.withState .running with startedAt := some now }

/-- `Running → Queued`: the sole backward edge, after a retryable failure. -/
def requeue (id : Uuid) : Body Bool :=
  .exec <| .labelled (.requeue id) <| transition id (· = .running) fun r => r.withState .queued

/-- Settles the Generation as failed from any nonterminal state. -/
def fail (id : Uuid) (kind : FailureKind) (message : String) (now : Time) : Body Bool :=
  .exec <| .require (storable message) .encoding <|
    transition id (fun s => s = .queued || s = .running || s = .cancelling) fun r =>
      r.failedWith kind message now

/-- `Queued → Cancelled`: queued cancellation terminates immediately. -/
def cancelQueued (id : Uuid) (now : Time) : Body Bool :=
  .exec <| transition id (· = .queued) fun r => r.terminated .cancelled now

/-- `Running → Cancelling`: running cancellation awaits acknowledgement. -/
def requestCancelRunning (id : Uuid) : Body Bool :=
  .exec <| .labelled (.requestCancelRunning id) <| transition id (· = .running) fun r =>
    r.withState .cancelling

/-- `Cancelling → Cancelled`: the Worker acknowledged the cancellation. -/
def finishCancelled (id : Uuid) (now : Time) : Body Bool :=
  .exec <| transition id (· = .cancelling) fun r => r.terminated .cancelled now

/-- `Queued → Expired`: no registered candidate can ever run the Generation. -/
def expire (id : Uuid) (now : Time) : Body Bool :=
  .exec <| transition id (· = .queued) fun r => r.terminated .expired now

/-- Records the latest progress snapshot of an active Generation. -/
def recordProgress (id : Uuid) (progress : ProgressSnapshot) : Body Bool :=
  .exec <| .require (storable progress.stage) .encoding <|
    updateGeneration id (fun r => r.state = .running || r.state = .cancelling) fun r =>
      { r with latestProgress := some progress }

/-! ## Result acceptance -/

/-- Outcome of the result-acceptance compare-and-set. -/
inductive AcceptOutcome
  /-- This result became the Accepted Result of the Generation. -/
  | accepted (generationId : Uuid)
  /-- This Attempt is the already-accepted result. -/
  | acceptedReplay
  /-- The Attempt no longer holds a live lease. -/
  | staleLease
  /-- Another Attempt already committed the Accepted Result. -/
  | alreadyAccepted
  /-- The Generation cannot accept a result in its current state. -/
  | terminal
  deriving DecidableEq, Repr

/-- Verifies the live lease, a nonterminal Generation and the absence of a prior
    Accepted Result, then settles the Attempt and the Generation as succeeded and
    releases the Attempt's Slot. -/
def acceptResult (attemptId workerId : Uuid) (now : Time) : Body AcceptOutcome := do
  let some lease ← lockAttempt attemptId fun r => r.workerId = workerId
    | return .staleLease
  let some row ← lockGeneration lease.generationId
    | return .terminal
  if lease.state = .succeeded && row.acceptedAttemptId = some attemptId then
    return .acceptedReplay
  if !lease.state.isLive || lease.leaseExpiresAt ≤ now then return .staleLease
  if row.acceptedAttemptId.isSome then return .alreadyAccepted
  if !row.state.canTransitionTo .succeeded then return .terminal
  let _ ← .exec <| updateAttempt attemptId (fun r => r.workerId = workerId) fun r =>
    { r with state := .succeeded, finishedAt := some now }
  Workers.releaseSlot lease.poolId
  let _ ← .exec <| updateGeneration lease.generationId (fun _ => true) fun r =>
    r.acceptedWith attemptId now
  return .accepted lease.generationId

/-! ## Scheduling candidates -/

/-- Rebuilds a Generation's requirement from its stored parameters and the
    manifest its pinned version names. -/
def requirementFromParts (db : Db) (r : GenerationRow) : Option Requirement := do
  let version ← fetch db (modelVersion r.versionSha256)
  (Requirement.forGeneration db.tenantId r.versionSha256 version.manifest r.parameters).toOption

/-- The requirement of one Generation regardless of its state. -/
def requirementOf (id : Uuid) : Body (Option Requirement) :=
  .exec (.read fun db => (fetch db (generation id)).bind (requirementFromParts db))

/-- The Tenant's queued Generations, oldest first; one whose requirement cannot
    be rebuilt is skipped. -/
def queued (limit : ℕ) (db : Db) : List Candidate :=
  (((db.generations.rows.filter fun e => e.2.state = .queued).insertionSort
    fun a b => a.2.createdAt ≤ b.2.createdAt).take limit).filterMap fun e =>
      (requirementFromParts db e.2).map fun requirement =>
        { generationId := e.1, createdAt := e.2.createdAt, priority := e.2.priority, requirement }

/-- The query behind `queued`. -/
def queuedCandidates (limit : ℕ) : Body (List Candidate) := .exec (.read (queued limit))

/-- Every candidate is a queued Generation, with its requirement. -/
theorem exists_of_mem_queued {limit : ℕ} {db : Db} {c : Candidate} (h : c ∈ queued limit db) :
    ∃ row : GenerationRow, fetch db (generation c.generationId) = some row ∧ row.state = .queued ∧
      requirementFromParts db row = some c.requirement := by
  obtain ⟨⟨g, row⟩, he, hc⟩ := List.mem_filterMap.1 h
  obtain ⟨requirement, hreq, rfl⟩ := Option.map_eq_some_iff.1 hc
  have hrow := (List.mem_insertionSort _).1 (List.mem_of_mem_take he)
  obtain ⟨hrow, hqueued⟩ := List.mem_filter.1 hrow
  exact ⟨row, Table.mem_rows.1 hrow, of_decide_eq_true hqueued, hreq⟩

end Generations

end Gpq
