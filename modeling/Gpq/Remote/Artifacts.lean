import Gpq.Remote.Schema

/-!
# Artifacts

The statements of `db::artifacts`, and the claim of input Artifacts at admission.
`now` is the transaction's time and `clock` the statement's.
-/

namespace Gpq

open Sql DbKey

namespace Artifacts

/-- One hour, in microseconds: how long an unclaimed Artifact is kept. -/
def artifactTtl : Time := 3600000000

/-- Why an Artifact operation is refused. -/
inductive ArtifactStoreError
  | transition (error : TransitionError)
  | notFound
  | conflict
  deriving DecidableEq

/-- Fetches one Artifact. -/
def get (id : Uuid) : Body (Option ArtifactRow) := .exec (.read fun db => fetch db (artifact id))

/-- The insertion of an Artifact, where the constraints allow it. -/
def insertion (id : Uuid) (row : Except DbError ArtifactRow) (db : Db) :
    Except DbError (Unit × List (Write Db)) := do
  let row ← row
  if (fetch db (artifact id)).isSome then throw .unique
  if row.generationId.any fun g => (fetch db (generation g)).isNone then throw .foreignKey
  if row.attemptId.any fun a => (fetch db (attempt a)).isNone then throw .foreignKey
  if row.workerId.any fun w => (fetch db (worker w)).isNone then throw .foreignKey
  return ((), [⟨artifact id, some row⟩])

/-- Inserts an Artifact. -/
def insert (id : Uuid) (row : Except DbError ArtifactRow) : Statement Unit :=
  .write (insertion id row)

/-- An insertion that succeeds writes one new row. -/
theorem insertion_eq_ok {id : Uuid} {row : Except DbError ArtifactRow} {db : Db} {u : Unit}
    {ws : List (Write Db)} (h : insertion id row db = .ok (u, ws)) :
    ∃ r, ws = [⟨artifact id, some r⟩] ∧ fetch db (artifact id) = none ∧ row = .ok r := by
  cases row with
  | error e => cases h
  | ok r =>
    simp only [insertion, bind, Except.bind, pure, Except.pure, throw, throwThe,
      MonadExceptOf.throw] at h
    repeat' split at h
    all_goals cases h
    rename_i hnew _ _ _
    exact ⟨r, rfl, Option.not_isSome_iff_eq_none.1 hnew, rfl⟩

/-- A pending input's row. -/
def inputRow (manifest : ArtifactManifest) (placement : ArtifactPlacement)
    (objectKey : Option String) (now : Time) : Except DbError ArtifactRow :=
  if !(storable manifest.mimeType && objectKey.all storable) then .error .encoding
  else if manifest.sizeBytes.toNat > i64Max then .error .decode
  else if h : (placement = .objectStore → objectKey ≠ none) ∧ placement ≠ .workerLocal then
    .ok {
      direction := .input
      state := .pending
      placement
      manifest
      objectKey
      createdAt := now
      expiresAt := some (now + artifactTtl)
      object_key_check := h.1
      worker_check := fun he => absurd he h.2
      remote_local_is_input := fun _ => rfl }
  else .error .check

/-- Creates a pending input Artifact. -/
def createInput (id : Uuid) (manifest : ArtifactManifest) (placement : ArtifactPlacement)
    (objectKey : Option String) (now : Time) : Body Unit :=
  .exec (insert id (inputRow manifest placement objectKey now))

/-- Creates a pending input whose bytes the Remote keeps. -/
def createRemoteLocalInput (id : Uuid) (manifest : ArtifactManifest) (now : Time) : Body Unit :=
  createInput id manifest .remoteLocal none now

/-- Stores the bytes of a pending Remote-local input and makes it available. -/
def setRemoteLocalContent (id : Uuid) (bytes : Bytes) (now clock : Time) :
    Body (Except ArtifactStoreError ArtifactRow) := do
  let stored ← .exec <| updateArtifact id
    (fun r => r.direction = .input && r.placement = .remoteLocal && r.state = .pending &&
      r.expiresAt.any (· > clock))
    fun r => { r with
      content := some bytes
      state := .available
      availableAt := some now
      expiresAt := some (now + artifactTtl) }
  match stored, ← get id with
  | false, none => return .error .notFound
  | false, some _ => return .error .conflict
  | true, none => return .error .notFound
  | true, some row => return .ok row

/-- An output's row. -/
def outputRow (generationId attemptId : Uuid) (workerId : Option Uuid) (manifest : ArtifactManifest)
    (placement : ArtifactPlacement) (objectKey deliveryToken : Option String) (now : Time) :
    Except DbError ArtifactRow :=
  if !(storable manifest.mimeType && objectKey.all storable && deliveryToken.all storable) then
    .error .encoding
  else if manifest.sizeBytes.toNat > i64Max then .error .decode
  else if h : (placement = .objectStore → objectKey ≠ none) ∧
      (placement = .workerLocal → workerId ≠ none) ∧ placement ≠ .remoteLocal then
    .ok {
      generationId := some generationId
      attemptId := some attemptId
      direction := .output
      state := .available
      placement
      manifest
      objectKey
      workerId
      deliveryToken
      createdAt := now
      availableAt := some now
      expiresAt := some (now + artifactTtl)
      object_key_check := h.1
      worker_check := h.2.1
      remote_local_is_input := fun he => absurd he h.2.2 }
  else .error .check

/-- What an output's row holds. -/
theorem outputRow_eq_ok {generationId attemptId : Uuid} {workerId : Option Uuid}
    {manifest : ArtifactManifest} {placement : ArtifactPlacement}
    {objectKey deliveryToken : Option String} {now : Time} {r : ArtifactRow}
    (h : outputRow generationId attemptId workerId manifest placement objectKey deliveryToken now =
      .ok r) :
    r.direction = .output ∧ r.state = .available ∧ r.generationId = some generationId ∧
      r.attemptId = some attemptId ∧ r.manifest = manifest ∧ r.placement = placement ∧
      r.deliveryToken = deliveryToken ∧ r.workerId = workerId ∧ r.objectKey = objectKey := by
  unfold outputRow at h
  split at h
  · cases h
  split at h
  · cases h
  split at h
  · cases h
    exact ⟨rfl, rfl, rfl, rfl, rfl, rfl, rfl, rfl, rfl⟩
  · cases h

/-- Nothing of a new output was delivered. -/
theorem outputRow_committedOffset {generationId attemptId : Uuid} {workerId : Option Uuid}
    {manifest : ArtifactManifest} {placement : ArtifactPlacement}
    {objectKey deliveryToken : Option String} {now : Time} {r : ArtifactRow}
    (h : outputRow generationId attemptId workerId manifest placement objectKey deliveryToken now =
      .ok r) :
    r.committedOffset = 0 := by
  unfold outputRow at h
  repeat' split at h
  all_goals cases h
  rfl

/-- Records an output Artifact of an accepted result. -/
def recordOutput (id generationId attemptId : Uuid) (workerId : Option Uuid)
    (manifest : ArtifactManifest) (placement : ArtifactPlacement)
    (objectKey deliveryToken : Option String) (now : Time) : Body Unit :=
  .exec (insert id (outputRow generationId attemptId workerId manifest placement objectKey
    deliveryToken now))

/-- Moves an Artifact along an edge of its state machine, as a compare-and-set on
    the state that was read. -/
def setState (id : Uuid) (target : ArtifactState) (now : Time) :
    Body (Except ArtifactStoreError ArtifactRow) := do
  let some row ← get id | return .error .notFound
  match row.state.transition target with
  | .error error => return .error (.transition error)
  | .ok target =>
    let moved ← .exec <| updateArtifact id (fun r => r.state = row.state) fun r => { r with
      state := target
      availableAt := if target = .available then some now else r.availableAt
      terminatedAt := if target.isTerminal then some now else r.terminatedAt
      content := if target.isTerminal then none else r.content }
    if !moved then return .error .conflict
    let some row ← get id | return .error .notFound
    return .ok row

/-- `Available → Delivering`, before the Artifact expires. -/
def beginDelivery (id : Uuid) (clock : Time) : Body Bool :=
  .exec <| updateArtifact id (fun r => r.state = .available && r.expiresAt.any (· > clock)) fun r =>
    { r with state := .delivering }

/-- Persists how many bytes a delivery has passed on. -/
def commitOffset (id : Uuid) (offset : UInt64) : Body Bool :=
  .exec <| .require (offset.toNat ≤ i64Max) .decode <|
    updateArtifact id (fun r => r.state = .delivering && r.committedOffset < offset.toNat) fun r =>
      { r with committedOffset := offset.toNat }

/-- The Artifact was delivered. -/
def markConsumed (id : Uuid) (now : Time) : Body (Except ArtifactStoreError ArtifactRow) :=
  setState id .consumed now

/-- The Artifact's bytes are gone. -/
def markLost (id : Uuid) (now : Time) : Body (Except ArtifactStoreError ArtifactRow) :=
  setState id .lost now

/-- Deletes a terminated Generation's input Artifacts. -/
def deleteInputsForGeneration (generationId : Uuid) : Body Unit :=
  .exec <| .write fun db => .ok ((),
    (db.artifacts.rows.filter fun e =>
      e.2.generationId = some generationId && e.2.direction = .input).map fun e =>
        ⟨artifact e.1, none⟩)

/-- Expires every pending or available Artifact whose time has come. -/
def expireDue (now : Time) : Body Unit :=
  .exec <| .write fun db => .ok ((),
    (db.artifacts.rows.filter fun e =>
      (e.2.state = .pending || e.2.state = .available) && e.2.expiresAt.any (· ≤ now)).map fun e =>
        ⟨artifact e.1, some { e.2 with
          state := .expired, terminatedAt := some now, content := none }⟩)

/-- Whether an unlinked input Artifact can be claimed at admission. -/
def claimable (r : ArtifactRow) (clock : Time) : Bool :=
  r.direction = .input && r.generationId.isNone && r.expiresAt.any (· > clock) &&
    match r.placement with
    | .remoteLocal => r.state = .available &&
        r.content.any fun bytes => bytes.length = r.manifest.sizeBytes.toNat
    | .objectStore => r.state = .pending
    | .workerLocal => r.state = .available

/-- Links input Artifacts to a freshly inserted Generation: how many were
    claimable. -/
def linkInputArtifacts (generationId : Uuid) (ids : List Uuid) (clock : Time) : Body ℕ :=
  .exec <| .write fun db =>
    let rows := db.artifacts.rows.filter fun e => e.1 ∈ ids && claimable e.2 clock
    .ok (rows.length, rows.map fun e =>
      ⟨artifact e.1, some { e.2 with generationId := some generationId, expiresAt := none }⟩)

end Artifacts

end Gpq
