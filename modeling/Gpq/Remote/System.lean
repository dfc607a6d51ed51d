import Gpq.Lib.Machine
import Gpq.Remote.Scheduler
import Gpq.Remote.Admission

/-!
# The Remote

The Remote as a state machine: an `Op` is one of its transactions with everything
that it is given from outside (a Worker's message, a caller's request, a planning
decision, the time), and `Op.apply` is what it leaves in the database. An
operation may come at any moment and with any arguments, so messages may be late,
repeated or stale; `Reaches` collects the databases that this can lead to.
-/

namespace Gpq

open Sql DbKey

namespace Catalog

/-- Points a Model alias at a registered Model Version: whether there is one. -/
def setModelAlias (aliasName : String) (version : ContentHash) : Body (Verdict Bool) := do
  let known ← .exec (.read fun db => (fetch db (modelVersion version)).isSome)
  if !known then return .rollback false
  .exec <| .require (storable aliasName) .encoding <| .write fun _ =>
    .ok ((), [⟨modelAlias aliasName, some version⟩])
  return .commit true

/-- Deletes a Model alias: whether it existed. -/
def deleteModelAlias (aliasName : String) : Body (Verdict Bool) := do
  let existed ← .exec <| .require (storable aliasName) .encoding <| .write fun db =>
    if (fetch db (modelAlias aliasName)).isSome then .ok (true, [⟨modelAlias aliasName, none⟩])
    else .ok (false, [])
  return .commit existed

end Catalog

/-- Soft-deletes the Tenant. -/
def deleteTenant (now : Time) : Body (Verdict Unit) := do
  let _ ← .exec <| @Stmt.update Db _ tenant (fun r => r.deletedAt.isNone) fun r =>
    { r with deletedAt := some now }
  return .commit ()

/-- A transaction whose body always commits. -/
def committed {α : Type} (p : Body α) : Body (Verdict α) := do return .commit (← p)

/-- The transactions of the Remote. -/
inductive Op
  | deleteTenant (now : Time)
  | updateSettings (settings : TenantSettings)
  | enroll (id : Uuid) (name : String) (credentialHash : Bytes)
  | revokeWorker (id : Uuid) (now : Time)
  | setModelAlias (aliasName : String) (version : ContentHash)
  | deleteModelAlias (aliasName : String)
  | createInput (id : Uuid) (manifest : ArtifactManifest) (placement : ArtifactPlacement)
      (objectKey : Option String) (now : Time)
  | setRemoteLocalContent (id : Uuid) (bytes : Bytes) (now clock : Time)
  | beginDelivery (id : Uuid) (clock : Time)
  | commitOffset (id : Uuid) (offset : UInt64)
  | setArtifactState (id : Uuid) (target : ArtifactState) (now : Time)
  | submit (request : AdmissionRequest) (id : Uuid) (objectStoreAvailable : Bool)
      (uploaded : Uuid → Bool) (now clock : Time)
  | tryAssign (assignment : SlotAssignment) (attemptId : Uuid) (now : Time) (sent : Bool)
  | cancelGeneration (id : Uuid) (now : Time)
  | capabilityReport (worker : AuthenticatedWorker) (pools : List (Uuid × PoolAdvertisement))
  | heartbeat (worker : AuthenticatedWorker) (attemptIds : List Uuid) (now clock : Time)
  | attemptRunning (worker : AuthenticatedWorker) (attemptId : Uuid) (now : Time)
  | attemptProgress (worker : AuthenticatedWorker) (attemptId : Uuid) (progress : ProgressSnapshot)
      (now : Time)
  | attemptResult (worker : AuthenticatedWorker) (attemptId : Uuid) (outputs : List AttemptOutput)
      (now : Time)
  | attemptFailed (worker : AuthenticatedWorker) (attemptId : Uuid)
      (failure : Attempts.FailureDetails) (now : Time)
  | leaseRejected (worker : AuthenticatedWorker) (attemptId : Uuid) (now : Time)
  | cancelAcknowledged (worker : AuthenticatedWorker) (attemptId : Uuid) (now : Time)
  | expireLeases (now : Time) (skip : Uuid → Bool)
  | enforceExecutionDeadlines (now : Time) (skip : Uuid → Bool)
  | propagateCancellations (now : Time)
  | expireStarvedQueue (now : Time)
  | expireArtifacts (now : Time)

section Machine

variable [ManifestHash]

/-- What a transaction leaves in the database. -/
def Op.apply (op : Op) (db : Db) : Db :=
  match op with
  | deleteTenant now => (Gpq.deleteTenant now).commit db
  | updateSettings settings => (committed (Gpq.updateSettings settings)).commit db
  | enroll id name credentialHash => (committed (Workers.enroll id name credentialHash)).commit db
  | revokeWorker id now => (committed (Workers.revokeWorker id now)).commit db
  | setModelAlias aliasName version => (Catalog.setModelAlias aliasName version).commit db
  | deleteModelAlias aliasName => (Catalog.deleteModelAlias aliasName).commit db
  | createInput id manifest placement objectKey now =>
    (committed (Artifacts.createInput id manifest placement objectKey now)).commit db
  | setRemoteLocalContent id bytes now clock =>
    (committed (Artifacts.setRemoteLocalContent id bytes now clock)).commit db
  | beginDelivery id clock => (committed (Artifacts.beginDelivery id clock)).commit db
  | commitOffset id offset => (committed (Artifacts.commitOffset id offset)).commit db
  | setArtifactState id target now => (committed (Artifacts.setState id target now)).commit db
  | submit request id objectStoreAvailable uploaded now clock =>
    (Gpq.admitGeneration request id objectStoreAvailable uploaded now clock).commit db
  | tryAssign assignment attemptId now sent =>
    (Gpq.tryAssign assignment attemptId now sent).commit db
  | cancelGeneration id now => (Gpq.cancelGeneration id now).commit db
  | capabilityReport w pools => (tryHandleCapabilityReport w pools).commit db
  | heartbeat w attemptIds now clock =>
    (tryHandleHeartbeat w attemptIds now clock).commit db
  | attemptRunning w attemptId now => (tryHandleAttemptRunning w attemptId now).commit db
  | attemptProgress w attemptId progress now =>
    (tryHandleAttemptProgress w attemptId progress now).commit db
  | attemptResult w attemptId outputs now =>
    (tryHandleAttemptResult w attemptId outputs now).commit db
  | attemptFailed w attemptId failure now =>
    (settleAttemptFailure w attemptId failure now).commit db
  | leaseRejected w attemptId now => (tryHandleLeaseRejected w attemptId now).commit db
  | cancelAcknowledged w attemptId now =>
    (tryHandleCancelAcknowledged w attemptId now).commit db
  | expireLeases now skip => (Gpq.expireLeases now skip).commit db
  | enforceExecutionDeadlines now skip => (Gpq.enforceExecutionDeadlines now skip).commit db
  | propagateCancellations now => (Gpq.propagateCancellations now).commit db
  | expireStarvedQueue now => (Gpq.expireStarvedQueue now).commit db
  | expireArtifacts now => (Gpq.expireArtifacts now).commit db

/-- A Tenant's database before anything happened. -/
def Db.initial (tenantId : Uuid) : Db := { tenantId }

/-- The databases that operations reach where each is allowed in its state. -/
def ReachesBy (allowed : Op → Db → Prop) : Db → Prop :=
  Machine.Reachable (fun db => ∃ tenantId, db = .initial tenantId) (Machine.Fires Op.apply allowed)

/-- The databases that any operations reach. -/
def Reaches : Db → Prop := ReachesBy fun _ _ => True

/-- A run of allowed operations ends in a reached database. -/
theorem reachesBy_run {allowed : Op → Db → Prop} (tenantId : Uuid) (ops : List Op)
    (h : Machine.Allowed Op.apply allowed (.initial tenantId) ops) :
    ReachesBy allowed (Machine.run Op.apply (.initial tenantId) ops) :=
  Machine.reachable_run (.init ⟨tenantId, rfl⟩) ops h

end Machine

/-! ## A small installation -/

namespace Sample

/-- The digest of an all-zero asset. -/
def zeroHash : String := "0000000000000000000000000000000000000000000000000000000000000000"

/-- An image model whose assets have the digest `zeroHash`, with the family's
    default sampling. -/
def model : ModelAdvertisement where
  versionSha256 := "220af7e513b6f72b16f03a765a1e6bb86ef313934da3f780bca7d0fbd5215885"
  manifest := some {
    family := .known .qwenImage21
    assets := [⟨.known .diffusion, zeroHash⟩, ⟨.known .textEncoder, zeroHash⟩,
      ⟨.known .visionEncoder, zeroHash⟩, ⟨.known .vae, zeroHash⟩]
    defaultLoras := []
    sampling := some ⟨40, 0x40C00000#32, []⟩ }

/-- The digest of the model's manifest. -/
def version : ContentHash :=
  0x220af7e513b6f72b16f03a765a1e6bb86ef313934da3f780bca7d0fbd5215885#256

/-- The canonical hash, on the one manifest of the installation. -/
@[reducible]
def manifestHash : ManifestHash := ⟨fun _ => version⟩

/-- A Pool of one Slot that offers the model. -/
def pool : PoolAdvertisement where
  poolId := "gpu0"
  accelerator := "cuda"
  backendVersion := "12.8"
  ready := true
  unreadyReason := ""
  slots := 1
  models := [model]
  residentModelSha256 := ""
  acceleratorMemoryBytes := none
  imageLoraSha256 := []
  shapeLimits := none

/-- A request for an image. -/
def request : AdmissionRequest where
  aliasName := "qwen"
  parameters := .image {
    prompt := "a fox"
    negativePrompt := ""
    width := 1024
    height := 1024
    steps := none
    cfgScale := none
    references := []
    loras := []
    sigmas := none }
  outputPlacement := .workerLocal
  priority := none
  seed := none
  executionTimeout := none
  idempotencyKey := none

/-- The first Worker, whose Pool is 21. -/
def alpha : AuthenticatedWorker := ⟨11, [1]⟩

/-- The second Worker, whose Pool is 22. -/
def beta : AuthenticatedWorker := ⟨12, [2]⟩

/-- Two Workers, one Pool each, and the admitted Generation 31. -/
def setUp : List Op := [
  .enroll 11 "alpha" [1],
  .enroll 12 "beta" [2],
  .capabilityReport alpha [(21, pool)],
  .capabilityReport beta [(22, pool)],
  .setModelAlias "qwen" version,
  .submit request 31 false (fun _ => false) 0 0]

/-- The first Attempt, on the first Worker. -/
def firstLease : Op := .tryAssign ⟨11, 21, 31⟩ 41 0 true

/-- The first lease expires, and the Generation is leased to the second Worker. -/
def retried : List Op := [
  firstLease,
  .expireLeases 45000000 fun _ => false,
  .tryAssign ⟨12, 22, 31⟩ 42 45000000 true]

/-- The database after the installation's operations. -/
def after (ops : List Op) : Db :=
  Machine.run (@Op.apply manifestHash) (.initial 1) (setUp ++ ops)

theorem after_append (ops : List Op) (op : Op) :
    after (ops ++ [op]) = @Op.apply manifestHash op (after ops) := by
  simp [after, Machine.run, ← List.append_assoc, List.foldl_append]

theorem reaches_after (ops : List Op) : @Reaches manifestHash (after ops) :=
  @reachesBy_run manifestHash _ 1 _ (Machine.allowed_of_forall (fun _ _ => trivial) _ _)

end Sample

end Gpq
