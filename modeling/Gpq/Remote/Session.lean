import Gpq.Domain.Text
import Gpq.Remote.Attempts
import Gpq.Remote.Artifacts

/-!
# Worker messages

What the Remote's control session does with each inbound Worker message. Every
handler is one transaction that starts by verifying the Worker's credential
(`authenticated`), and either commits or is dropped.

A `CapabilityReport` is decoded here: an advertised Pool without a known
accelerator is dropped (`poolUpsertFromProto`), and so is an advertised model
whose manifest is not runnable or does not hash to its advertised version
(`verifiedModels`).
-/

namespace Gpq

open Sql DbKey

variable [ManifestHash]

/-- A Worker as its session authenticated it. -/
structure AuthenticatedWorker where
  workerId : Uuid
  credentialHash : Bytes

/-! ## Capability reports -/

/-- A protobuf enumeration value: known, or a number this build does not know. -/
inductive EnumValue (α : Type)
  | unspecified
  | known (value : α)
  | unknown (number : ℤ)
  deriving DecidableEq

/-- The known value, if any. -/
def EnumValue.get? {α : Type} : EnumValue α → Option α
  | known value => some value
  | _ => none

/-- An advertised manifest's asset. -/
structure ProtoModelAsset where
  role : EnumValue ModelAssetRole
  sha256 : String

/-- An advertised manifest's LoRA. -/
structure ProtoLoraSelection where
  sha256 : String
  scale : F32

/-- A model manifest on the wire. -/
structure ProtoModelManifest where
  family : EnumValue ModelFamily
  assets : List ProtoModelAsset
  defaultLoras : List ProtoLoraSelection
  sampling : Option SamplingPreset

/-- An advertised model. -/
structure ModelAdvertisement where
  versionSha256 : String
  manifest : Option ProtoModelManifest

/-- An advertised Pool. Of its Slots only their number is used. -/
structure PoolAdvertisement where
  poolId : String
  accelerator : String
  backendVersion : String
  ready : Bool
  unreadyReason : String
  slots : ℕ
  models : List ModelAdvertisement
  residentModelSha256 : String
  acceleratorMemoryBytes : Option UInt64
  imageLoraSha256 : List String
  shapeLimits : Option ShapeLimits

/-- Collects decoded assets; a role that occurs twice spoils the manifest. -/
def assetsFromProto : List ProtoModelAsset → Option (AList fun _ : ModelAssetRole => ContentHash)
  | [] => some ∅
  | asset :: rest => do
    let assets ← assetsFromProto rest
    let role ← asset.role.get?
    let sha256 ← parseContentHash asset.sha256
    if role ∈ assets then none else some (assets.insert role sha256)

/-- Converts an advertised manifest; a partially understood one is refused. -/
def modelManifestFromProto (proto : ProtoModelManifest) : Option ModelManifest := do
  let family ← proto.family.get?
  let assets ← assetsFromProto proto.assets
  let defaultLoras ← proto.defaultLoras.mapM fun lora =>
    (parseContentHash lora.sha256).map fun sha256 => { sha256, scale := lora.scale : LoraSelection }
  let sampling ← proto.sampling
  return { family, assets, defaultLoras, sampling }

/-- The advertised models that may be trusted. -/
def verifiedModels (advertisements : List ModelAdvertisement) :
    List (ContentHash × ModelManifest) :=
  advertisements.filterMap fun advertisement => do
    let advertised ← parseContentHash advertisement.versionSha256
    let manifest ← advertisement.manifest.bind modelManifestFromProto
    if manifest.canonicalHash ≠ advertised then none
    if !manifest.validate.isOk then none
    return (advertised, manifest)

/-- What is stored of an advertised Pool, and its trusted models; nothing if its
    accelerator is unset. -/
def poolUpsertFromProto (pool : PoolAdvertisement) :
    Option (Workers.PoolUpsert × List (ContentHash × ModelManifest)) :=
  if pool.accelerator.isEmpty then none
  else
    let models := verifiedModels pool.models
    some ({
      poolKey := pool.poolId
      accelerator := pool.accelerator
      acceleratorVersion := pool.backendVersion
      ready := pool.ready
      unreadyReason := pool.unreadyReason
      totalSlots := min pool.slots (2 ^ 32 - 1)
      residentModelSha256 :=
        if pool.residentModelSha256.isEmpty then none
        else parseContentHash pool.residentModelSha256
      acceleratorMemoryBytes := pool.acceleratorMemoryBytes
      modelHashes := models.map Prod.fst
      imageLoras := pool.imageLoraSha256.filterMap parseContentHash
      shapeLimits := pool.shapeLimits.getD {} }, models)

/-- Registers model versions that are not registered yet. -/
def registerModelVersions (versions : List (ContentHash × ModelManifest)) : Body Unit := do
  let _ ← Prog.forEach (fun v : ContentHash × ModelManifest => .exec <| .write fun db =>
    if (fetch db (modelVersion v.1)).isSome then .ok ((), [])
    else .ok ((), [⟨modelVersion v.1, some { manifest := v.2, executionTimeout := none }⟩])) versions

/-- Runs a handler's transaction once the Worker's credential is verified. -/
def authenticated {α : Type} (worker : AuthenticatedWorker) (refused : α)
    (body : Body (Verdict α)) : Body (Verdict α) := do
  if !(← Workers.lockCurrentWorkerCredential worker.workerId worker.credentialHash) then
    return .rollback refused
  body

/-- A `CapabilityReport`. Each advertised Pool comes with the identifier that it
    gets if it is a new one. -/
def tryHandleCapabilityReport (worker : AuthenticatedWorker)
    (pools : List (Uuid × PoolAdvertisement)) : Body (Verdict Unit) :=
  let kept := pools.filterMap fun p => (poolUpsertFromProto p.2).map fun u => (p.1, u)
  authenticated worker () do
    registerModelVersions (kept.flatMap fun p => p.2.2)
    Workers.upsertPools worker.workerId (kept.map fun p => (p.1, p.2.1))
    return .commit ()

/-! ## Leases -/

/-- A `Heartbeat`: the Attempts to cancel because they could not be renewed. When a Worker was last
    seen, which the handler records as well, is not modelled. -/
def tryHandleHeartbeat (worker : AuthenticatedWorker) (attemptIds : List Uuid) (now clock : Time) :
    Body (Verdict (List Uuid)) :=
  authenticated worker [] do
    return .commit (← Attempts.heartbeat worker.workerId attemptIds now clock)

/-- A `CancelRequest`, which tells a Worker to stop an Attempt. -/
structure CancelRequest where
  attemptId : String
  reason : String
  deriving DecidableEq, Repr

/-- The messages for the Attempts whose lease a heartbeat could not renew. -/
def notRenewedCancelMessages (notRenewed : List Uuid) : List CancelRequest :=
  notRenewed.map fun attemptId =>
    { attemptId := displayUuid attemptId, reason := "lease could not be renewed" }

/-- The messages that the handler of a `Heartbeat` sends to the Worker. -/
def heartbeatCancels (worker : AuthenticatedWorker) (attemptIds : List Uuid) (now clock : Time)
    (db : Db) : List CancelRequest :=
  match (tryHandleHeartbeat worker attemptIds now clock).run db with
  | .ok (.commit notRenewed, _) => notRenewedCancelMessages notRenewed
  | _ => []

/-- An `AttemptRunning`. -/
def tryHandleAttemptRunning (worker : AuthenticatedWorker) (attemptId : Uuid) (now : Time) :
    Body (Verdict Unit) :=
  authenticated worker () do
    if !(← Attempts.markRunning attemptId worker.workerId now) then return .rollback ()
    let some generationId ← Attempts.generationIdOf attemptId worker.workerId now
      | return .rollback ()
    let _ ← Generations.markRunning generationId now
    return .commit ()

/-- An `AttemptProgress`. -/
def tryHandleAttemptProgress (worker : AuthenticatedWorker) (attemptId : Uuid)
    (progress : ProgressSnapshot) (now : Time) : Body (Verdict Unit) :=
  authenticated worker () do
    let some generationId ← Attempts.generationIdOf attemptId worker.workerId now
      | return .rollback ()
    let _ ← Generations.recordProgress generationId { progress with observedAt := now }
    return .commit ()

/-- A `LeaseRejected`. -/
def tryHandleLeaseRejected (worker : AuthenticatedWorker) (attemptId : Uuid) (now : Time) :
    Body (Verdict (Option Uuid)) :=
  authenticated worker none do
    return .commit (← Attempts.rejectLease attemptId worker.workerId now)

/-! ## Failures and cancellations -/

/-- Settles a live Attempt of the Worker as failed and deletes the inputs of a
    Generation that terminates by it. -/
def settleAttemptFailure (worker : AuthenticatedWorker) (attemptId : Uuid)
    (failure : Attempts.FailureDetails) (now : Time) :
    Body (Verdict (Option (Uuid × RetryDecision))) :=
  authenticated worker none do
    let outcome ← Attempts.recordFailureForWorker attemptId worker.workerId failure now
    match outcome with
    | some (generationId, .fail) => Artifacts.deleteInputsForGeneration generationId
    | _ => pure ()
    return .commit outcome

/-- A `CancelAcknowledged`. -/
def tryHandleCancelAcknowledged (worker : AuthenticatedWorker) (attemptId : Uuid) (now : Time) :
    Body (Verdict (Option Uuid)) :=
  authenticated worker none do
    let outcome ← Attempts.acknowledgeCancel attemptId worker.workerId now
    match outcome with
    | some generationId => Artifacts.deleteInputsForGeneration generationId
    | none => pure ()
    return .commit outcome

/-! ## Results -/

/-- A reported output, decoded: an absent or malformed manifest and an unknown
    placement are `none`. It comes with the identifier its Artifact gets. -/
structure AttemptOutput where
  artifactId : Uuid
  manifest : Option ArtifactManifest
  placement : Option ArtifactPlacement
  objectKey : String
  deliveryToken : String

/-- The Tenant's identifier and settings. -/
def loadSettings : Statement (Uuid × TenantSettings) :=
  .tryRead fun db => match fetch db tenant with
    | some r => .ok (db.tenantId, r.settings)
    | none => .error .rowNotFound

/-- The canonical object-store key of an Attempt's output. -/
def leasedOutputKey (tenantId generationId attemptId : Uuid) : String :=
  displayUuid tenantId ++ "/" ++ displayUuid generationId ++ "/attempts/" ++
    displayUuid attemptId ++ "/output"

/-- Whether an output exceeds what a column or the Tenant's limit can hold. -/
def oversized (settings : TenantSettings) (output : AttemptOutput) : Bool :=
  output.manifest.any fun manifest =>
    manifest.sizeBytes.toNat > i64Max || manifest.sizeBytes > settings.maxOutputArtifactBytes

/-- Records one output of an accepted result. `false`: the report is malformed and
    the whole result is dropped. -/
def recordReportedOutput (tenantId workerId attemptId generationId : Uuid) (output : AttemptOutput)
    (now : Time) : Body Bool :=
  match output.manifest, output.placement with
  | some manifest, some placement =>
    let deliveryToken := if output.deliveryToken.isEmpty then none else some output.deliveryToken
    match placement with
    | .objectStore =>
      if output.objectKey ≠ leasedOutputKey tenantId generationId attemptId then return false
      else do
        Artifacts.recordOutput output.artifactId generationId attemptId none manifest placement
          (some output.objectKey) deliveryToken now
        return true
    | .workerLocal =>
      if !output.objectKey.isEmpty then return false
      else do
        Artifacts.recordOutput output.artifactId generationId attemptId (some workerId) manifest
          placement none deliveryToken now
        return true
    | .remoteLocal => return false
  | _, _ => return true

/-- What a result means for the Worker's reported outputs. -/
inductive ResultReply
  | accepted (generationId : Uuid)
  | acceptedReplay
  | discard
  | failed
  | malformed
  | refused
  deriving DecidableEq, Repr

/-- Records the outputs of an accepted result and deletes the Generation's inputs. -/
def recordAcceptedResult (tenantId workerId attemptId generationId : Uuid)
    (outputs : List AttemptOutput) (now : Time) : Body (Verdict ResultReply) := do
  let recorded ← Prog.forEach
    (fun output => recordReportedOutput tenantId workerId attemptId generationId output now) outputs
  if recorded.any (!·) then return .rollback .malformed
  Artifacts.deleteInputsForGeneration generationId
  return .commit (.accepted generationId)

/-- An `AttemptResult`. An oversized output fails the Attempt instead. -/
def tryHandleAttemptResult (worker : AuthenticatedWorker) (attemptId : Uuid)
    (outputs : List AttemptOutput) (now : Time) : Body (Verdict ResultReply) := do
  let (tenantId, settings) ← .exec loadSettings
  if outputs.any (oversized settings) then
    match ← settleAttemptFailure worker attemptId
      { kind := .invalidInput
        message := "output artifact exceeds the tenant's configured max_output_artifact_bytes"
        workerRetryHint := false } now with
    | .commit _ => return .commit .failed
    | .rollback _ => return .rollback .failed
  else
    authenticated worker .refused do
      match ← Generations.acceptResult attemptId worker.workerId now with
      | .accepted generationId =>
        recordAcceptedResult tenantId worker.workerId attemptId generationId outputs now
      | .acceptedReplay => return .commit .acceptedReplay
      | .staleLease | .alreadyAccepted | .terminal => return .commit .discard

/-! ## Discards -/

/-- A `DiscardOutput`, which tells a Worker to delete an output. -/
structure DiscardOutput where
  deliveryToken : String
  reason : String

/-- The delivery tokens of an Attempt's recorded outputs. -/
def acceptedTokens (attemptId : Uuid) (db : Db) : List String :=
  db.artifacts.rows.filterMap fun e =>
    if e.2.attemptId = some attemptId && e.2.direction = .output then e.2.deliveryToken else none

/-- Discards what a Worker reported, but for the accepted tokens. -/
def discardWorkerOutputs (outputs : List AttemptOutput) (acceptedTokens : List String)
    (reason : String) : List DiscardOutput :=
  (outputs.filter fun o => !o.deliveryToken.isEmpty && o.deliveryToken ∉ acceptedTokens).map fun o =>
    { deliveryToken := o.deliveryToken, reason }

/-- The messages that the handler of an `AttemptResult` sends to the Worker that reports it. -/
def resultDiscards (worker : AuthenticatedWorker) (attemptId : Uuid) (outputs : List AttemptOutput)
    (now : Time) (db : Db) : List DiscardOutput :=
  match (tryHandleAttemptResult worker attemptId outputs now).run db with
  | .ok (.commit .acceptedReplay, db') =>
    discardWorkerOutputs outputs
      (acceptedTokens attemptId db') "result replay included unreferenced outputs"
  | .ok (.commit .discard, _) =>
    discardWorkerOutputs outputs [] "result rejected: stale lease, duplicate, or terminal generation"
  | _ => []

end Gpq
