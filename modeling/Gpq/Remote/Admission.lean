import Gpq.Remote.Session

/-!
# Admission

How a request becomes a queued Generation: one transaction that replays a known
idempotency key, checks the Tenant's capacity, resolves the alias, validates the
parameters and the input Artifacts, and then inserts the row and claims its
inputs. Any refusal drops the transaction.
-/

namespace Gpq

open Sql DbKey

variable [ManifestHash]

/-- A request for admission; the timeout in nanoseconds, the idempotency key with
    the digest of the request. -/
structure AdmissionRequest where
  aliasName : String
  parameters : GenerationParameters
  outputPlacement : ArtifactPlacement
  priority : Option Priority
  seed : Option UInt64
  executionTimeout : Option ℕ
  idempotencyKey : Option (String × Bytes)

/-- Why a request is not admitted. -/
inductive AdmissionError
  | unknownAlias
  | invalidInput (message : String)
  | capacityExceeded
  | objectStoreUnavailable
  | internal
  deriving DecidableEq

/-- The text of a parameter error. -/
def ParameterValidationError.display : ParameterValidationError → String
  | emptyPrompt => "prompt must not be empty"
  | promptTooLong => "prompt exceeds the native request size limit"
  | invalidDimensions => "width and height must be positive multiples of 32"
  | invalidSteps => "steps must be positive"
  | nonFiniteCfgScale => "cfg_scale must be finite"
  | tooManyReferences => "image requests support at most ten references"
  | nonFiniteLoraScale => "LoRA scales must be finite"
  | invalidSigmas => "sigma schedule must be finite and contain at least two values when nonempty"
  | samplingStepsMismatch => "steps must match the selected sigma schedule length minus one"
  | invalidVideoFrames => "video frame count must be at least 5 and satisfy 17k+5"
  | videoDimensionLimit => "video dimensions exceed the VP8 maximum axis"
  | lastFrameRequiresFirst => "last_frame requires first_frame"
  | familyModalityMismatch => "model family does not support the requested modality"

/-- The text of a sampling error. -/
def SamplingError.display : SamplingError → String
  | invalidSteps => "sampling steps must be positive"
  | nonFiniteCfgScale => "sampling cfg_scale must be finite"
  | nonFiniteSigma => "sampling sigmas must be finite"
  | invalidSigmaSchedule => "a nonempty sigma schedule must contain at least two values"
  | sigmaStepCountOverflow => "sigma schedule step count exceeds u32"
  | stepsMismatch => "sampling steps must match sigma schedule length minus one"

/-- A modality's default execution timeout, in nanoseconds. -/
def Modality.defaultExecutionTimeout : Modality → ℕ
  | image => 2 * 3600 * 10 ^ 9
  | video => 24 * 3600 * 10 ^ 9

/-- The execution timeout: the version's or the modality's, shortened by the
    request and by the Tenant's ceiling. -/
def resolveExecutionTimeout (modality : Modality) (version requested : Option ℕ)
    (tenantCeiling : ℕ) : ℕ :=
  let base := version.getD modality.defaultExecutionTimeout
  min ((requested.map (min · base)).getD base) tenantCeiling

/-- Whether the queue-capacity gate rejects a new admission. -/
def queueCapacityExceeded (nonterminal maxQueuedGenerations : ℕ) : Bool :=
  nonterminal ≥ maxQueuedGenerations

/-- Checks one input Artifact; `uploaded` answers for the object store. -/
def validateInputArtifact (id : Uuid) (row : Option ArtifactRow) (maxInputArtifactBytes : UInt64)
    (uploaded : Uuid → Bool) : Except AdmissionError Unit := do
  let name := displayUuid id
  let some r := row | throw (.invalidInput ("input artifact " ++ name ++ " does not exist"))
  if r.direction ≠ .input then
    throw (.invalidInput ("artifact " ++ name ++ " is not an input artifact"))
  if r.manifest.sizeBytes > maxInputArtifactBytes then
    throw (.invalidInput ("input artifact " ++ name ++ " exceeds the tenant's size limit"))
  let ready := match r.placement with
    | .remoteLocal | .workerLocal => r.state = .available
    | .objectStore => r.state = .pending
  if !ready then throw (.invalidInput ("input artifact " ++ name ++ " is not ready"))
  if r.placement = .objectStore then
    if r.objectKey.isNone then
      throw (.invalidInput ("object-store input artifact " ++ name ++ " has no object key"))
    if !uploaded id then
      throw (.invalidInput ("object-store input artifact " ++ name ++ " has not been uploaded"))

/-- The sampling overrides of a request. -/
def samplingOverrides : GenerationParameters → Option UInt32 × Option F32 × Option (List F32)
  | .image image => (image.steps, image.cfgScale, image.sigmas)
  | .video _ => (none, none, none)

/-- Checks a request's parameters against the model its alias resolves to. -/
def validateParameters (request : AdmissionRequest) (manifest : ModelManifest) :
    Except AdmissionError Unit := do
  (request.parameters.validateForFamily manifest.family).mapError fun e => .invalidInput e.display
  let overrides := samplingOverrides request.parameters
  let _ ← (manifest.sampling.resolve overrides.1 overrides.2.1 overrides.2.2).mapError fun e =>
    AdmissionError.invalidInput e.display

/-- Checks a request's seed. -/
def validateSeed (seed : Option UInt64) : Except AdmissionError Unit :=
  match seed with
  | some seed =>
    if seed.toNat > i64Max then
      .error (.invalidInput
        ("seed " ++ toString seed.toNat ++ " does not fit a signed 64-bit column"))
    else .ok ()
  | none => .ok ()

/-- The Generation a request becomes. -/
def newGeneration (request : AdmissionRequest) (id : Uuid) (version : ContentHash)
    (model : ModelVersionRow) (settings : TenantSettings) (now : Time) : NewGeneration where
  id := id
  aliasName := request.aliasName
  version := version
  parameters := request.parameters
  priority := request.priority.getD settings.defaultPriority
  seed := request.seed.map UInt64.toNat
  executionTimeout := resolveExecutionTimeout model.manifest.modality
    (model.executionTimeout.map (1000 * ·)) request.executionTimeout
    (1000 * settings.executionTimeoutCeiling)
  outputPlacement := request.outputPlacement
  createdAt := now

/-- The model an alias names. -/
def resolveModelAlias (aliasName : String) : Body (Option (ContentHash × ModelVersionRow)) :=
  .exec <| .require (storable aliasName) .encoding <| .read fun db => do
    let version ← fetch db (modelAlias aliasName)
    let row ← fetch db (modelVersion version)
    return (version, row)

/-- The Generation a known idempotency key stands for. -/
def replayIdempotent (key : String)
    (digest : Bytes) : Body (Except AdmissionError (Option Uuid)) := do
  let some existing ← .exec (.require (storable key) .encoding (.read fun db =>
    fetch db (idempotencyKey key))) | return .ok none
  if existing.requestDigest ≠ digest then
    return .error (.invalidInput "idempotency key was already used with a different request")
  let some _ ← Generations.get existing.generationId | return .error .internal
  return .ok (some existing.generationId)

/-- Records an idempotency key against the freshly inserted Generation. -/
def recordIdempotencyKey (key : String) (digest : Bytes) (generationId : Uuid) : Body Unit :=
  .exec <| .require (storable key) .encoding <| .write fun db =>
    if (fetch db (idempotencyKey key)).isSome then .error .unique
    else .ok ((), [⟨idempotencyKey key, some { requestDigest := digest, generationId }⟩])

/-- Inserts the new Generation, claims its inputs and records its key. -/
def admitNew (request : AdmissionRequest) (new : NewGeneration) (clock : Time) :
    Body (Verdict (Except AdmissionError Uuid)) := do
  Generations.insert new
  let inputs := request.parameters.stagingArtifactIds
  let linked ← if inputs.isEmpty then pure 0 else Artifacts.linkInputArtifacts new.id inputs clock
  if linked ≠ inputs.length then
    return .rollback (.error (.invalidInput
      "an input artifact is missing or already linked to a generation"))
  match request.idempotencyKey with
  | some (key, digest) => recordIdempotencyKey key digest new.id
  | none => pure ()
  return .commit (.ok new.id)

/-- What is left of `admitNew` where `linked` inputs were claimed. -/
def admitLinked (request : AdmissionRequest) (new : NewGeneration) (linked : ℕ) :
    Body (Verdict (Except AdmissionError Uuid)) := do
  if linked ≠ request.parameters.stagingArtifactIds.length then
    return .rollback (.error (.invalidInput
      "an input artifact is missing or already linked to a generation"))
  match request.idempotencyKey with
  | some (key, digest) => recordIdempotencyKey key digest new.id
  | none => pure ()
  return .commit (.ok new.id)

/-- Admits a request that no idempotency key replays. -/
def admitFresh (request : AdmissionRequest) (id : Uuid) (uploaded : Uuid → Bool)
    (now clock : Time) : Body (Verdict (Except AdmissionError Uuid)) := do
  let some settings ← tenantSettings | return .rollback (.error .internal)
  let nonterminal ← Generations.countNonterminal
  if queueCapacityExceeded nonterminal settings.maxQueuedGenerations then
    return .rollback (.error .capacityExceeded)
  let some (version, model) ← resolveModelAlias request.aliasName
    | return .rollback (.error .unknownAlias)
  match validateParameters request model.manifest with
  | .error e => return .rollback (.error e)
  | .ok _ =>
    let inputs ← Prog.forEach (fun artifactId => do
      return validateInputArtifact artifactId (← Artifacts.get artifactId)
        settings.maxInputArtifactBytes uploaded) request.parameters.stagingArtifactIds
    match inputs.forM (fun checked => checked), validateSeed request.seed with
    | .error e, _ => return .rollback (.error e)
    | .ok _, .error e => return .rollback (.error e)
    | .ok _, .ok _ => admitNew request (newGeneration request id version model settings now) clock

/-- Admits a new Generation. -/
def admitGeneration (request : AdmissionRequest) (id : Uuid) (objectStoreAvailable : Bool)
    (uploaded : Uuid → Bool) (now clock : Time) : Body (Verdict (Except AdmissionError Uuid)) := do
  if request.outputPlacement = .remoteLocal then
    return .rollback (.error (.invalidInput "output_placement must be object_store or worker_local"))
  if request.outputPlacement = .objectStore && !objectStoreAvailable then
    return .rollback (.error .objectStoreUnavailable)
  match request.idempotencyKey with
  | none => admitFresh request id uploaded now clock
  | some (key, digest) =>
    match ← replayIdempotent key digest with
    | .error e => return .rollback (.error e)
    | .ok (some existing) => return .commit (.ok existing)
    | .ok none => admitFresh request id uploaded now clock

end Gpq
