import Mathlib.Data.List.DropRight
import Gpq.Remote.Digest
import Gpq.Remote.Settings
import Gpq.Remote.Transfer

/-!
# Submitted requests

What the native `Submit` call makes of its header and its message before admission
(`decodeSubmit`), and what admission answers and leaves (`admitRequest`).

As in `Gpq.Remote.Settings` a duration of a message is what the handler reads of it. How a text is
quoted in an error is a parameter, and so is the digest.
-/

namespace Gpq

open Sql DbKey

/-! ## The idempotency key -/

/-- The longest idempotency key, in bytes. -/
def maxIdempotencyKeyLen : ℕ := 200

/-- Whether a header's text may hold the character. -/
def isVisibleAscii (c : Char) : Bool := (' ' ≤ c && c ≤ '~') || c = '\t'

/-- The text of a header's value, where it is one. -/
def headerText (value : String) : Option String :=
  if value.toList.all isVisibleAscii then some value else none

/-- A text without the white space around it. -/
def trim (s : String) : String :=
  String.ofList ((s.toList.dropWhile isWhiteSpace).rdropWhile isWhiteSpace)

/-- The key that `Submit` requires. -/
def requiredIdempotencyKey (header : Option String) : Except ConnectError String :=
  match (header.map trim).filter (· ≠ "") with
  | none => .error ⟨.invalidArgument, "idempotency-key header is required for Submit"⟩
  | some key =>
    if key.utf8ByteSize > maxIdempotencyKeyLen then
      .error ⟨.invalidArgument,
        "idempotency-key must be at most " ++ toString maxIdempotencyKeyLen ++ " bytes"⟩
    else .ok key

/-! ## The message -/

/-- The parameters of an image on the wire. -/
structure WireImageParameters where
  prompt : String
  negativePrompt : String
  width : UInt32
  height : UInt32
  steps : Option UInt32
  cfgScale : Option F32
  referenceArtifactIds : List String
  loras : List ProtoLoraSelection
  sigmas : List F32

/-- The parameters of a video on the wire. -/
structure WireVideoParameters where
  prompt : String
  negativePrompt : String
  width : UInt32
  height : UInt32
  frames : UInt32
  firstFrameArtifactId : Option String
  lastFrameArtifactId : Option String

/-- The parameters of either modality on the wire. -/
inductive WireGenerationParameters
  | image (image : WireImageParameters)
  | video (video : WireVideoParameters)

/-- A request on the wire. -/
structure SubmitRequest where
  modelAlias : Option String
  generationParameters : Option WireGenerationParameters
  outputPlacement : EnumValue ArtifactPlacement
  priority : UInt32
  seed : Option UInt64
  executionTimeout : Option ℕ

section Decode

variable [UuidText] (quote : String → String)

/-- The identifier in a field of a request. -/
def parseArtifactId (field value : String) : Except ConnectError Uuid :=
  (UuidText.parse value).mapError fun err =>
    ⟨.invalidArgument, "invalid " ++ field ++ " " ++ quote value ++ ": " ++ err⟩

/-- A LoRA of a request, whose digest must be one. -/
def loraFromProto (lora : ProtoLoraSelection) : Except ConnectError LoraSelection :=
  match parseContentHash lora.sha256 with
  | some sha256 => .ok { sha256, scale := lora.scale }
  | none => .error ⟨.invalidArgument,
      "invalid lora sha256 " ++ quote lora.sha256 ++ ": " ++ contentHashError lora.sha256⟩

/-- The parameters of an image, with the artifacts that they refer to. -/
def imageParametersFromProto (wire : WireImageParameters) : Except ConnectError ImageParameters := do
  let references ← wire.referenceArtifactIds.mapM (parseArtifactId quote "reference_artifact_id")
  let loras ← wire.loras.mapM (loraFromProto quote)
  return {
    prompt := wire.prompt
    negativePrompt := wire.negativePrompt
    width := wire.width
    height := wire.height
    steps := wire.steps
    cfgScale := wire.cfgScale
    references
    loras
    sigmas := if wire.sigmas.isEmpty then none else some wire.sigmas }

/-- The parameters of a video, with its first and last frame. -/
def videoParametersFromProto (wire : WireVideoParameters) : Except ConnectError VideoParameters := do
  let firstFrame ← wire.firstFrameArtifactId.mapM (parseArtifactId quote "first_frame_artifact_id")
  let lastFrame ← wire.lastFrameArtifactId.mapM (parseArtifactId quote "last_frame_artifact_id")
  return {
    prompt := wire.prompt
    negativePrompt := wire.negativePrompt
    width := wire.width
    height := wire.height
    frames := wire.frames
    firstFrame
    lastFrame }

/-- The parameters of a request, which must say of which kind they are. -/
def parametersFromProto : Option WireGenerationParameters → Except ConnectError GenerationParameters
  | some (.image image) => .image <$> imageParametersFromProto quote image
  | some (.video video) => .video <$> videoParametersFromProto quote video
  | none => .error ⟨.invalidArgument, "image_parameters or video_parameters is required"⟩

/-- The priority of a request; zero leaves it to the Tenant. -/
def requestedPriority (priority : UInt32) : Except ConnectError (Option Priority) :=
  if priority = 0 then .ok none
  else match priorityFromWire priority with
    | .ok priority => .ok (some priority)
    | .error _ => .error ⟨.invalidArgument,
      "priority " ++ toString priority.toNat ++ " is outside 0..=9"⟩

/-- The request that `Submit` admits, with the digest of its idempotency key. -/
def decodeSubmit (digest : Json → Bytes) (header : Option String) (wire : SubmitRequest) :
    Except ConnectError AdmissionRequest := do
  let key ← requiredIdempotencyKey (header.bind headerText)
  let aliasName ← (wire.modelAlias.elim (.error ⟨.invalidArgument, "model_alias is required"⟩) .ok :
    Except ConnectError String)
  let parameters ← parametersFromProto quote wire.generationParameters
  let outputPlacement ← (wire.outputPlacement.get?.elim
    (.error ⟨.invalidArgument, "output_placement must be set"⟩) .ok : Except ConnectError
      ArtifactPlacement)
  let priority ← requestedPriority wire.priority
  let request : AdmissionRequest := {
    aliasName
    parameters
    outputPlacement
    priority
    seed := wire.seed
    executionTimeout := wire.executionTimeout
    idempotencyKey := none }
  return { request with idempotencyKey := some (key, digest (digestPayload request)) }

end Decode

/-! ## The answer -/

/-- What the caller is told: a statement that fails is an internal error. -/
def admissionReply {σ : Type} : Except DbError (Verdict (Except AdmissionError Uuid) × σ) →
    Except AdmissionError Uuid
  | .ok (.commit reply, _) | .ok (.rollback reply, _) => reply
  | .error _ => .error .internal

/-- Admits a request: the answer, and the database that is left. -/
def admitRequest (request : AdmissionRequest) (id : Uuid) (objectStoreAvailable : Bool)
    (uploaded : Uuid → Bool)
    (now clock : Time) (db : Db) : Except AdmissionError Uuid × Db :=
  let body := admitGeneration request id objectStoreAvailable uploaded now clock
  (admissionReply (body.run db), body.commit db)

end Gpq
