import Gpq.Remote.Transfer

/-!
# The inputs of an execution

Before it runs an Attempt, the Worker downloads the inputs that the lease lists (`fetchInputs`)
and checks that they are those that the typed parameters refer to (`referencedInputs`). A
Remote-local input comes as a stream of chunks (`fetchRemoteLocalInput`), any other from a
presigned URL.

What the file system, the Remote and the object store answer to a download is given with it
(`Download`). A path is its text.
-/

namespace Gpq

/-- Why an execution stops. -/
inductive Stop
  | cancelled
  | failed (kind : FailureKind) (message : String) (retryHint : Bool)
  deriving DecidableEq

/-- A request that cannot be run. -/
def invalid (message : String) : Stop := .failed .invalidInput message false

/-- A manifest as a message carries it; a kind that is none is kept as its debug text. -/
structure WireArtifactManifest where
  sizeBytes : UInt64
  digestSha256 : String
  kind : Except String MediaKind
  mimeType : String

/-- Where an input of a lease is fetched from. -/
inductive InputPlacement
  | remoteLocal
  | objectStore
  /-- Nowhere; the value is kept as its debug text. -/
  | unsupported (placement : String)
  deriving DecidableEq

/-- An input of a lease. -/
structure LeaseInput where
  artifactId : String
  manifest : WireArtifactManifest
  placement : InputPlacement
  downloadUrl : String

/-- The manifest of a message. -/
def manifestFromProto (manifest : WireArtifactManifest) : Except String ArtifactManifest := do
  let digest ← (parseContentHash manifest.digestSha256).elim
    (.error ("invalid artifact digest: " ++ contentHashError manifest.digestSha256)) .ok
  let kind ← manifest.kind.mapError ("unknown artifact media kind: " ++ ·)
  return { sizeBytes := manifest.sizeBytes, digest, kind, mimeType := manifest.mimeType }

/-- A downloaded input. -/
structure InputArtifact where
  path : String
  manifest : ArtifactManifest
  deriving DecidableEq

/-- Why a download fails. -/
abbrev DownloadError := FailureKind × String

/-- What the world answers to one download. -/
structure Download where
  created : Except String Unit := .ok ()
  /-- The call of the Remote, and the messages of its stream. -/
  stream : Except String (List (Except String ArtifactChunk)) := .ok []
  /-- The presigned URL and its response, and the chunks of the response's body. -/
  object : Except DownloadError (List (Except DownloadError Bytes)) := .ok []
  /-- A write of bytes at an offset of the file. -/
  written : UInt64 → Bytes → Except String Unit := fun _ _ => .ok ()
  flushed : Except String Unit := .ok ()

/-- What a download has received: its length, its digest so far, and the bytes of the file. -/
structure InputFile where
  total : UInt64 := 0
  hasher : Hasher := {}
  bytes : Bytes := []
  deriving DecidableEq

/-- Appends bytes, of which the new length is given. -/
def InputFile.append (self : InputFile) (download : Download) (total : UInt64) (data : Bytes) :
    Except DownloadError InputFile := do
  (download.written self.total data).mapError fun error => (.internal, error)
  return { total, hasher := self.hasher.update data, bytes := self.bytes ++ data }

/-- Reads the chunks of a Remote-local input, up to the final one. -/
def receiveInputChunks (download : Download) :
    InputFile → List (Except String ArtifactChunk) → Except DownloadError InputFile
  | _, [] => .error (.transferFailed, "remote-local artifact stream ended before its final chunk")
  | _, .error error :: _ => .error (.transferFailed, error)
  | received, .ok chunk :: messages =>
    -- nothing is read after the final chunk, so none was seen before this one
    if chunk.offset ≠ received.total ∨ chunk.data.length > transferChunkBytes then
      .error (.transferFailed,
        "remote-local artifact chunks have invalid offset, size, or final marker")
    else match checkedAdd received.total chunk.data.length with
      | none => .error (.transferFailed, "artifact byte offset overflow")
      | some total => match received.append download total chunk.data with
        | .error error => .error error
        | .ok received =>
          if chunk.last then .ok received else receiveInputChunks download received messages

/-- Downloads an input that the Remote keeps. -/
def fetchRemoteLocalInput (leaseInput : LeaseInput) (download : Download) :
    Except DownloadError InputFile := do
  if leaseInput.downloadUrl ≠ "" then
    throw (.invalidInput, "remote-local input must use the authenticated transfer RPC, not a URL")
  let messages ← download.stream.mapError fun error => (.transferFailed, error)
  receiveInputChunks download {} messages

/-- Reads the body of a presigned URL's response. -/
def receiveObjectChunks (download : Download) (received : InputFile)
    (chunk : Except DownloadError Bytes) : Except DownloadError InputFile := do
  let data ← chunk
  match checkedAdd received.total data.length with
  | none => throw (.transferFailed, "artifact byte count overflow")
  | some total => received.append download total data

/-- Downloads an input from its presigned URL. -/
def fetchObjectStoreInput (download : Download) : Except DownloadError InputFile := do
  (← download.object).foldlM (receiveObjectChunks download) {}

variable [Sha256]

/-- Downloads one input and verifies it: the bytes of the file. -/
def downloadInput (leaseInput : LeaseInput) (manifest : ArtifactManifest) (download : Download) :
    Except DownloadError Bytes := do
  download.created.mapError fun error => (.internal, error)
  let received ← match leaseInput.placement with
    | .remoteLocal => fetchRemoteLocalInput leaseInput download
    | .objectStore => fetchObjectStoreInput download
    | .unsupported placement => throw (.invalidInput, "unsupported input placement: " ++ placement)
  download.flushed.mapError fun error => (.internal, error)
  (manifest.verify received.total received.hasher.finish).mapError
    fun mismatch => (.transferFailed, mismatch.toString)
  return received.bytes

/-- What an execution knows: the inputs of its lease, its typed parameters, its directory, and
    what is answered to its downloads. -/
structure ExecutionContext where
  inputs : List LeaseInput
  parameters : GenerationParameters
  attemptDir : String
  download : Uuid → Download

/-- The downloaded inputs. -/
abbrev InputArtifacts := AList fun _ : Uuid => InputArtifact

/-- The inputs that the parameters refer to. -/
def referencedInputs : GenerationParameters → Finset Uuid
  | .image image => image.references.toFinset
  | .video video => video.firstFrame.toFinset ∪ video.lastFrame.toFinset

/-- Downloads an input of the lease, unless it is there. -/
def fetchInput [UuidText] (ctx : ExecutionContext) (inputs : InputArtifacts)
    (leaseInput : LeaseInput) :
    Except Stop InputArtifacts := do
  let artifactId ← (UuidText.parse leaseInput.artifactId).mapError
    fun error => invalid ("invalid input artifact id: " ++ error)
  let manifest ← (manifestFromProto leaseInput.manifest).mapError invalid
  match inputs.lookup artifactId with
  | some previous =>
    if previous.manifest ≠ manifest then
      throw (invalid ("duplicate input " ++ displayUuid artifactId ++ " has conflicting manifests"))
    return inputs
  | none =>
    let path := ctx.attemptDir ++ "/input-" ++ displayUuid artifactId
    let _ ← (downloadInput leaseInput manifest (ctx.download artifactId)).mapError
      fun (kind, message) => .failed kind message kind.isRetryable
    return inputs.insert artifactId { path, manifest }

/-- A referenced input that the lease does not list. -/
def absentInput : Stop := invalid "a typed request references an artifact absent from the lease"

/-- A listed input that is not referenced. -/
def unreferencedInput : Stop := invalid "lease stages an artifact not referenced by typed parameters"

/-- Downloads the inputs of the lease, which are to be the referenced ones. -/
def fetchInputs [UuidText] (ctx : ExecutionContext) : Except Stop InputArtifacts := do
  let inputs ← ctx.inputs.foldlM (fetchInput ctx) ∅
  let required := referencedInputs ctx.parameters
  if ∃ artifact ∈ required, artifact ∉ inputs then throw absentInput
  if inputs.keys.any (· ∉ required) then throw unreferencedInput
  return inputs

end Gpq
