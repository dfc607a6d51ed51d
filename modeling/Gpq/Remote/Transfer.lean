import Gpq.Domain.Text
import Gpq.Remote.Delivery

/-!
# Transfers

The Remote's side of `DeliverArtifact`: a Worker streams the bytes of an output, and each
chunk is passed to the subscribed downloader as soon as it is accepted.

The stream is the list of the messages that arrive on it. Its list ends where the stream
does. Whether the downloader is still subscribed depends on what it was passed so far.
-/

namespace Gpq

open Sql DbKey

/-- The code of a refused call. -/
inductive ErrorCode
  | invalidArgument
  | notFound
  | failedPrecondition
  | unavailable
  | internal
  deriving DecidableEq

/-- A refused call. -/
structure ConnectError where
  code : ErrorCode
  message : String
  deriving DecidableEq

/-- How a delivery is announced, its fields parsed. -/
structure DeliverArtifactStart where
  artifactId : Uuid
  deliveryToken : String
  manifest : ArtifactManifest
  offset : UInt64
  deriving DecidableEq

/-- One chunk of a delivery. -/
structure ArtifactChunk where
  offset : UInt64
  data : Bytes
  last : Bool
  deriving DecidableEq

/-- What a message of the stream holds. -/
inductive DeliverArtifactMessage
  | start (start : DeliverArtifactStart)
  | chunk (chunk : ArtifactChunk)
  deriving DecidableEq

/-- An item of the stream: a message, which may be empty, or a transport error. -/
abbrev InboundItem := Except ConnectError (Option DeliverArtifactMessage)

/-- The answer to a delivery. -/
structure DeliverArtifactResponse where
  accepted : Bool
  reason : String
  committedOffset : UInt64
  deriving DecidableEq

/-- Checks a start against the recorded output. -/
def validateDeliveryStart (db : Db) (start : DeliverArtifactStart) :
    Except ConnectError (Uuid × ArtifactManifest) := do
  let some row := fetch db (artifact start.artifactId) | throw ⟨.notFound, "artifact not found"⟩
  if row.state ≠ .delivering then
    throw ⟨.failedPrecondition, "artifact is not currently being delivered"⟩
  if row.manifest ≠ start.manifest then
    throw ⟨.failedPrecondition, "delivered manifest does not match the recorded output manifest"⟩
  if start.offset > row.manifest.sizeBytes then
    throw ⟨.failedPrecondition, "delivery offset is past the artifact size"⟩
  if row.committedOffset ≠ start.offset.toNat then
    throw ⟨.failedPrecondition, "delivery offset does not match the recorded progress"⟩
  if row.deliveryToken ≠ some start.deliveryToken then
    throw ⟨.failedPrecondition, "delivery token mismatch"⟩
  return (start.artifactId, start.manifest)

/-- How transferred bytes differ from their manifest. -/
inductive ManifestMismatch
  | size (declared received : UInt64)
  | digest (declared received : ContentHash)
  deriving DecidableEq

namespace ManifestMismatch

/-- The mismatch as text. -/
def toString : ManifestMismatch → String
  | size declared received =>
    "artifact size mismatch: declared " ++ declared.toNat.repr ++ ", received " ++ received.toNat.repr
  | digest declared received =>
    "artifact digest mismatch: declared " ++ declared.toHex ++ ", received " ++ received.toHex

end ManifestMismatch

/-- Verifies transferred bytes against the manifest. -/
def ArtifactManifest.verify (self : ArtifactManifest) (receivedBytes : UInt64)
    (digest : ContentHash) :
    Except ManifestMismatch Unit :=
  if receivedBytes ≠ self.sizeBytes then .error (.size self.sizeBytes receivedBytes)
  else if digest ≠ self.digest then .error (.digest self.digest digest)
  else .ok ()

/-- What becomes of a received delivery. -/
inductive DeliveryValidation
  | accepted
  | retryable (reason : String)
  | rejected (reason : String)
  deriving DecidableEq

/-- Validates a whole stream. Only one that started at zero has the digest of the manifest. -/
def validateDeliveryReceipt (manifest : ArtifactManifest) (startOffset committedOffset : UInt64)
    (digest : ContentHash) : DeliveryValidation :=
  if startOffset = 0 then
    match manifest.verify committedOffset digest with
    | .ok () => .accepted
    | .error mismatch@(.digest ..) => .rejected mismatch.toString
    | .error mismatch => .retryable mismatch.toString
  else if committedOffset ≠ manifest.sizeBytes then
    .retryable ("resumed delivery ended at " ++ committedOffset.toNat.repr ++ " bytes, expected " ++
      manifest.sizeBytes.toNat.repr)
  else .accepted

/-- The end of a received stream. -/
inductive ChunkReceipt
  /-- Every chunk reached the downloader. -/
  | delivered (committedOffset : UInt64) (digest : ContentHash)
  /-- Nobody was subscribed. -/
  | noDownloader (committedOffset : UInt64)
  deriving DecidableEq

/-- The offset after a chunk, which must start where the last one ended. -/
def nextDeliveryOffset (expectedOffset : UInt64) (chunk : ArtifactChunk) : Except String UInt64 :=
  if chunk.offset ≠ expectedOffset then
    .error ("artifact chunk offset " ++ chunk.offset.toNat.repr ++
      " does not match expected offset " ++
      expectedOffset.toNat.repr)
  else (checkedAdd expectedOffset chunk.data.length).elim
    (.error "artifact chunk offset overflows u64") .ok

/-- The limit that a chunk exceeds. -/
def chunkLimitReason : String := "artifact chunk exceeds its transfer or manifest size limit"

/-- The offset after an acceptable chunk, or the reason for which the chunk is rejected. -/
def followingOffset (manifest : ArtifactManifest) (nextOffset : UInt64) (chunk : ArtifactChunk) :
    Except String UInt64 :=
  match nextDeliveryOffset nextOffset chunk with
  | .ok offset =>
    if chunk.data.length ≤ transferChunkBytes && offset ≤ manifest.sizeBytes then .ok offset
    else .error chunkLimitReason
  | .error reason => .error reason

/-- The end of a stream that was too short. -/
def endedEarly : String := "delivery stream ended before the final chunk"

/-- The downloader of an output: what it was passed, and whether it is still subscribed. -/
structure Downloader where
  subscribed : List DeliveryChunk → Bool
  received : List DeliveryChunk := []

/-- Passes a chunk to the downloader: whether somebody was subscribed. -/
def Downloader.pushDelivery (self : Downloader) (chunk : DeliveryChunk) : Bool × Downloader :=
  if self.subscribed self.received then (true, { self with received := self.received ++ [chunk] })
  else (false, self)

/-- Reads the chunks of a stream, and passes each on. -/
def receiveDeliveryChunks [Sha256] (manifest : ArtifactManifest) (hasher : Hasher)
    (nextOffset : UInt64) :
    List InboundItem → Downloader → Except ConnectError ChunkReceipt × Downloader
  | [], downloader =>
    let (_, downloader) := downloader.pushDelivery (.failed endedEarly)
    (.error ⟨.invalidArgument, endedEarly⟩, downloader)
  | .error error :: _, downloader => (.error error, downloader)
  | .ok (some (.chunk chunk)) :: requests, downloader =>
    match followingOffset manifest nextOffset chunk with
    | .error reason =>
      let (_, downloader) := downloader.pushDelivery (.rejected reason)
      (.error ⟨.invalidArgument, reason⟩, downloader)
    | .ok offset =>
      let hasher := hasher.update chunk.data
      match downloader.pushDelivery (.data chunk.data) with
      | (false, downloader) => (.ok (.noDownloader offset), downloader)
      | (true, downloader) =>
        if chunk.last then (.ok (.delivered offset hasher.finish), downloader)
        else receiveDeliveryChunks manifest hasher offset requests downloader
  | .ok _ :: _, downloader =>
    (.error ⟨.invalidArgument, "expected an ArtifactChunk after DeliverArtifactStart"⟩, downloader)

/-- Concludes a stream whose chunks were all passed on. -/
def concludeDelivery (manifest : ArtifactManifest) (startOffset : UInt64) (downloader : Downloader) :
    ChunkReceipt → DeliverArtifactResponse × Downloader
  | .noDownloader committedOffset => (⟨false, "no active download", committedOffset⟩, downloader)
  | .delivered committedOffset digest =>
    match validateDeliveryReceipt manifest startOffset committedOffset digest with
    | .retryable reason =>
      (⟨false, reason, committedOffset⟩, (downloader.pushDelivery (.failed reason)).2)
    | .rejected reason =>
      (⟨false, reason, committedOffset⟩, (downloader.pushDelivery (.rejected reason)).2)
    | .accepted => (⟨true, "", committedOffset⟩, (downloader.pushDelivery .complete).2)

/-- A stream whose start was validated. -/
def deliverStarted [Sha256] (manifest : ArtifactManifest) (startOffset : UInt64)
    (requests : List InboundItem) (downloader : Downloader) :
    Except ConnectError DeliverArtifactResponse × Downloader :=
  match receiveDeliveryChunks manifest {} startOffset requests downloader with
  | (.error error, downloader) => (.error error, downloader)
  | (.ok receipt, downloader) =>
    let (response, downloader) := concludeDelivery manifest startOffset downloader receipt
    (.ok response, downloader)

/-- A `DeliverArtifact` call of an authenticated Worker. -/
def deliverArtifact [Sha256] (db : Db) (requests : List InboundItem) (downloader : Downloader) :
    Except ConnectError DeliverArtifactResponse × Downloader :=
  match requests with
  | [] => (.error ⟨.invalidArgument, "empty delivery stream"⟩, downloader)
  | .error error :: _ => (.error error, downloader)
  | .ok (some (.start start)) :: requests =>
    match validateDeliveryStart db start with
    | .error error => (.error error, downloader)
    | .ok (_, manifest) => deliverStarted manifest start.offset requests downloader
  | .ok _ :: _ =>
    (.error ⟨.invalidArgument, "first message must be DeliverArtifactStart"⟩, downloader)

end Gpq
