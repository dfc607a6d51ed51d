import Gpq.Remote.Transfer

/-!
# The Worker's side of a delivery

An output that the Worker keeps is read in chunks (`ArtifactReader.nextChunk`), all of which it
sends to the Remote with the announcement of the delivery (`Worker.deliverArtifact`).

A read of a file returns some of the bytes that remain, as many as it likes: how many is given
with the file, call by call. What it answers to a seek behind its end is given with it, too.
-/

namespace Gpq

/-- An open file, and what its next reads do: they fail, or return so many bytes and one more
    where there are as many and room for them. -/
structure DataFile where
  bytes : Bytes
  position : ℕ := 0
  reads : ℕ → Except String ℕ

namespace DataFile

/-- Reads into a buffer with so much room. No bytes are the end of the file. -/
def read (self : DataFile) (room : ℕ) : Except String (Bytes × DataFile) := do
  let more ← self.reads 0
  let data := (self.bytes.drop self.position).take (min room (more + 1))
  return (data,
    { self with position := self.position + data.length, reads := fun n => self.reads (n + 1) })

/-- Reads until the room is filled, or the file ends. -/
def fill (self : DataFile) (room : ℕ) : Except String (Bytes × DataFile) :=
  if room = 0 then .ok ([], self)
  else match self.read room with
    | .error error => .error error
    | .ok ([], file) => .ok ([], file)
    | .ok (byte :: data, file) =>
      (file.fill (room - (data.length + 1))).map fun (rest, file) => (byte :: data ++ rest, file)
termination_by room

end DataFile

/-- Why an output cannot be read. -/
inductive ReadError
  | io (error : String)
  | mismatch (mismatch : ManifestMismatch)
  deriving DecidableEq

/-- One chunk of a read. -/
structure ArtifactChunkData where
  offset : UInt64
  data : Bytes
  last : Bool
  deriving DecidableEq

/-- A read of an output, chunk by chunk. -/
structure ArtifactReader where
  file : DataFile
  manifest : ArtifactManifest
  startedAtZero : Bool
  position : UInt64
  hasher : Hasher := {}
  done : Bool := false

/-- The next chunk, or `none` behind the final one. Only a read that started at zero has the
    digest of the manifest. -/
def ArtifactReader.nextChunk [Sha256] (self : ArtifactReader) :
    Except ReadError (Option ArtifactChunkData × ArtifactReader) := do
  if self.done then return (none, self)
  let (buf, file) ← (self.file.fill transferChunkBytes).mapError ReadError.io
  let offset := self.position
  let position := self.position + .ofNat buf.length
  let remaining := if position ≤
    self.manifest.sizeBytes then self.manifest.sizeBytes - position else 0
  let last : Bool := remaining = 0
  let hasher := if self.startedAtZero then self.hasher.update buf else self.hasher
  if self.startedAtZero && last then
    (self.manifest.verify position hasher.finish).mapError ReadError.mismatch
  let reader := { self with file, position, hasher, done := self.done || last }
  if buf = [] ∧ offset = self.manifest.sizeBytes then
    -- an empty Artifact, or a resume at its end, has an empty final chunk
    return (some ⟨offset, buf, true⟩, reader)
  return (some ⟨offset, buf, last⟩, reader)

/-- A published output: its manifest, and its file. -/
structure StoredArtifact where
  manifest : ArtifactManifest
  data : Bytes
  reads : ℕ → Except String ℕ
  /-- What the file answers to a seek: an offset behind its end may be refused, as one from 2^63 on
      is. -/
  seek : UInt64 → Except String Unit := fun _ => .ok ()
  seek_within : ∀ offset, offset.toNat ≤ data.length → seek offset = .ok () := by exact fun _ _ => rfl

/-- The published outputs, or why one cannot be opened. -/
abbrev LocalArtifactStore := Uuid → Except String StoredArtifact

/-- Opens a published output at an offset. -/
def LocalArtifactStore.openForRead [UuidText] (self : LocalArtifactStore) (token : String)
    (offset : UInt64) :
    Except String ArtifactReader := do
  let artifactId ← UuidText.parse token
  let stored ← self artifactId
  if offset > stored.manifest.sizeBytes then
    throw ("artifact offset " ++ offset.toNat.repr ++ " exceeds size " ++
      stored.manifest.sizeBytes.toNat.repr)
  stored.seek offset
  return {
    file := { bytes := stored.data, position := offset.toNat, reads := stored.reads }
    manifest := stored.manifest
    startedAtZero := offset = 0
    position := offset }

namespace Worker

variable [Sha256]

/-- Reads the chunks up to the final one, as far as the fuel goes; `none` where it runs out. -/
def readChunks :
    ℕ → ArtifactReader → Option (Except ReadError (List ArtifactChunkData × ArtifactReader))
  | 0, _ => none
  | fuel + 1, reader =>
    match reader.nextChunk with
    | .error error => some (.error error)
    | .ok (none, reader) => some (.ok ([], reader))
    | .ok (some chunk, reader) =>
      if chunk.last then some (.ok ([chunk], reader))
      else (readChunks fuel reader).map fun result => result.map fun (chunks, reader) =>
        (chunk :: chunks, reader)

/-- A chunk as a message. -/
def chunkMessage (chunk : ArtifactChunkData) : DeliverArtifactMessage :=
  .chunk ⟨chunk.offset, chunk.data, chunk.last⟩

/-- The messages of a delivery that the Remote asked for; none are sent where the output cannot
    be read. -/
def deliverArtifact [UuidText] (fuel : ℕ) (artifacts : LocalArtifactStore)
    (request : DeliverRequest) :
    Option (List DeliverArtifactMessage) :=
  match artifacts.openForRead request.deliveryToken request.offset with
  | .error _ => some []
  | .ok reader => (readChunks fuel reader).map fun
    | .error _ => []
    | .ok (chunks, _) =>
      .start ⟨request.artifactId, request.deliveryToken, reader.manifest,
        request.offset⟩ :: chunks.map chunkMessage

end Worker

end Gpq
