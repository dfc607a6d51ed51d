import Gpq.Remote.Transfer

/-!
# Fetched inputs

The Remote's side of `FetchArtifact`: the Worker that holds a live lease on an Attempt reads an
input that the Remote keeps, in chunks (`streamRemoteLocal`). Every chunk is a read of its own,
which sees the database at its own time (`ChunkRead`).

How a database error reads as text is a parameter.
-/

namespace Gpq

open Sql DbKey

namespace Artifacts

/-- Whether the Worker, which is not revoked, holds an unexpired live Attempt of the Generation. -/
def holdsLease (db : Db) (clock : Time) (attemptId workerId : Uuid)
    (generationId : Option Uuid) : Bool :=
  (fetch db (attempt attemptId)).any fun t =>
    some t.generationId = generationId && t.workerId = workerId && t.state.isLive &&
      clock < t.leaseExpiresAt && (fetch db (worker t.workerId)).any fun w => w.revokedAt.isNone

/-- PostgreSQL's `substring` of bytes: positions count from one. -/
def substring (content : Bytes) (position length : ℤ) : Bytes :=
  let first := max position 1
  (content.drop (first - 1).toNat).take (position + length - first).toNat

/-- Reads a part of an input that the Remote keeps. -/
def remoteLocalChunk (db : Db) (clock : Time) (attemptId workerId id : Uuid)
    (offset maxLen : UInt64) :
    Except DbError (Option Bytes) := do
  let some position := checkedAdd offset 1 | throw .decode
  if position.toNat > i32Max then throw .decode
  if maxLen.toNat > i32Max then throw .decode
  return do
    let row ← fetch db (artifact id)
    if row.direction = .input ∧ row.placement = .remoteLocal ∧ row.state = .available ∧
        holdsLease db clock attemptId workerId row.generationId then
      let content ← row.content
      some (substring content position.toNat maxLen.toNat)
    else none

/-- An input of the Attempt's Generation, for the Worker that holds the lease. -/
def attemptInput (db : Db) (clock : Time) (attemptId workerId id : Uuid) : Option ArtifactRow :=
  (fetch db (artifact id)).filter fun r =>
    r.direction = .input && holdsLease db clock attemptId workerId r.generationId

end Artifacts

/-- The next chunk: how many bytes it carries, and whether it is the final one. -/
def nextChunkSpan (total offset : UInt64) : UInt64 × Bool :=
  let remaining := if offset ≤ total then total - offset else 0
  let len := min remaining (.ofNat transferChunkBytes)
  (len, len = remaining)

/-- The transaction of one chunk: the database and the time that it sees, and its end. -/
structure ChunkRead where
  opened : Except DbError (Db × Time)
  committed : Except DbError Unit := .ok ()

/-- A request for an input. -/
structure FetchArtifactRequest where
  artifactId : String
  attemptId : String
  offset : UInt64
  deriving DecidableEq

section Fetch

variable (describe : DbError → String)

/-- An internal error. -/
def internalError (error : DbError) : ConnectError := ⟨.internal, describe error⟩

/-- Reads one chunk: the chunk, and where the next one starts. -/
def readChunk (attemptId workerId id : Uuid) (total offset : UInt64) (read : ChunkRead) :
    Except ConnectError (ArtifactChunk × Option UInt64) := do
  let (len, last) := nextChunkSpan total offset
  let (db, clock) ← read.opened.mapError (internalError describe)
  let data ← (Artifacts.remoteLocalChunk db clock attemptId workerId id offset len).mapError
    (internalError describe)
  read.committed.mapError (internalError describe)
  match data with
  | none => throw ⟨.failedPrecondition, "artifact is no longer downloadable"⟩
  | some data =>
    if data.length ≠ len.toNat then throw ⟨.internal, "stored artifact is shorter than its manifest"⟩
    return (⟨offset, data, last⟩, if last then none else some (offset + len))

/-- The stream from a cursor on, as far as the fuel goes; `none` where it runs out. The `n`-th
    chunk is the `n`-th read, and an error ends the stream. -/
def streamRemoteLocal (attemptId workerId id : Uuid) (total : UInt64) :
    ℕ → (ℕ → ChunkRead) → Option UInt64 → Option (List (Except ConnectError ArtifactChunk))
  | 0, _, _ => none
  | _ + 1, _, none => some []
  | fuel + 1, reads, some offset =>
    match readChunk describe attemptId workerId id total offset (reads 0) with
    | .error error => some [.error error]
    | .ok (chunk, next) =>
      (streamRemoteLocal attemptId workerId id total fuel (fun n => reads (n + 1)) next).map
        (.ok chunk :: ·)

/-- A `FetchArtifact` call of an authenticated Worker: what is to be streamed. -/
def fetchArtifact [UuidText] (db : Db) (clock : Time) (workerId : Uuid)
    (request : FetchArtifactRequest) :
    Except ConnectError (Uuid × Uuid × UInt64) := do
  let artifactId ← (UuidText.parse request.artifactId).mapError fun _ => ⟨.invalidArgument,
    "malformed artifact_id"⟩
  let attemptId ← (UuidText.parse request.attemptId).mapError fun _ => ⟨.invalidArgument,
    "malformed attempt_id"⟩
  match Artifacts.attemptInput db clock attemptId workerId artifactId with
  | none => throw ⟨.notFound, "artifact not found"⟩
  | some row =>
    if row.placement ≠ .remoteLocal ∨ row.state ≠ .available then
      throw ⟨.failedPrecondition, "artifact is not available for direct transfer"⟩
    if request.offset > row.manifest.sizeBytes then
      throw ⟨.invalidArgument, "offset is past the end of the artifact"⟩
    return (attemptId, artifactId, row.manifest.sizeBytes)

end Fetch

end Gpq
