import Gpq.Domain.Text
import Gpq.Remote.Fetch
import Gpq.Remote.Session

/-!
# Listed Generations

`ListGenerations`: the Tenant's Generations newest-first, a page at a time (`Generations.list`).
The token of the next page is the identifier of the last Generation on a full page. The outputs of
every listed Generation are read in a transaction of its own.

How a database error reads as text is a parameter, and so is the URL of a download.
-/

namespace Gpq

open Sql DbKey

/-! ## Requests and responses -/

/-- A request for a page. -/
structure ListGenerationsRequest where
  pageSize : UInt32
  pageToken : String
  state : EnumValue GenerationState
  deriving DecidableEq

/-- An Artifact as a client sees it. -/
structure ArtifactRef where
  artifactId : String
  manifest : ArtifactManifest
  placement : ArtifactPlacement
  state : ArtifactState
  downloadPath : String

/-- A Generation as a client sees it. -/
structure Generation where
  generationId : String
  state : GenerationState
  modality : Modality
  modelAlias : String
  versionSha256 : String
  priority : Priority
  seed : ℕ
  executionTimeout : Time
  createdAt : Time
  attemptCount : ℕ
  outputArtifacts : List ArtifactRef
  failure : Option (FailureKind × String)
  latestProgress : Option ProgressSnapshot

/-- A page, and the token of the next one. -/
structure ListGenerationsResponse where
  generations : List Generation
  nextPageToken : String

/-- The size of a page where none was requested. -/
def defaultPageSize : UInt32 := 50

/-- The largest size of a page. -/
def maxPageSize : UInt32 := 200

/-- The bounded size of a page: the default where none was requested. -/
def effectivePageSize (requested : UInt32) : UInt32 :=
  if requested = 0 then defaultPageSize else min requested maxPageSize

/-- The modality of the parameters: that of the family they were validated for. -/
def GenerationParameters.modality : GenerationParameters → Modality
  | .image _ => .image
  | .video _ => .video

/-! ## Queries -/

namespace Generations

end Generations

/-- The outputs of a Generation, oldest first. -/
def Artifacts.listOutputs (db : Db) (id : Uuid) : List (Uuid × ArtifactRow) :=
  (db.artifacts.rows.filter fun e =>
    e.2.generationId = some id && e.2.direction = .output).insertionSort
      fun a b => a.2.createdAt ≤ b.2.createdAt

/-! ## The call -/

/-- What a transaction that only reads has seen, or why it failed. -/
abbrev ReadTransaction := Except DbError Db

/-- Whether a 64-bit float is a number: neither infinite nor not a number. -/
def isFinite (bits : BitVec 64) : Bool := bits.extractLsb' 52 11 ≠ 0x7ff

/-- Reads a stored progress snapshot: what is not a number was stored as null. -/
def progressFromJson (snapshot : ProgressSnapshot) : Except String ProgressSnapshot :=
  if isFinite snapshot.fraction then .ok snapshot else .error "invalid type: null, expected f64"

section List

variable (describe : DbError → String) (downloadUrl : Uuid → Except String String)

/-- One output Artifact's reference. -/
def artifactRowToProto (id : Uuid) (row : ArtifactRow) : Except ConnectError ArtifactRef := do
  let downloadPath ← (downloadUrl id).mapError (⟨.internal, ·⟩)
  return {
    artifactId := displayUuid id
    manifest := row.manifest
    placement := row.placement
    state := row.state
    downloadPath }

/-- One Generation, with its outputs. -/
def generationRowToProto (outputs : ReadTransaction) (id : Uuid) (row : GenerationRow) :
    Except ConnectError Generation := do
  let db ← outputs.mapError (internalError describe)
  let outputArtifacts ← (Artifacts.listOutputs db id).mapM fun e =>
    artifactRowToProto downloadUrl e.1 e.2
  let latestProgress ← row.latestProgress.mapM fun snapshot => (progressFromJson snapshot).mapError
    (⟨.internal, ·⟩)
  return {
    generationId := displayUuid id
    state := row.state
    modality := row.parameters.modality
    modelAlias := row.aliasName
    versionSha256 := row.versionSha256.toHex
    priority := row.priority
    seed := row.seed.getD 0
    executionTimeout := row.executionTimeout
    createdAt := row.createdAt
    attemptCount := row.attemptCount
    outputArtifacts
    failure := row.failureKind.map fun kind => (kind, row.failureMessage)
    latestProgress }

/-- The transactions of one request: that of the page, and one for each Generation on it. -/
structure ListReads where
  page : ReadTransaction
  outputs : Uuid → ReadTransaction

end List

end Gpq
