import Gpq.Lib.Table
import Gpq.Lib.Transaction
import Gpq.Domain.Failure
import Gpq.Domain.Capability

/-!
# The Remote's schema

The part of the database that one Tenant sees. Every statement of the Remote
runs under row-level security and filters by the Tenant's identifier, so the
`tenant_id` column is not repeated in each row.

A row carries its table's `CHECK` constraints as fields: a row that violates one
cannot be built. Uniqueness and foreign keys relate several rows; the statements
that could violate them check them, and act out the deletions that they cascade
to (`Gpq.Remote.Workers`, `Gpq.Remote.Attempts`).

`DbKey` names a row by its table and primary key, and `Db` is the `Sql.Database`
of these tables.
-/

namespace Gpq

open Sql

/-- Bytes of a digest or a file. -/
abbrev Bytes := List UInt8

/-- Whether a text can be stored: the database rejects the NUL character. -/
def storable (s : String) : Bool := s.toList.all (· != '\x00')

/-- The largest value of a signed 32-bit column. -/
def i32Max : ℕ := 2 ^ 31 - 1

/-- The largest value of a signed 64-bit column. -/
def i64Max : ℕ := 2 ^ 63 - 1

/-! ## Workers and Pools -/

/-- An enrolled Worker. Its version, its session and when it was last seen (`last_seen_at`) are not
    modelled: no decision reads them. -/
structure WorkerRow where
  name : String
  credentialHash : Bytes
  revokedAt : Option Time
  deriving DecidableEq

/-- A Device Pool of a Worker, with the model hashes it advertises
    (its `pool_models` rows, which live and die with it). -/
structure DevicePoolRow where
  workerId : Uuid
  poolKey : String
  accelerator : String
  backendVersion : String
  ready : Bool
  unreadyReason : String
  totalSlots : ℕ
  claimedSlots : ℕ
  residentModelSha256 : Option ContentHash
  acceleratorMemoryBytes : Option ℕ
  shapeLimits : ShapeLimits
  imageLoraSha256 : List ContentHash
  modelHashes : List ContentHash
  claimed_within_total : claimedSlots ≤ totalSlots
  accelerator_check : accelerator.length ≤ 64
  deriving DecidableEq

/-- The generated column `free_slots`. -/
def DevicePoolRow.freeSlots (r : DevicePoolRow) : ℕ := r.totalSlots - r.claimedSlots

/-- A registered Model Version, under its content hash; its execution timeout in
    microseconds. -/
structure ModelVersionRow where
  manifest : ModelManifest
  executionTimeout : Option ℕ

/-! ## Generations and Attempts -/

/-- Where an Artifact's bytes are. -/
inductive ArtifactPlacement
  | objectStore
  | workerLocal
  | remoteLocal
  deriving DecidableEq, Repr

/-- A progress snapshot; the fraction is a 64-bit float's bit pattern. -/
structure ProgressSnapshot where
  fraction : BitVec 64
  stage : String
  step : UInt32
  totalSteps : UInt32
  observedAt : Time
  deriving DecidableEq

/-- A Generation. -/
structure GenerationRow where
  state : GenerationState
  aliasName : String
  versionSha256 : ContentHash
  parameters : GenerationParameters
  priority : Priority
  seed : Option ℕ
  executionTimeout : Time
  outputPlacement : ArtifactPlacement
  attemptCount : ℕ := 0
  acceptedAttemptId : Option Uuid := none
  latestProgress : Option ProgressSnapshot := none
  failureKind : Option FailureKind := none
  failureMessage : String := ""
  createdAt : Time
  startedAt : Option Time := none
  terminatedAt : Option Time := none
  execution_timeout_check : 0 < executionTimeout
  output_placement_check : outputPlacement ≠ .remoteLocal
  accepted_check : state = .succeeded → acceptedAttemptId ≠ none
  failed_check : state = .failed → failureKind ≠ none
  deriving DecidableEq

/-- An Attempt. -/
structure AttemptRow where
  generationId : Uuid
  attemptNumber : ℕ
  state : AttemptState
  workerId : Uuid
  poolId : Uuid
  slotKey : String
  leaseExpiresAt : Time
  executionDeadline : Option Time := none
  createdAt : Time
  startedAt : Option Time := none
  finishedAt : Option Time := none
  lastHeartbeatAt : Option Time := none
  failureKind : Option FailureKind := none
  failureMessage : String := ""
  workerRetryHint : Bool := false
  cancelRequestedAt : Option Time := none
  attempt_number_check : 1 ≤ attemptNumber ∧ attemptNumber ≤ maxAttempts
  deriving DecidableEq

/-! ## Artifacts -/

/-- Whether an Artifact is a Generation's input or its output. -/
inductive ArtifactDirection
  | input
  | output
  deriving DecidableEq, Repr

/-- Media kind of an Artifact. -/
inductive MediaKind
  | image
  | video
  | audio
  | text
  | binary
  deriving DecidableEq, Repr

/-- An Artifact's immutable manifest. -/
structure ArtifactManifest where
  sizeBytes : UInt64
  digest : ContentHash
  kind : MediaKind
  mimeType : String
  deriving DecidableEq

/-- An Artifact. -/
structure ArtifactRow where
  generationId : Option Uuid := none
  attemptId : Option Uuid := none
  direction : ArtifactDirection
  state : ArtifactState
  placement : ArtifactPlacement
  manifest : ArtifactManifest
  objectKey : Option String := none
  workerId : Option Uuid := none
  deliveryToken : Option String := none
  committedOffset : ℕ := 0
  content : Option Bytes := none
  createdAt : Time
  availableAt : Option Time := none
  expiresAt : Option Time := none
  terminatedAt : Option Time := none
  object_key_check : placement = .objectStore → objectKey ≠ none
  worker_check : placement = .workerLocal → workerId ≠ none
  remote_local_is_input : placement = .remoteLocal → direction = .input
  deriving DecidableEq

/-- A recorded idempotency key: the digest of its request, and the Generation. -/
structure IdempotencyRow where
  requestDigest : Bytes
  generationId : Uuid
  deriving DecidableEq

/-! ## The database -/

/-- A Tenant's mutable settings; durations in microseconds. -/
structure TenantSettings where
  maximumQueueAge : ℕ
  maxQueuedGenerations : ℕ
  maxInputArtifactBytes : UInt64
  maxOutputArtifactBytes : UInt64
  executionTimeoutCeiling : ℕ
  defaultPriority : Priority
  deriving DecidableEq

/-- The default settings: half an hour in the queue, a thousand Generations,
    256 MiB of input, 2 GiB of output, a day of execution, priority five. -/
def TenantSettings.default : TenantSettings where
  maximumQueueAge := 30 * 60 * 10 ^ 6
  maxQueuedGenerations := 1000
  maxInputArtifactBytes := 256 * 1024 * 1024
  maxOutputArtifactBytes := 2 * 1024 * 1024 * 1024
  executionTimeoutCeiling := 24 * 3600 * 10 ^ 6
  defaultPriority := 5

/-- The Tenant itself. -/
structure TenantRow where
  settings : TenantSettings
  deletedAt : Option Time := none
  deriving DecidableEq

/-- One Tenant's slice of the database. -/
structure Db where
  tenantId : Uuid
  tenant : Option TenantRow := some { settings := .default }
  workers : Table Uuid WorkerRow := ∅
  modelVersions : Table ContentHash ModelVersionRow := ∅
  modelAliases : Table String ContentHash := ∅
  devicePools : Table Uuid DevicePoolRow := ∅
  generations : Table Uuid GenerationRow := ∅
  attempts : Table Uuid AttemptRow := ∅
  generationPoolRejections : Table (Uuid × Uuid) Unit := ∅
  artifacts : Table Uuid ArtifactRow := ∅
  idempotencyKeys : Table String IdempotencyRow := ∅

/-- A row's table and primary key. -/
inductive DbKey
  | tenant
  | worker (id : Uuid)
  | modelVersion (sha256 : ContentHash)
  | modelAlias (aliasName : String)
  | devicePool (id : Uuid)
  | generation (id : Uuid)
  | attempt (id : Uuid)
  | rejection (generationId poolId : Uuid)
  | artifact (id : Uuid)
  | idempotencyKey (key : String)
  deriving DecidableEq

/-- Why a statement can fail. -/
inductive DbError
  /-- A text held a NUL character. -/
  | encoding
  /-- A value does not fit its column, or cannot be read back. -/
  | decode
  /-- A `CHECK` constraint. -/
  | check
  /-- A `NOT NULL` constraint. -/
  | notNull
  /-- A primary key or `UNIQUE` constraint. -/
  | unique
  /-- A foreign key. -/
  | foreignKey
  /-- A row that must exist does not. -/
  | rowNotFound
  deriving DecidableEq, Repr

/-- The statements that results about interleavings single out. -/
inductive Mark
  /-- The update that returns a running Generation to the queue. -/
  | requeue (generationId : Uuid)
  /-- The update that requests the cancellation of a running Generation. -/
  | requestCancelRunning (generationId : Uuid)
  deriving DecidableEq

namespace Db

/-- The rows of each table. -/
abbrev Row : DbKey → Type
  | .tenant => TenantRow
  | .worker _ => WorkerRow
  | .modelVersion _ => ModelVersionRow
  | .modelAlias _ => ContentHash
  | .devicePool _ => DevicePoolRow
  | .generation _ => GenerationRow
  | .attempt _ => AttemptRow
  | .rejection .. => Unit
  | .artifact _ => ArtifactRow
  | .idempotencyKey _ => IdempotencyRow

/-- The row under a key. -/
def fetch (db : Db) : (k : DbKey) → Option (Row k)
  | .tenant => db.tenant
  | .worker id => db.workers.lookup id
  | .modelVersion sha256 => db.modelVersions.lookup sha256
  | .modelAlias name => db.modelAliases.lookup name
  | .devicePool id => db.devicePools.lookup id
  | .generation id => db.generations.lookup id
  | .attempt id => db.attempts.lookup id
  | .rejection g p => db.generationPoolRejections.lookup (g, p)
  | .artifact id => db.artifacts.lookup id
  | .idempotencyKey key => db.idempotencyKeys.lookup key

/-- The database with another row, or none, under a key. -/
def store (db : Db) : (k : DbKey) → Option (Row k) → Db
  | .tenant, r => { db with tenant := r }
  | .worker id, r => { db with workers := Table.set db.workers id r }
  | .modelVersion sha256, r => { db with modelVersions := Table.set db.modelVersions sha256 r }
  | .modelAlias name, r => { db with modelAliases := Table.set db.modelAliases name r }
  | .devicePool id, r => { db with devicePools := Table.set db.devicePools id r }
  | .generation id, r => { db with generations := Table.set db.generations id r }
  | .attempt id, r => { db with attempts := Table.set db.attempts id r }
  | .rejection g p, r =>
    { db with generationPoolRejections := Table.set db.generationPoolRejections (g, p) r }
  | .artifact id, r => { db with artifacts := Table.set db.artifacts id r }
  | .idempotencyKey key, r => { db with idempotencyKeys := Table.set db.idempotencyKeys key r }

theorem fetch_store_self (db : Db) (k : DbKey) (r : Option (Row k)) : (db.store k r).fetch k = r := by
  cases k <;> first
    | rfl
    | exact Table.lookup_set_self _ _ _

/-- Other rows stay as they are. -/
theorem fetch_store_of_ne (db : Db) {k j : DbKey} (r : Option (Row k)) (h : j ≠ k) :
    (db.store k r).fetch j = db.fetch j := by
  -- only keys of one table can meet, and there they differ
  cases k <;> cases j <;> first
    | rfl
    | exact absurd rfl h
    | exact Table.lookup_set_of_ne _ _ fun he => h (by cases he; rfl)

instance : Database Db where
  Key := DbKey
  Row := Row
  Error := DbError
  Label := Mark
  fetch := fetch
  store := store
  fetch_store_self := fetch_store_self
  fetch_store_of_ne := fetch_store_of_ne

instance : DecidableEq (Key Db) := inferInstanceAs (DecidableEq DbKey)

/-- A write under one key is not seen under another. -/
@[simp] theorem fetch_store_ne (db : Db) {k j : DbKey} (r : Option (Row k)) (h : j ≠ k) :
    Sql.fetch (Sql.store db k r) j = Sql.fetch db j :=
  db.fetch_store_of_ne r h

end Db

/-- A statement of the Remote. -/
abbrev Statement := Stmt Db

/-- A transaction body of the Remote. -/
abbrev Body := Prog Db

open DbKey

/-! ## Statements on one row -/

/-- Locks an Attempt where it matches. -/
abbrev lockAttempt (id : Uuid) (guard : AttemptRow → Bool) : Body (Option AttemptRow) :=
  .exec (@Stmt.lock Db _ (attempt id) guard)

/-- Locks a Generation. -/
abbrev lockGeneration (id : Uuid) : Body (Option GenerationRow) :=
  .exec (@Stmt.lock Db _ (generation id) fun _ => true)

/-- Updates an Attempt where it matches. -/
abbrev updateAttempt (id : Uuid) (guard : AttemptRow → Bool) (f : AttemptRow → AttemptRow) :
    Statement Bool :=
  .update (attempt id) guard f

/-- Updates a Generation where it matches. -/
abbrev updateGeneration (id : Uuid) (guard : GenerationRow → Bool)
    (f : GenerationRow → GenerationRow) : Statement Bool :=
  .update (generation id) guard f

/-- Updates a Pool where it matches. -/
abbrev updatePool (id : Uuid) (guard : DevicePoolRow → Bool) (f : DevicePoolRow → DevicePoolRow) :
    Statement Bool :=
  .update (devicePool id) guard f

/-- Updates an Artifact where it matches. -/
abbrev updateArtifact (id : Uuid) (guard : ArtifactRow → Bool) (f : ArtifactRow → ArtifactRow) :
    Statement Bool :=
  .update (artifact id) guard f

end Gpq
