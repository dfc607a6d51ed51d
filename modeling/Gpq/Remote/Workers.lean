import Gpq.Remote.Schema

/-!
# Workers, Device Pools and Pool exclusions

The statements of `db::workers` and `db::native_exclusions`. `claimedSlots` is the
Remote's own counter: `claimSlot` and `releaseSlot` alone write it, and a
capability report (`upsertPools`) refreshes every other column of a Pool. A Pool
that a report no longer names is deleted, and its Attempts and rejections with
it, as their foreign keys declare.
-/

namespace Gpq

open Sql DbKey

/-- A Pool with one more claimed Slot, where one is free. -/
def DevicePoolRow.claim (r : DevicePoolRow) : DevicePoolRow :=
  if h : r.claimedSlots < r.totalSlots then
    { r with claimedSlots := r.claimedSlots + 1, claimed_within_total := h }
  else r

/-- A Pool with one claimed Slot fewer, floored at zero. -/
def DevicePoolRow.release (r : DevicePoolRow) : DevicePoolRow :=
  { r with
    claimedSlots := r.claimedSlots - 1
    claimed_within_total := (Nat.sub_le ..).trans r.claimed_within_total }

/-- The settings of a Tenant that is not deleted. -/
def tenantSettings : Body (Option TenantSettings) :=
  .exec (.read fun db =>
    ((fetch db tenant).filter fun r => r.deletedAt.isNone).map TenantRow.settings)

/-- Writes new settings, where every value fits its column. -/
def updateSettings (settings : TenantSettings) : Body Bool :=
  .exec <| .require (settings.maxQueuedGenerations ≤ i32Max &&
      settings.maxInputArtifactBytes.toNat ≤ i64Max &&
      settings.maxOutputArtifactBytes.toNat ≤ i64Max) .decode <|
    .require (0 < settings.maximumQueueAge && 0 < settings.maxQueuedGenerations &&
        0 < settings.maxInputArtifactBytes && 0 < settings.maxOutputArtifactBytes &&
        0 < settings.executionTimeoutCeiling) .check <|
      @Stmt.update Db _ tenant (fun _ => true) fun r => { r with settings }

namespace Workers

/-! ## Credentials -/

/-- Enrolls a Worker, or re-enrolls the one of that name, under a new credential. -/
def enroll (id : Uuid) (name : String) (credentialHash : Bytes) : Body Uuid :=
  .exec <| .require (storable name) .encoding <| .write fun db =>
    match db.workers.rows.find? fun e => e.2.name = name with
    | some (w, r) =>
      if db.workers.rows.any fun e => e.1 ≠ w && e.2.credentialHash = credentialHash then
        .error .unique
      else .ok (w, [⟨worker w, some { r with credentialHash, revokedAt := none }⟩])
    | none =>
      if (fetch db (worker id)).isSome ||
          db.workers.rows.any fun e => e.2.credentialHash = credentialHash then .error .unique
      else .ok (id, [⟨worker id, some { name, credentialHash, revokedAt := none }⟩])

/-- Revokes a Worker's credential. -/
def revokeWorker (id : Uuid) (now : Time) : Body Bool :=
  .exec <| .update (worker id) (fun r => r.revokedAt.isNone) fun r => { r with revokedAt := some now }

/-- Verifies the Worker's credential and serializes messages that mutate its row. -/
def lockCurrentWorkerCredential (workerId : Uuid) (credentialHash : Bytes) : Body Bool := do
  let row ← .exec <| .lock (worker workerId) fun _ => true
  return row.any fun r => r.credentialHash = credentialHash && r.revokedAt.isNone

/-! ## Slots -/

/-- Atomically claims one free Execution Slot of a Pool. -/
def claimSlot (poolId : Uuid) : Body Bool :=
  .exec <| updatePool poolId (fun r => r.claimedSlots < r.totalSlots) DevicePoolRow.claim

/-- Releases one Execution Slot back to a Pool. -/
def releaseSlot (poolId : Uuid) : Body Unit := do
  let _ ← .exec <| updatePool poolId (fun _ => true) DevicePoolRow.release

/-! ## Capability reports -/

/-- One Device Pool as advertised in a capability report, ready to persist. -/
structure PoolUpsert where
  poolKey : String
  accelerator : String
  acceleratorVersion : String
  ready : Bool
  unreadyReason : String
  totalSlots : ℕ
  residentModelSha256 : Option ContentHash
  acceleratorMemoryBytes : Option UInt64
  modelHashes : List ContentHash
  imageLoras : List ContentHash
  shapeLimits : ShapeLimits

namespace PoolUpsert

/-- The stored `total_slots`. -/
def storedTotal (p : PoolUpsert) : ℕ := min p.totalSlots i32Max

/-- Whether every text of the advertisement can be stored. -/
def storable (p : PoolUpsert) : Bool :=
  Gpq.storable p.poolKey && Gpq.storable p.accelerator && Gpq.storable p.acceleratorVersion &&
    Gpq.storable p.unreadyReason

/-- The stored `accelerator_memory_bytes`, where it fits. -/
def storedMemory (p : PoolUpsert) : Option ℕ :=
  (p.acceleratorMemoryBytes.map UInt64.toNat).filter (· ≤ i64Max)

/-- The advertised columns over a Pool's claims, where the constraints allow it. -/
def toRow (p : PoolUpsert) (workerId : Uuid) (claimedSlots : ℕ) : Except DbError DevicePoolRow :=
  if h : claimedSlots ≤ p.storedTotal ∧ p.accelerator.length ≤ 64 then
    .ok {
      workerId
      poolKey := p.poolKey
      accelerator := p.accelerator
      backendVersion := p.acceleratorVersion
      ready := p.ready
      unreadyReason := p.unreadyReason
      totalSlots := p.storedTotal
      claimedSlots
      residentModelSha256 := p.residentModelSha256
      acceleratorMemoryBytes := p.storedMemory
      shapeLimits := p.shapeLimits
      imageLoraSha256 := p.imageLoras
      modelHashes := p.modelHashes.dedup
      claimed_within_total := h.1
      accelerator_check := h.2 }
  else .error .check

end PoolUpsert

/-- Whether some Generation or Artifact refers to one of the Attempts. Deleting
    it would set the reference's columns to null, `tenant_id` included, which the
    schema refuses. -/
def attemptsReferenced (db : Db) (attempts : List Uuid) : Bool :=
  (db.generations.rows.any fun e => e.2.acceptedAttemptId.any (· ∈ attempts)) ||
    db.artifacts.rows.any fun e => e.2.attemptId.any (· ∈ attempts)

/-- Attempts are not referenced exactly if none is accepted, and none has Artifacts. -/
theorem attemptsReferenced_eq_false_iff {db : Db} {attempts : List Uuid} :
    attemptsReferenced db attempts = false ↔
      (∀ g r, fetch db (generation g) = some r → ∀ a ∈ r.acceptedAttemptId, a ∉ attempts) ∧
        ∀ i r, fetch db (artifact i) = some r → ∀ a ∈ r.attemptId, a ∉ attempts := by
  simp only [attemptsReferenced, Bool.or_eq_false_iff, List.any_eq_false, Prod.forall, Table.mem_rows,
    Option.any_eq_true, decide_eq_true_eq, not_exists, not_and, Option.mem_def]
  rfl

/-- The Pools of a Worker that are not among the advertised keys. -/
def unadvertised (db : Db) (workerId : Uuid) (poolKeys : List String) : List Uuid :=
  (db.devicePools.rows.filter fun e => e.2.workerId = workerId && e.2.poolKey ∉ poolKeys).map
    Prod.fst

/-- The Attempts on one of the Pools. -/
def attemptsOn (db : Db) (pools : List Uuid) : List Uuid :=
  (db.attempts.rows.filter fun e => e.2.poolId ∈ pools).map Prod.fst

/-- The rejections by one of the Pools. -/
def rejectionsBy (db : Db) (pools : List Uuid) : List (Uuid × Uuid) :=
  (db.generationPoolRejections.rows.map Prod.fst).filter fun e => e.2 ∈ pools

/-- Deletes the Worker's Pools that are no longer advertised, with everything
    that their deletion cascades to. -/
def deleteUnadvertised (workerId : Uuid) (poolKeys : List String) : Statement Unit :=
  .require (poolKeys.all storable) .encoding <| .write fun db =>
    let pools := unadvertised db workerId poolKeys
    let attempts := attemptsOn db pools
    if attemptsReferenced db attempts then .error .notNull
    else .ok ((),
      pools.map (fun p => ⟨devicePool p, none⟩) ++ attempts.map (fun a => ⟨attempt a, none⟩) ++
        (rejectionsBy db pools).map fun e => ⟨rejection e.1 e.2, none⟩)

/-- Inserts an advertised Pool, or refreshes the Worker's Pool of that key. -/
def upsertPool (workerId id : Uuid) (pool : PoolUpsert) : Statement Unit :=
  .require pool.storable .encoding <| .write fun db =>
    match db.devicePools.rows.find? fun e =>
        e.2.workerId = workerId && e.2.poolKey = pool.poolKey with
    | some (p, r) => do
      let r ← pool.toRow workerId r.claimedSlots
      return ((), [⟨devicePool p, some r⟩])
    | none => do
      let r ← pool.toRow workerId 0
      if (fetch db (devicePool id)).isSome then throw .unique
      if (fetch db (worker workerId)).isNone then throw .foreignKey
      return ((), [⟨devicePool id, some r⟩])

/-- Replaces a Worker's Device Pools by the freshly advertised ones. Each
    advertisement comes with the identifier its Pool gets if it is a new one. -/
def upsertPools (workerId : Uuid) (pools : List (Uuid × PoolUpsert)) : Body Unit := do
  .exec <| deleteUnadvertised workerId (pools.map fun p => p.2.poolKey)
  let _ ← Prog.forEach (fun p => .exec (upsertPool workerId p.1 p.2)) pools

/-! ## Capabilities -/

/-- The scheduling capability of one Pool. -/
def buildSlotCapability (db : Db) (id : Uuid) (r : DevicePoolRow) : SlotCapability where
  tenantId := db.tenantId
  workerId := r.workerId
  poolId := id
  slotId := id
  accelerator := r.accelerator
  acceleratorVersion := r.backendVersion
  modelManifests := r.modelHashes.filterMap fun hash =>
    (fetch db (modelVersion hash)).map fun v => (hash, v.manifest)
  imageLoras := btreeSet r.imageLoraSha256
  residentModel := r.residentModelSha256
  acceleratorMemoryBytes := r.acceleratorMemoryBytes.map UInt64.ofNat
  shapeLimits := r.shapeLimits

/-- Every ready Pool of an unrevoked Worker, with its free Slots, its Worker and
    its key. -/
def capabilities (db : Db) : List (SlotCapability × ℕ × Uuid × String) :=
  (db.devicePools.rows.filter fun e =>
      e.2.ready && (fetch db (worker e.2.workerId)).any fun w => w.revokedAt.isNone).map fun e =>
    (buildSlotCapability db e.1 e.2, e.2.freeSlots, e.2.workerId, e.2.poolKey)

/-- The query behind `capabilities`. -/
def poolCapabilities : Body (List (SlotCapability × ℕ × Uuid × String)) := .exec (.read capabilities)

end Workers

namespace NativeExclusions

/-- The Pools a Generation ran out of memory on, and those that rejected it
    before execution. -/
def excluded (db : Db) (generationId : Uuid) : List Uuid :=
  (db.attempts.rows.filter fun e =>
      e.2.generationId = generationId && e.2.failureKind = some .outOfMemory).map
    (fun e => e.2.poolId) ++
  (db.generationPoolRejections.rows.filter fun e => e.1.1 = generationId).map fun e => e.1.2

/-- A Pool is excluded that ran out of memory for the Generation, or rejected it. -/
theorem mem_excluded_iff {db : Db} {g p : Uuid} : p ∈ excluded db g ↔
    (∃ (a : Uuid) (r : AttemptRow), fetch db (attempt a) = some r ∧ r.generationId = g ∧
      r.poolId = p ∧
      r.failureKind = some .outOfMemory) ∨ (fetch db (rejection g p)).isSome := by
  rw [excluded, List.mem_append]
  refine or_congr ?_ ?_
  · simp only [List.mem_map, List.mem_filter, Prod.exists, Table.mem_rows, Bool.and_eq_true,
      decide_eq_true_eq]
    constructor
    · rintro ⟨a, r, ⟨hr, hg, hx⟩, hp⟩
      exact ⟨a, r, hr, hg, hp, hx⟩
    · rintro ⟨a, r, hr, hg, hp, hx⟩
      exact ⟨a, r, ⟨hr, hg, hx⟩, hp⟩
  · simp only [List.mem_map, List.mem_filter, Prod.exists, Table.mem_rows, decide_eq_true_eq,
      Option.isSome_iff_exists]
    constructor
    · rintro ⟨_, _, u, ⟨hu, rfl⟩, rfl⟩
      exact ⟨u, hu⟩
    · rintro ⟨u, hu⟩
      exact ⟨g, p, u, ⟨hu, rfl⟩, rfl⟩

theorem mem_excluded_congr {db db' : Db} {g p : Uuid}
    (ha : ∀ a, fetch db' (attempt a) = fetch db (attempt a))
    (hr : fetch db' (rejection g p) = fetch db (rejection g p)) :
    p ∈ excluded db' g ↔ p ∈ excluded db g := by
  simp only [mem_excluded_iff, ha, hr]

/-- The query behind `excluded`. -/
def excludedPools (generationId : Uuid) : Body (List Uuid) :=
  .exec (.read fun db => excluded db generationId)

/-- The record of a rejection, where its references exist. -/
def recorded (generationId poolId : Uuid) (db : Db) : Except DbError (Bool × List (Write Db)) :=
  if (fetch db (rejection generationId poolId)).isSome then .ok (false, [])
  else if (fetch db (generation generationId)).isNone || (fetch db (devicePool poolId)).isNone then
    .error .foreignKey
  else .ok (true, [⟨rejection generationId poolId, some ()⟩])

/-- Records that a Pool rejected a Generation before execution: whether it is the
    first time. -/
def recordPreexecutionRejection (generationId poolId : Uuid) : Body Bool :=
  .exec (.write (recorded generationId poolId))

/-- Nothing but the record itself is written. -/
theorem recorded_eq_ok {g p : Uuid} {db : Db} {b : Bool} {ws : List (Write Db)}
    (h : recorded g p db = .ok (b, ws)) : ∀ w ∈ ws, w.1 = rejection g p := by
  intro w hw
  unfold recorded at h
  split at h
  · cases h
    cases hw
  split at h
  · cases h
  · cases h
    rw [List.mem_singleton.1 hw]

/-- A rejection whose references exist is recorded. -/
theorem exists_recorded {g p : Uuid} {db : Db} {r : GenerationRow} {q : DevicePoolRow}
    (hg : fetch db (generation g) = some r) (hp : fetch db (devicePool p) = some q) :
    ∃ b ws, recorded g p db = .ok (b, ws) ∧ (fetch (applyAll db ws) (rejection g p)).isSome := by
  unfold recorded
  split
  · rename_i h
    exact ⟨false, [], rfl, h⟩
  · rw [hg, hp]
    exact ⟨true, _, rfl, by simp⟩

end NativeExclusions

end Gpq
