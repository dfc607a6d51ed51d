import Gpq.Remote.Session

/-!
# Deliveries

The download of a Worker-local output. The handler takes the Artifact from `available` to
`delivering` (`downloadForTenant`) and spawns a task, which asks the producing Worker for the
bytes and passes them on to the response (`streamWorkerLocal`).

The task is a step function: one `DeliveryEvent` is one answer that it waits for, of the
Worker's control channel or of the Worker's stream. What the client and the database answer
in between is given with it (`Answers`). The final chunk is held back (`pending`) until the
whole manifest is verified.
-/

namespace Gpq

open Sql DbKey

/-- The SHA-256 digest of a byte string. -/
class Sha256 where
  digest : Bytes → ContentHash

/-- An incremental digest: the bytes that it was fed. -/
structure Hasher where
  bytes : Bytes := []
  deriving DecidableEq

namespace Hasher

/-- Feeds a chunk. -/
def update (self : Hasher) (chunk : Bytes) : Hasher := ⟨self.bytes ++ chunk⟩

/-- Finalizes the digest. -/
def finish [Sha256] (self : Hasher) : ContentHash := Sha256.digest self.bytes

end Hasher

/-- Chunk size of Worker-local transfers. -/
def transferChunkBytes : ℕ := 1024 * 1024

/-- How often a download asks for its bytes again. -/
def maxResumeAttempts : ℕ := 5

/-- One chunk of a delivery, relayed from the Worker's transfer to the downloader. -/
inductive DeliveryChunk
  | data (bytes : Bytes)
  | complete
  | failed (reason : String)
  | rejected (reason : String)
  deriving DecidableEq

/-- What became of a message to a Worker. -/
inductive SendOutcome
  | delivered
  | backpressured
  | offline
  deriving DecidableEq

/-- Asks a Worker for an Artifact's bytes from an offset on. -/
structure DeliverRequest where
  artifactId : Uuid
  deliveryToken : String
  offset : UInt64
  deriving DecidableEq

/-- `u64::checked_add` of a length. -/
def checkedAdd (offset : UInt64) (length : ℕ) : Option UInt64 :=
  if offset.toNat + length < 2 ^ 64 then some (.ofNat (offset.toNat + length)) else none

/-- A sum that does not overflow. -/
theorem checkedAdd_eq_some {offset next : UInt64} {length : ℕ}
    (h : checkedAdd offset length = some next) : next.toNat = offset.toNat + length := by
  unfold checkedAdd at h
  split at h
  · rename_i hlt
    cases h
    exact UInt64.toNat_ofNat_of_lt' hlt
  · cases h

/-! ## The task -/

/-- What a delivery waits for. -/
inductive DeliveryPhase
  /-- To ask the Worker for the bytes. -/
  | requesting
  /-- The next chunk. -/
  | draining
  /-- Nothing: the task is over. -/
  | done
  deriving DecidableEq

/-- The task of one download. -/
structure Delivery where
  artifactId : Uuid
  workerId : Uuid
  deliveryToken : String
  expectedSize : UInt64
  expectedDigest : ContentHash
  offset : UInt64
  attempts : ℕ := 0
  hasher : Hasher := {}
  /-- The final chunk, which is held back until it is verified. -/
  pending : Option Bytes := none
  phase : DeliveryPhase := .requesting
  /-- Whether the task is subscribed to the Worker's chunks. -/
  subscribed : Bool := true
  /-- All data that was accepted. -/
  accepted : Bytes := []
  /-- What the response was handed, in order. -/
  body : List (Except String Bytes) := []
  /-- The requests that reached the Worker's control channel, in order. -/
  requests : List DeliverRequest := []
  /-- The discards sent to the Worker. -/
  discards : List DiscardOutput := []

/-- What a delivery waits for, as it happens. -/
inductive DeliveryEvent
  /-- The request was handed to the Worker's control channel. -/
  | sent (outcome : SendOutcome)
  /-- The next chunk; `none` where the channel is closed. -/
  | received (chunk : Option DeliveryChunk)
  /-- No chunk for too long. -/
  | silence

/-- What else answers during a step of a delivery. -/
structure Answers where
  /-- The client still takes bytes. -/
  connected : Bool
  /-- The transaction that persists the offset reaches the database. -/
  persists : Bool
  /-- The transaction that ends the delivery reaches the database. -/
  settles : Bool
  now : Time

/-- Moves an Artifact in a transaction of its own. -/
def moveArtifact (id : Uuid) (target : ArtifactState) (now : Time) : Body (Verdict Unit) := do
  match ← Artifacts.setState id target now with
  | .error _ => return .rollback ()
  | .ok _ => return .commit ()

namespace Delivery

/-- The bytes that the client was passed. -/
def passed (self : Delivery) : Bytes := (self.body.filterMap Except.toOption).flatten

/-- The request for the remaining bytes. -/
def deliverRequest (self : Delivery) : DeliverRequest :=
  ⟨self.artifactId, self.deliveryToken, self.offset⟩

/-- Hands an item to the response. -/
def send (self : Delivery) (answers : Answers) (item : Except String Bytes) : Delivery :=
  if answers.connected then { self with body := self.body ++ [item] } else self

/-- Ends the subscription and the task. -/
def finish (self : Delivery) : Delivery := { self with phase := .done, subscribed := false }

/-- Leaves the Artifact in a terminal state. -/
def settle (self : Delivery) (answers : Answers) (target : ArtifactState) (db : Db) : Db :=
  if answers.settles then (moveArtifact self.artifactId target answers.now).commit db else db

/-- Persists the offset: whether that worked. -/
def persistDeliveryOffset (self : Delivery) (answers : Answers) (db : Db) : Bool × Db :=
  if !answers.persists then (false, db)
  else match (Artifacts.commitOffset self.artifactId self.offset).run db with
    | .error _ => (false, db)
    | .ok (_, db') => (true, db')

/-- The bytes are lost. -/
def failDelivery (self : Delivery) (answers : Answers) (message : String) (db : Db) : Delivery × Db :=
  (self.finish.send answers (.error message), self.settle answers .lost db)

/-- The Worker is told to discard the output, and the Artifact expires. -/
def discardAndExpire (self : Delivery) (answers : Answers) (reason : String) (db : Db) :
    Delivery × Db :=
  ({ self.finish with discards := self.discards ++ [⟨self.deliveryToken, reason⟩] },
    self.settle answers .expired db)

/-- Whether the resume attempts are used up. -/
def exhausted (attempts : ℕ) : Bool := attempts ≥ maxResumeAttempts

/-- Asks again for the rest, unless that was tried too often. -/
def resume (self : Delivery) (answers : Answers) (message : String) (db : Db) : Delivery × Db :=
  let attempts := self.attempts + 1
  if exhausted attempts then { self with attempts }.failDelivery answers message db
  else ({ self with attempts, phase := .requesting, subscribed := true }, db)

/-- One answer of the Worker's control channel to a `DeliverRequest`. -/
def requestWorkerDelivery (self : Delivery) (answers : Answers) (outcome : SendOutcome) (db : Db) :
    Delivery × Db :=
  match outcome with
  | .delivered =>
    ({ self with phase := .draining, requests := self.requests ++ [self.deliverRequest] }, db)
  | .offline => self.failDelivery answers "producing worker went offline" db
  | .backpressured =>
    let attempts := self.attempts + 1
    if exhausted attempts then
      let (self, db) := { self with attempts }.discardAndExpire answers
        "producing worker's control channel stayed backpressured across the retry budget" db
      (self.send answers (.error
        "producing worker is backpressured; the artifact was not delivered"), db)
    else ({ self with attempts }, db)

/-- The whole Artifact was passed on. -/
def consume (self : Delivery) (answers : Answers) (db : Db) : Delivery × Db :=
  (self.finish, self.settle answers .consumed db)

/-- Data: it is passed on, unless it is the final chunk. -/
def drainData (self : Delivery) (answers : Answers) (bytes : Bytes) (db : Db) : Delivery × Db :=
  match checkedAdd self.offset bytes.length with
  | none => self.failDelivery answers "artifact delivery offset overflowed" db
  | some nextOffset =>
    if bytes.length > transferChunkBytes || nextOffset > self.expectedSize then
      self.failDelivery answers "worker sent an oversized artifact chunk" db
    else if bytes.isEmpty then (self, db)
    else
      let self := { self with
        hasher := self.hasher.update bytes
        accepted := self.accepted ++ bytes
        offset := nextOffset }
      if self.offset = self.expectedSize then ({ self with pending := some bytes }, db)
      else if !answers.connected then self.discardAndExpire answers "client disconnected" db
      else
        let self := self.send answers (.ok bytes)
        match self.persistDeliveryOffset answers db with
        | (false, db) => self.failDelivery answers "failed to persist artifact delivery progress" db
        | (true, db) => (self, db)

/-- The end of the Worker's stream: the final chunk is passed on once the manifest is
    verified. -/
def drainComplete [Sha256] (self : Delivery) (answers : Answers) (db : Db) : Delivery × Db :=
  if self.offset ≠ self.expectedSize || self.hasher.finish ≠ self.expectedDigest then
    self.failDelivery answers "artifact failed full-stream integrity verification" db
  else
    let self := { self with hasher := {} }
    if self.expectedSize = 0 && !answers.connected then
      self.discardAndExpire answers "client disconnected" db
    else
      let self := if self.expectedSize = 0 then self.send answers (.ok []) else self
      match self.pending with
      | none => self.consume answers db
      | some bytes =>
        let self := { self with pending := none }
        if !answers.connected then self.discardAndExpire answers "client disconnected" db
        else
          let self := self.send answers (.ok bytes)
          match self.persistDeliveryOffset answers db with
          | (false, db) => self.failDelivery answers "failed to persist artifact delivery progress" db
          | (true, db) => self.consume answers db

/-- One chunk from the producing Worker. -/
def drainWorkerChunk [Sha256] (self : Delivery) (answers : Answers) (chunk : Option DeliveryChunk)
    (db : Db) : Delivery × Db :=
  match chunk with
  | some (.data bytes) => self.drainData answers bytes db
  | some .complete => self.drainComplete answers db
  | some (.failed reason) =>
    self.resume answers ("artifact delivery failed repeatedly: " ++ reason) db
  | some (.rejected reason) => self.failDelivery answers ("artifact delivery rejected: " ++ reason) db
  | none => self.resume answers "artifact delivery failed repeatedly" db

/-- One step of the task. -/
def streamWorkerLocal [Sha256] (self : Delivery) (event : DeliveryEvent) (answers : Answers)
    (db : Db) :
    Delivery × Db :=
  match self.phase, event with
  | .requesting, .sent outcome => self.requestWorkerDelivery answers outcome db
  | .draining, .received chunk => self.drainWorkerChunk answers chunk db
  | .draining, .silence =>
    self.failDelivery answers "producing worker accepted delivery but sent nothing for too long" db
  | _, _ => (self, db)

end Delivery

/-! ## The handler -/

/-- A response's status. -/
inductive StatusCode
  | ok
  | found
  | notFound
  | conflict
  | gone
  | badGateway
  | internalServerError
  | serviceUnavailable
  deriving DecidableEq

/-- The download route's outcome for a given Artifact lookup. -/
inductive DownloadOutcome
  | notFound
  | deliver
  | redirect
  | gone
  | conflict
  | workerOffline
  deriving DecidableEq

/-- Classifies a download attempt from the Artifact's row and whether its Worker is online. -/
def classifyDownload (row : Option ArtifactRow) (workerOnline : Bool) : DownloadOutcome :=
  match row with
  | none => .notFound
  | some row =>
    if row.direction ≠ .output then .notFound
    else match row.state with
      | .consumed | .expired | .lost => .gone
      | .delivering => .conflict
      | .pending => .notFound
      | .available => match row.placement with
        | .workerLocal => if workerOnline then .deliver else .workerOffline
        | .objectStore => .redirect
        | .remoteLocal => .notFound

/-- What a download is answered with: a status, or the bytes that a task streams. -/
inductive DownloadReply
  | status (code : StatusCode)
  | stream (row : ArtifactRow) (workerId : Uuid)

/-- Whether the Artifact could not be acquired because its time has come. -/
def Artifacts.deliveryExpired (id : Uuid) (clock : Time) : Body Bool :=
  .exec <| .read fun db => (fetch db (artifact id)).any fun r =>
    r.state = .available && !r.expiresAt.any (· > clock)

/-- The answer where the Artifact could not be acquired. -/
def acquisitionRefused (id : Uuid) (clock : Time) : Body (Verdict DownloadReply) := do
  if ← Artifacts.deliveryExpired id clock then return .rollback (.status .gone)
  return .rollback (.status .conflict)

/-- Redirects to a presigned URL and consumes the Artifact. -/
def redirectToObjectStore (id : Uuid) (row : ArtifactRow) (presigned : Bool)
    (clock later now : Time) :
    Body (Verdict DownloadReply) := do
  if !(← Artifacts.beginDelivery id clock) then return ← acquisitionRefused id later
  if row.objectKey.isNone || !presigned then return .rollback (.status .internalServerError)
  match ← Artifacts.markConsumed id now with
  | .error _ => return .rollback (.status .internalServerError)
  | .ok _ => return .commit (.status .found)

/-- Acquires the Artifact for a task. -/
def deliverWorkerLocal (id : Uuid) (row : ArtifactRow) (clock later : Time) :
    Body (Verdict DownloadReply) := do
  let some workerId := row.workerId | return .rollback (.status .internalServerError)
  if !(← Artifacts.beginDelivery id clock) then return ← acquisitionRefused id later
  return .commit (.stream row workerId)

/-- Serves one Artifact. -/
def downloadForTenant (id : Uuid) (isOnline : Uuid → Bool) (presigned : Bool)
    (clock later now : Time) : Body (Verdict DownloadReply) := do
  let row ← Artifacts.get id
  match row, classifyDownload row ((row.bind ArtifactRow.workerId).any isOnline) with
  | _, .notFound | none, .redirect | none, .deliver => return .rollback (.status .notFound)
  | _, .gone => return .rollback (.status .gone)
  | _, .conflict => return .rollback (.status .conflict)
  | _, .workerOffline => return .rollback (.status .serviceUnavailable)
  | some row, .redirect => redirectToObjectStore id row presigned clock later now
  | some row, .deliver => deliverWorkerLocal id row clock later

/-- The task that a download spawns. -/
def Delivery.spawn (id : Uuid) (row : ArtifactRow) (workerId : Uuid) : Delivery where
  artifactId := id
  workerId
  deliveryToken := row.deliveryToken.getD ""
  expectedSize := row.manifest.sizeBytes
  expectedDigest := row.manifest.digest
  offset := .ofNat row.committedOffset

end Gpq
