import Gpq.Lib.Json
import Gpq.Remote.Events
import Gpq.Remote.Listing
import Gpq.Remote.Watch

/-!
# Stored progress and events

The progress of a Generation is stored twice, as JSON: in its row, where `readProgress` reads it for
every client, and as the payload of an event, where `decodePersisted` reads it for a replay. A
`ProgressSnapshot` in a row stands for `ProgressSnapshot.toJson`.

What is read of a float that was stored as `jsonb` is a parameter, and so are times as text.
-/

namespace Gpq

open Sql

/-- Times as RFC 3339 texts. -/
class TimeText where
  write : Time → String
  read : String → Except String Time

/-- What is read of a 64-bit float that was stored: it may be rounded, or out of range. -/
class Jsonb where
  reread : BitVec 64 → Option (BitVec 64)

/-- A float as JSON: what is not a number is null. -/
def floatJson (bits : BitVec 64) : Json := if isFinite bits then .double bits else .null

/-! ## Snapshots -/

section Snapshots

variable [TimeText]

/-- The progress as it is stored. -/
def ProgressSnapshot.toJson (progress : ProgressSnapshot) : Json :=
  .object [
    ("fraction", floatJson progress.fraction),
    ("stage", .string progress.stage),
    ("step", .uint progress.step.toNat),
    ("total_steps", .uint progress.totalSteps.toNat),
    ("observed_at", .string (TimeText.write progress.observedAt))]

/-- A time, from its text. -/
def readTime : Json → Except Json.Error Time
  | .string text => (TimeText.read text).mapError .custom
  | json => .error (.invalidType json "an RFC 3339 formatted date and time string")

/-- Reads a stored progress snapshot: its fields in the order of their names, which are then
    required in the order of their declaration. -/
def readProgress (json : Json) : Except Json.Error ProgressSnapshot := do
  let fields ← json.readObject "struct ProgressJson"
  let fraction ← Json.readField fields "fraction" Json.readDouble
  let observedAt ← Json.readField fields "observed_at" readTime
  let stage ← Json.readField fields "stage" Json.readString
  let step ← Json.readField fields "step" Json.readUInt32
  let totalSteps ← Json.readField fields "total_steps" Json.readUInt32
  return {
    fraction := ← Json.required "fraction" fraction
    stage := ← Json.required "stage" stage
    step := ← Json.required "step" step
    totalSteps := ← Json.required "total_steps" totalSteps
    observedAt := ← Json.required "observed_at" observedAt }

variable [Jsonb]

/-- The JSON that is read of the progress column of a row, where it can be read. -/
def GenerationRow.progressJson (row : GenerationRow) : Option Json :=
  row.latestProgress.bind fun progress => progress.toJson.readBack Jsonb.reread

end Snapshots

/-! ## Events -/

/-- The kind and the payload of an event that is persisted. -/
def persistedForm : GenerationEvent → Option (EventKind × Json)
  | .state state attemptCount failure =>
    some (.stateChanged, .object [
      ("state", .string state.asStr),
      ("attempt_count", .uint attemptCount),
      ("failure", .ofOption (fun (kind, message) =>
        .object [("kind", .string kind.asStr), ("message", .string message)]) failure)])
  | .progress progress =>
    some (.progress, .object [
      ("fraction", floatJson progress.fraction),
      ("stage", .string progress.stage),
      ("step", .uint progress.step.toNat),
      ("total_steps", .uint progress.totalSteps.toNat)])
  | .output | .discontinuity _ => none

/-- Reads one of some variants by its name. -/
def readVariant {α : Type} (variants : List α) (asStr : α → String) (json : Json) :
    Except Json.Error α := do
  let name ← json.readString
  (variants.find? (asStr · = name)).elim (.error (.custom ("unknown variant `" ++ name ++
    "`, expected one of " ++
    ", ".intercalate (variants.map fun variant => "`" ++ asStr variant ++ "`")))) .ok

/-- The state of a Generation, by its name. -/
def readState : Json → Except Json.Error GenerationState :=
  readVariant [.queued, .running, .cancelling, .succeeded, .failed, .cancelled,
    .expired] GenerationState.asStr

/-- The kind of a failure, by its name. -/
def readFailureKind : Json → Except Json.Error FailureKind :=
  readVariant [.invalidInput, .unsupportedCapability, .modelUnavailable, .outOfMemory,
    .backendCrashed, .executionTimedOut, .cancelled, .transferFailed, .internal, .workerLost,
      .leaseExpired] FailureKind.asStr

/-- The failure of a Generation: its kind and its message. -/
def readFailure (json : Json) : Except Json.Error (FailureKind × String) := do
  let fields ← json.readObject "struct FailurePayload"
  let kind ← Json.readField fields "kind" readFailureKind
  let message ← Json.readField fields "message" Json.readString
  return (← Json.required "kind" kind, ← Json.required "message" message)

/-- The payload of a state change. -/
def readStateChanged (json : Json) : Except Json.Error GenerationEvent := do
  let fields ← json.readObject "struct StateChangedPayload"
  let attemptCount ← Json.readField fields "attempt_count" Json.readUInt32
  let failure ← Json.readField fields "failure" fun
    | .null => .ok none
    | failure => some <$> readFailure failure
  let state ← Json.readField fields "state" readState
  return .state (← Json.required "state" state)
    (← Json.required "attempt_count" attemptCount).toNat failure.join

/-- Reads the progress of an event, which was observed when the event was persisted. -/
def readProgressPayload (createdAt : Time) (json : Json) : Except Json.Error GenerationEvent := do
  let fields ← json.readObject "struct ProgressPayload"
  let fraction ← Json.readField fields "fraction" Json.readDouble
  let stage ← Json.readField fields "stage" Json.readString
  let step ← Json.readField fields "step" Json.readUInt32
  let totalSteps ← Json.readField fields "total_steps" Json.readUInt32
  return .progress {
    fraction := ← Json.required "fraction" fraction
    stage := ← Json.required "stage" stage
    step := ← Json.required "step" step
    totalSteps := ← Json.required "total_steps" totalSteps
    observedAt := createdAt }

/-- The event of a persisted row; none for one of another kind, or one that cannot be read. -/
def decodePersisted (row : EventRow) : Option GenerationEvent :=
  match row.kind with
  | .stateChanged => (readStateChanged row.payload).toOption
  | .progress => (readProgressPayload row.createdAt row.payload).toOption
  | .attemptCreated => none

/-- Persists an event, where it has a persisted form. -/
def appendPersisted (generationId : Uuid) (event : GenerationEvent) (now : Time) :
    Prog EventDb (Option ℕ) :=
  match persistedForm event with
  | some (kind, payload) => do return some (← Events.append generationId kind payload now)
  | none => return none

/-- A row of the log, as it is read. -/
def EventRow.readBack [Jsonb] (row : EventRow) : Option EventRow :=
  (row.payload.readBack Jsonb.reread).map fun payload => { row with payload }

end Gpq
