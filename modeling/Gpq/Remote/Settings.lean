import Gpq.Remote.Session

/-!
# The Tenant's settings service

`UpdateTenantSettings` reads the settings, applies the update mask to their wire form,
checks the result and writes the whole row back. The read takes no lock.

A duration of a message is what the handler reads of it: its nanoseconds, or nothing where
it is unset or no `Duration`. The columns hold whole microseconds.
-/

namespace Gpq

open Sql DbKey

/-- The settings as a message carries them. -/
structure WireTenantSettings where
  maximumQueueAge : Option ℕ := none
  maxQueuedGenerations : UInt32 := 0
  maxInputArtifactBytes : UInt64 := 0
  maxOutputArtifactBytes : UInt64 := 0
  executionTimeoutCeiling : Option ℕ := none
  defaultPriority : UInt32 := 0
  deriving DecidableEq

/-- The settings as the handler works on them; durations in nanoseconds. -/
structure DomainTenantSettings where
  maximumQueueAge : ℕ
  maxQueuedGenerations : UInt32
  maxInputArtifactBytes : UInt64
  maxOutputArtifactBytes : UInt64
  executionTimeoutCeiling : ℕ
  defaultPriority : Priority

/-- The fields that an update mask can name. -/
inductive SettingsField
  | maximumQueueAge
  | maxQueuedGenerations
  | maxInputArtifactBytes
  | maxOutputArtifactBytes
  | executionTimeoutCeiling
  | defaultPriority
  deriving DecidableEq

/-- The path of a field in an update mask. -/
def SettingsField.maskPath : SettingsField → String
  | maximumQueueAge => "maximum_queue_age"
  | maxQueuedGenerations => "max_queued_generations"
  | maxInputArtifactBytes => "max_input_artifact_bytes"
  | maxOutputArtifactBytes => "max_output_artifact_bytes"
  | executionTimeoutCeiling => "execution_timeout_ceiling"
  | defaultPriority => "default_priority"

/-- The field of a path. -/
def SettingsField.ofPath? : String → Option SettingsField
  | "maximum_queue_age" => some maximumQueueAge
  | "max_queued_generations" => some maxQueuedGenerations
  | "max_input_artifact_bytes" => some maxInputArtifactBytes
  | "max_output_artifact_bytes" => some maxOutputArtifactBytes
  | "execution_timeout_ceiling" => some executionTimeoutCeiling
  | "default_priority" => some defaultPriority
  | _ => none

/-- Why an update is refused as an invalid argument. -/
inductive SettingsError
  /-- `unknown update_mask path`, and the path in its debug form. -/
  | unknownPath (path : String)
  | invalid (message : String)
  deriving DecidableEq

/-- `current`, with one field taken from `incoming`. -/
def SettingsField.take (incoming current : WireTenantSettings) : SettingsField → WireTenantSettings
  | maximumQueueAge => { current with maximumQueueAge := incoming.maximumQueueAge }
  | maxQueuedGenerations => { current with maxQueuedGenerations := incoming.maxQueuedGenerations }
  | maxInputArtifactBytes => { current with maxInputArtifactBytes := incoming.maxInputArtifactBytes }
  | maxOutputArtifactBytes =>
    { current with maxOutputArtifactBytes := incoming.maxOutputArtifactBytes }
  | executionTimeoutCeiling =>
    { current with executionTimeoutCeiling := incoming.executionTimeoutCeiling }
  | defaultPriority => { current with defaultPriority := incoming.defaultPriority }

/-- Takes each named field from `incoming`. An empty mask replaces every field. -/
def applyUpdateMask (current incoming : WireTenantSettings) (updateMask : List String) :
    Except SettingsError WireTenantSettings :=
  if updateMask = [] then .ok incoming
  else updateMask.foldlM (fun merged path =>
    match SettingsField.ofPath? path with
    | some field => .ok (field.take incoming merged)
    | none => .error (.unknownPath path)) current

/-- The settings of a message. -/
def tenantSettingsToProto (settings : DomainTenantSettings) : WireTenantSettings where
  maximumQueueAge := some settings.maximumQueueAge
  maxQueuedGenerations := settings.maxQueuedGenerations
  maxInputArtifactBytes := settings.maxInputArtifactBytes
  maxOutputArtifactBytes := settings.maxOutputArtifactBytes
  executionTimeoutCeiling := some settings.executionTimeoutCeiling
  defaultPriority := .ofNat settings.defaultPriority

/-- The shortest execution timeout ceiling, in seconds. -/
def minExecutionTimeoutCeilingSecs : ℕ := 60

/-- A priority of a message. -/
def priorityFromWire (value : UInt32) : Except SettingsError Priority :=
  if h : value.toNat < 10 then .ok ⟨value.toNat, h⟩
  else .error (.invalid ("priority " ++ toString value.toNat ++ " is outside 0..=9"))

/-- Checks the settings of a message. -/
def tenantSettingsFromProto (settings : WireTenantSettings) :
    Except SettingsError DomainTenantSettings := do
  let some maximumQueueAge := settings.maximumQueueAge
    | .error (.invalid "maximum_queue_age is required")
  if maximumQueueAge = 0 then .error (.invalid "maximum_queue_age must be positive")
  let some executionTimeoutCeiling := settings.executionTimeoutCeiling
    | .error (.invalid "execution_timeout_ceiling is required")
  if executionTimeoutCeiling / 10 ^ 9 < minExecutionTimeoutCeilingSecs then
    .error (.invalid "execution_timeout_ceiling must be at least one minute")
  if settings.maxQueuedGenerations =
    0 then .error (.invalid "max_queued_generations must be positive")
  if settings.maxInputArtifactBytes = 0 then
    .error (.invalid "max_input_artifact_bytes must be positive")
  if settings.maxOutputArtifactBytes = 0 then
    .error (.invalid "max_output_artifact_bytes must be positive")
  let defaultPriority ← priorityFromWire settings.defaultPriority
  return {
    maximumQueueAge
    maxQueuedGenerations := settings.maxQueuedGenerations
    maxInputArtifactBytes := settings.maxInputArtifactBytes
    maxOutputArtifactBytes := settings.maxOutputArtifactBytes
    executionTimeoutCeiling
    defaultPriority }

/-- The settings of a row. -/
def TenantSettings.toDomain (row : TenantSettings) : DomainTenantSettings where
  maximumQueueAge := row.maximumQueueAge * 1000
  maxQueuedGenerations := .ofNat row.maxQueuedGenerations
  maxInputArtifactBytes := row.maxInputArtifactBytes
  maxOutputArtifactBytes := row.maxOutputArtifactBytes
  executionTimeoutCeiling := row.executionTimeoutCeiling * 1000
  defaultPriority := row.defaultPriority

/-- The microseconds of a duration, cast to a signed 64-bit number. -/
def intervalFromDuration (nanoseconds : ℕ) : ℤ := (BitVec.ofNat 64 (nanoseconds / 1000)).toInt

/-- The row that is written; an interval that is not positive fails its `CHECK` like zero. -/
def DomainTenantSettings.toRow (settings : DomainTenantSettings) : TenantSettings where
  maximumQueueAge := (intervalFromDuration settings.maximumQueueAge).toNat
  maxQueuedGenerations := settings.maxQueuedGenerations.toNat
  maxInputArtifactBytes := settings.maxInputArtifactBytes
  maxOutputArtifactBytes := settings.maxOutputArtifactBytes
  executionTimeoutCeiling := (intervalFromDuration settings.executionTimeoutCeiling).toNat
  defaultPriority := settings.defaultPriority

/-- The reply of an update: the settings it wrote, or why it was refused. -/
abbrev SettingsReply := Except SettingsError WireTenantSettings

/-- One `UpdateTenantSettings` call. -/
def updateTenantSettings (incoming : WireTenantSettings) (updateMask : List String) :
    Body (Verdict SettingsReply) := do
  let (_, current) ← .exec loadSettings
  match applyUpdateMask (tenantSettingsToProto current.toDomain) incoming updateMask with
  | .error e => return .rollback (.error e)
  | .ok mergedProto =>
    match tenantSettingsFromProto mergedProto with
    | .error e => return .rollback (.error e)
    | .ok merged =>
      let _ ← updateSettings merged.toRow
      return .commit (.ok (tenantSettingsToProto merged))

end Gpq
