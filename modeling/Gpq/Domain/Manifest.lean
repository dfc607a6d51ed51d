import Mathlib.Algebra.Group.Nat.Defs
import Mathlib.Data.List.Sort
import Gpq.Domain.State

/-!
# Model manifests

The immutable description of a native model: its family, its assets and its
sampling preset. `SamplingPreset.resolve` picks the effective sampling from the
preset and a request's overrides. 32-bit floats are kept as their bit patterns,
of which only finiteness is asked.

The canonical hash of a manifest is the SHA-256 digest of its JSON rendering.
Both are outside the repository, so the hash is a parameter (`ManifestHash`).
-/

namespace Gpq

/-- A SHA-256 content hash. -/
abbrev ContentHash := BitVec 256

/-- A 32-bit float, as its bit pattern. -/
abbrev F32 := BitVec 32

/-- Whether a float is neither infinite nor a NaN: its exponent is not all ones. -/
def F32.isFinite (x : F32) : Bool := x.toNat / 2 ^ 23 % 2 ^ 8 != 255

/-- A sorted set, as a strictly increasing list. -/
def btreeSet (l : List ContentHash) : List ContentHash := l.dedup.insertionSort (· ≤ ·)

/-- Native generation modality. -/
inductive Modality
  | image
  | video
  deriving DecidableEq, Repr

/-- Native model family. -/
inductive ModelFamily
  | qwenImage21
  | minimaxH3
  deriving DecidableEq, Repr

/-- The role of one model asset. -/
inductive ModelAssetRole
  | diffusion
  | textEncoder
  | visionEncoder
  | vae
  | audioVae
  deriving DecidableEq, Repr

/-- The modality a family produces. -/
def ModelFamily.modality : ModelFamily → Modality
  | qwenImage21 => .image
  | minimaxH3 => .video

/-- A selected LoRA and its strength. -/
structure LoraSelection where
  sha256 : ContentHash
  scale : F32
  deriving DecidableEq

/-- A model's sampling defaults. -/
structure SamplingPreset where
  steps : UInt32
  cfgScale : F32
  sigmas : List F32
  deriving DecidableEq

/-- The sampling a request is run with. -/
structure ResolvedSampling where
  steps : UInt32
  cfgScale : F32
  sigmas : List F32
  deriving DecidableEq

/-- Why sampling parameters are unusable. -/
inductive SamplingError
  | invalidSteps
  | nonFiniteCfgScale
  | nonFiniteSigma
  | invalidSigmaSchedule
  | sigmaStepCountOverflow
  | stepsMismatch
  deriving DecidableEq, Repr

/-- The step count a sigma schedule fixes, `none` when it is empty. -/
def sigmaStepCount (sigmas : List F32) : Except SamplingError (Option UInt32) :=
  if sigmas.any (!·.isFinite) then .error .nonFiniteSigma
  else if sigmas.isEmpty then .ok none
  else if sigmas.length < 2 then .error .invalidSigmaSchedule
  else if sigmas.length - 1 < 2 ^ 32 then .ok (some (UInt32.ofNat (sigmas.length - 1)))
  else .error .sigmaStepCountOverflow

namespace SamplingPreset

/-- Checks the preset by itself. -/
def validate (self : SamplingPreset) : Except SamplingError Unit := do
  if self.steps = 0 then throw .invalidSteps
  if !self.cfgScale.isFinite then throw .nonFiniteCfgScale
  if (← sigmaStepCount self.sigmas).any (· != self.steps) then throw .stepsMismatch

/-- The effective sampling: an empty override of the schedule falls back to the
    preset's, and a schedule fixes the step count. -/
def resolve (self : SamplingPreset) (steps : Option UInt32) (cfgScale : Option F32)
    (sigmas : Option (List F32)) : Except SamplingError ResolvedSampling := do
  self.validate
  if steps = some 0 then throw .invalidSteps
  if cfgScale.any (!·.isFinite) then throw .nonFiniteCfgScale
  let sigmas := (sigmas.filter (!·.isEmpty)).getD self.sigmas
  let steps ← match ← sigmaStepCount sigmas with
    | some scheduledSteps =>
      if steps.any (· != scheduledSteps) then throw .stepsMismatch else pure scheduledSteps
    | none => pure (steps.getD self.steps)
  return { steps, cfgScale := cfgScale.getD self.cfgScale, sigmas }

end SamplingPreset

/-- Why a manifest is not runnable. -/
inductive ModelManifestError
  | missingAsset (role : ModelAssetRole)
  | invalidSamplingSteps
  | nonFiniteSamplingScale
  | nonFiniteSigma
  | nonFiniteLoraScale
  | invalidSigmaSchedule
  | sigmaStepCountOverflow
  | samplingStepsMismatch
  deriving DecidableEq, Repr

/-- The manifest error a sampling error is reported as. -/
def SamplingError.toManifestError : SamplingError → ModelManifestError
  | invalidSteps => .invalidSamplingSteps
  | nonFiniteCfgScale => .nonFiniteSamplingScale
  | nonFiniteSigma => .nonFiniteSigma
  | invalidSigmaSchedule => .invalidSigmaSchedule
  | sigmaStepCountOverflow => .sigmaStepCountOverflow
  | stepsMismatch => .samplingStepsMismatch

/-- An immutable native model manifest. -/
structure ModelManifest where
  family : ModelFamily
  assets : AList fun _ : ModelAssetRole => ContentHash
  defaultLoras : List LoraSelection
  sampling : SamplingPreset

namespace ModelManifest

/-- The modality derived from the family. -/
def modality (self : ModelManifest) : Modality := self.family.modality

/-- The assets a family cannot run without. -/
def requiredAssets : ModelFamily → List ModelAssetRole
  | .qwenImage21 => [.diffusion, .textEncoder, .visionEncoder, .vae]
  | .minimaxH3 => [.diffusion, .textEncoder, .vae, .audioVae]

/-- Checks assets, sampling and default LoRAs. -/
def validate (self : ModelManifest) : Except ModelManifestError Unit := do
  match (requiredAssets self.family).find? (fun role => !decide (role ∈ self.assets)) with
  | some role => throw (.missingAsset role)
  | none => pure ()
  self.sampling.validate.mapError SamplingError.toManifestError
  if self.defaultLoras.any (!·.scale.isFinite) then throw .nonFiniteLoraScale

end ModelManifest

/-- The canonical hash of manifests: SHA-256 over their canonical JSON. -/
class ManifestHash where
  canonicalHash : ModelManifest → ContentHash

/-- A manifest's canonical hash. -/
def ModelManifest.canonicalHash [ManifestHash] (self : ModelManifest) : ContentHash :=
  ManifestHash.canonicalHash self

end Gpq
