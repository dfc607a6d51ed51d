import Gpq.Domain.Parameters

/-!
# Capability matching

What a Generation requires of a Slot (`Requirement.forGeneration`) and what a
Slot admits (`SlotCapability.admits`): the Tenant, the pinned model, its LoRAs
and the Pool's shape limits.
-/

namespace Gpq

/-- The shape of a request, as far as limits look at it. -/
structure GenerationShape where
  width : UInt32
  height : UInt32
  steps : Option UInt32
  frames : Option UInt32
  deriving DecidableEq

/-- The shape limits a Pool advertises; an absent limit is no bound. -/
structure ShapeLimits where
  maxImagePixels : Option UInt64 := none
  maxVideoPixels : Option UInt64 := none
  maxVideoFrames : Option UInt32 := none
  maxSteps : Option UInt32 := none
  deriving DecidableEq

/-- What a Slot must offer to run a Generation. -/
structure Requirement where
  tenantId : Uuid
  modality : Modality
  version : ContentHash
  requiredLoras : List ContentHash
  shape : GenerationShape
  deriving DecidableEq

/-- Why no requirement can be built. -/
inductive RequirementError
  | modelManifest (error : ModelManifestError)
  | parameters (error : ParameterValidationError)
  | manifestHashMismatch (requested actual : ContentHash)
  deriving DecidableEq

/-- The requirement of a Generation, from its pinned version, that version's
    manifest and the typed parameters. -/
def Requirement.forGeneration [ManifestHash] (tenantId : Uuid) (version : ContentHash)
    (manifest : ModelManifest) (parameters : GenerationParameters) :
    Except RequirementError Requirement := do
  manifest.validate.mapError .modelManifest
  (parameters.validateForFamily manifest.family).mapError .parameters
  let actual := manifest.canonicalHash
  if actual ≠ version then throw (.manifestHashMismatch version actual)
  let shape ← match parameters with
    | .image image => do
      let sampling ← (manifest.sampling.resolve image.steps image.cfgScale image.sigmas).mapError
        (.parameters ·.toParameterError)
      pure { width := image.width, height := image.height, steps := some sampling.steps,
             frames := none : GenerationShape }
    | .video video => do
      let sampling ← (manifest.sampling.resolve none none none).mapError
        (.parameters ·.toParameterError)
      pure { width := video.width, height := video.height, steps := some sampling.steps,
             frames := some video.frames }
  let requiredLoras := match parameters with
    | .image image => btreeSet (image.loras.map LoraSelection.sha256)
    | .video _ => []
  return { tenantId, modality := manifest.modality, version, requiredLoras, shape }

/-- What one Slot of a Pool offers. -/
structure SlotCapability where
  tenantId : Uuid
  workerId : Uuid
  poolId : Uuid
  slotId : Uuid
  accelerator : String
  acceleratorVersion : String
  modelManifests : List (ContentHash × ModelManifest)
  imageLoras : List ContentHash
  residentModel : Option ContentHash
  acceleratorMemoryBytes : Option UInt64
  shapeLimits : ShapeLimits

/-- Why a Slot cannot run a Generation. -/
inductive IncapableReason
  | tenantMismatch
  | missingModel (version : ContentHash)
  | modelModalityMismatch (required found : Modality)
  | missingLora (lora : ContentHash)
  | invalidShape
  | imagePixelLimit (requested maximum : UInt64)
  | videoPixelLimit (requested maximum : UInt64)
  | videoFrameLimit (requested maximum : UInt32)
  | stepLimit (requested maximum : UInt32)
  deriving DecidableEq

namespace SlotCapability

/-- Checks the request's shape against native execution and the Pool's limits.
    The pixel product of two 32-bit sizes fits 64 bits; that with the frame
    count saturates. -/
def admitsShape (self : SlotCapability) (requirement : Requirement) :
    Except IncapableReason Unit := do
  let shape := requirement.shape
  if shape.width = 0 ∨ shape.height = 0 ∨ shape.width % 32 ≠ 0 ∨ shape.height % 32 ≠ 0 ∨
      shape.steps.all (· == 0) then throw .invalidShape
  let imagePixels := shape.width.toUInt64 * shape.height.toUInt64
  match requirement.modality with
  | .image =>
    if shape.frames.isSome then throw .invalidShape
    match self.shapeLimits.maxImagePixels with
    | some maximum => if imagePixels > maximum then throw (.imagePixelLimit imagePixels maximum)
    | none => pure ()
  | .video =>
    match shape.frames.filter (fun frames => 5 ≤ frames ∧ (frames - 5) % 17 = 0) with
    | none => throw .invalidShape
    | some frames =>
      match self.shapeLimits.maxVideoFrames with
      | some maximum => if frames > maximum then throw (.videoFrameLimit frames maximum)
      | none => pure ()
      let videoPixels := UInt64.ofNat (min (imagePixels.toNat * frames.toNat) (2 ^ 64 - 1))
      match self.shapeLimits.maxVideoPixels with
      | some maximum => if videoPixels > maximum then throw (.videoPixelLimit videoPixels maximum)
      | none => pure ()
  match self.shapeLimits.maxSteps, shape.steps with
  | some maximum, some steps => if steps > maximum then throw (.stepLimit steps maximum)
  | _, _ => pure ()

/-- Whether the Slot can run the Generation, and why not. -/
def admits (self : SlotCapability) (requirement : Requirement) : Except IncapableReason Unit := do
  if self.tenantId ≠ requirement.tenantId then throw .tenantMismatch
  let some manifest := self.modelManifests.lookup requirement.version
    | throw (.missingModel requirement.version)
  if manifest.modality ≠ requirement.modality then
    throw (.modelModalityMismatch requirement.modality manifest.modality)
  match requirement.requiredLoras.find? (· ∉ self.imageLoras) with
  | some lora => throw (.missingLora lora)
  | none => pure ()
  self.admitsShape requirement

end SlotCapability

/-- Whether any Slot can run the Generation. -/
def anyCandidateRemains (slots : List SlotCapability) (requirement : Requirement) : Bool :=
  slots.any fun slot => (slot.admits requirement).isOk

end Gpq
