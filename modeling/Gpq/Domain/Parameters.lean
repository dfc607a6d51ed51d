import Gpq.Domain.Manifest

/-!
# Generation parameters

The typed parameters of an image or a video request, with the validation both
admission and scheduling apply, and the input Artifacts they reference.
-/

namespace Gpq

/-- A stored record's identifier. -/
abbrev Uuid := ℕ

/-- The longest prompt, in bytes of UTF-8. -/
def maxPromptBytes : ℕ := 16 * 1024

/-- The most references of an image request. -/
def maxImageReferences : ℕ := 10

/-- The largest VP8 frame dimension. -/
def maxVp8Dimension : UInt32 := 16383

/-- A requested priority, zero through nine. -/
abbrev Priority := Fin 10

instance priorities : @NeZero ℕ Zero.ofOfNat0 10 := ⟨by decide⟩

/-- Why parameters are rejected. -/
inductive ParameterValidationError
  | emptyPrompt
  | promptTooLong
  | invalidDimensions
  | invalidSteps
  | nonFiniteCfgScale
  | tooManyReferences
  | nonFiniteLoraScale
  | invalidSigmas
  | samplingStepsMismatch
  | invalidVideoFrames
  | videoDimensionLimit
  | lastFrameRequiresFirst
  | familyModalityMismatch
  deriving DecidableEq, Repr

/-- The parameter error a sampling error is reported as. -/
def SamplingError.toParameterError : SamplingError → ParameterValidationError
  | invalidSteps => .invalidSteps
  | nonFiniteCfgScale => .nonFiniteCfgScale
  | nonFiniteSigma | invalidSigmaSchedule | sigmaStepCountOverflow => .invalidSigmas
  | stepsMismatch => .samplingStepsMismatch

/-- Unicode white space. -/
def isWhiteSpace (c : Char) : Bool :=
  let n := c.toNat
  (0x9 ≤ n ∧ n ≤ 0xD) ∨ (0x2000 ≤ n ∧ n ≤ 0x200A) ∨
    n ∈ [0x20, 0x85, 0xA0, 0x1680, 0x2028, 0x2029, 0x202F, 0x205F, 0x3000]

/-- Whether a text is blank: nothing remains once white space is trimmed. -/
def isBlank (s : String) : Bool := s.toList.all isWhiteSpace

/-- Checks one prompt. -/
def validatePrompt (prompt : String) (mayBeEmpty : Bool) : Except ParameterValidationError Unit := do
  if prompt.utf8ByteSize > maxPromptBytes then throw .promptTooLong
  if !mayBeEmpty && isBlank prompt then throw .emptyPrompt

/-- Checks one frame size. -/
def validateDimensions (width height : UInt32) : Except ParameterValidationError Unit := do
  if width = 0 ∨ height = 0 ∨ width % 32 ≠ 0 ∨ height % 32 ≠ 0 then throw .invalidDimensions

/-- The parameters of an image request. -/
structure ImageParameters where
  prompt : String
  negativePrompt : String
  width : UInt32
  height : UInt32
  steps : Option UInt32
  cfgScale : Option F32
  references : List Uuid
  loras : List LoraSelection
  sigmas : Option (List F32)
  deriving DecidableEq

/-- The parameters of a video request. -/
structure VideoParameters where
  prompt : String
  negativePrompt : String
  width : UInt32
  height : UInt32
  frames : UInt32
  firstFrame : Option Uuid
  lastFrame : Option Uuid
  deriving DecidableEq

/-- Checks an image request. -/
def ImageParameters.validate (self : ImageParameters) : Except ParameterValidationError Unit := do
  validatePrompt self.prompt false
  validatePrompt self.negativePrompt true
  validateDimensions self.width self.height
  if self.steps = some 0 then throw .invalidSteps
  if self.cfgScale.any (!·.isFinite) then throw .nonFiniteCfgScale
  if self.references.length > maxImageReferences then throw .tooManyReferences
  if self.loras.any (!·.scale.isFinite) then throw .nonFiniteLoraScale
  if self.sigmas.any (fun sigmas => !(sigmaStepCount sigmas).isOk) then throw .invalidSigmas

/-- Checks a video request. -/
def VideoParameters.validate (self : VideoParameters) : Except ParameterValidationError Unit := do
  validatePrompt self.prompt false
  validatePrompt self.negativePrompt true
  validateDimensions self.width self.height
  if self.width > maxVp8Dimension ∨ self.height > maxVp8Dimension then throw .videoDimensionLimit
  if self.frames < 5 ∨ (self.frames - 5) % 17 ≠ 0 then throw .invalidVideoFrames
  if self.lastFrame.isSome && self.firstFrame.isNone then throw .lastFrameRequiresFirst

/-- The conditions that `ImageParameters.validate` checks. -/
structure ImageParameters.Valid (p : ImageParameters) : Prop where
  prompt : validatePrompt p.prompt false = .ok ()
  negativePrompt : validatePrompt p.negativePrompt true = .ok ()
  dimensions : validateDimensions p.width p.height = .ok ()
  steps : p.steps ≠ some 0
  cfgScale : ∀ x ∈ p.cfgScale, x.isFinite
  references : p.references.length ≤ maxImageReferences
  loras : ∀ lora ∈ p.loras, lora.scale.isFinite
  sigmas : ∀ sigmas ∈ p.sigmas, (sigmaStepCount sigmas).isOk

/-- No optional value fails a test. -/
theorem forall_of_not_any {α : Type} {o : Option α} {f : α → Bool} (h : ¬ o.any fun x => !f x) :
    ∀ x ∈ o, f x := by
  rintro x rfl
  simpa using h

/-- Parameters that are accepted are valid: every check that was passed is one of the fields. -/
theorem ImageParameters.valid_of_validate {p : ImageParameters} (h : p.validate = .ok ()) :
    p.Valid := by
  unfold ImageParameters.validate at h
  simp only [bind, Except.bind, throw, throwThe, MonadExceptOf.throw, pure, Except.pure] at h
  repeat' split at h
  all_goals first
    | contradiction
    | skip
  -- only the path on which no check fails is left
  rename_i hprompt _ _ hnegative _ _ hdimensions hsteps hcfg hrefs hloras hsigmas
  exact ⟨hprompt, hnegative, hdimensions, hsteps, forall_of_not_any hcfg, not_lt.1 hrefs,
    by simpa using hloras, forall_of_not_any hsigmas⟩

/-- Typed parameters of either modality. -/
inductive GenerationParameters
  | image (params : ImageParameters)
  | video (params : VideoParameters)
  deriving DecidableEq

namespace GenerationParameters

/-- Checks parameters against the family that would run them. -/
def validateForFamily (self : GenerationParameters) (family : ModelFamily) :
    Except ParameterValidationError Unit :=
  match family, self with
  | .qwenImage21, .image params => params.validate
  | .minimaxH3, .video params => params.validate
  | _, _ => .error .familyModalityMismatch

/-- Every referenced input Artifact once, in order of first use. -/
def stagingArtifactIds : GenerationParameters → List Uuid
  | .video params => match params.firstFrame, params.lastFrame with
    | some first, some last => if last = first then [first] else [first, last]
    | some first, none => [first]
    | none, some last => [last]
    | none, none => []
  | .image params =>
    params.references.foldl (fun ids id => if id ∈ ids then ids else ids ++ [id]) []

end GenerationParameters

end Gpq
