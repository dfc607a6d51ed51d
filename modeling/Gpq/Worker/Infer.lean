import Gpq.Worker.Executor

/-!
# The staged inputs of an inference

The inference child gets the typed parameters and the paths of the downloaded inputs. It checks
that these are the inputs that the parameters refer to (`validateStagedInputs`), and the native
request then resolves every reference to its path (`resolveInputs`).

What the file system says of a path is a parameter.
-/

namespace Gpq

/-- The paths of the staged inputs, by Artifact. -/
abbrev StagedInputs := AList fun _ : Uuid => String

/-- The paths that an execution hands to the inference child. -/
def stagedInputs (inputs : InputArtifacts) : StagedInputs :=
  ⟨inputs.entries.map fun e => ⟨e.1, e.2.path⟩, by
    have hkeys : (inputs.entries.map fun e => (⟨e.1, e.2.path⟩ : Σ _ : Uuid, String)).keys =
        inputs.entries.keys := by
      simp [List.keys, Function.comp_def]
    rw [List.NodupKeys, hkeys]
    exact inputs.nodupKeys⟩

/-- The inputs that have to be staged. -/
def requiredInputs : GenerationParameters → Finset Uuid
  | .image image => image.references.toFinset
  | .video video => video.firstFrame.toFinset ∪ video.lastFrame.toFinset

/-- Checks that exactly the required inputs are staged, each as a file of the Attempts' directory. -/
def validateStagedInputs (stagedFile : String → Except String Unit)
    (parameters : GenerationParameters) (inputs : StagedInputs) : Except String Unit := do
  let required := requiredInputs parameters
  if ¬ ∀ artifact ∈ required, artifact ∈ inputs then
    throw "a referenced input artifact was not staged"
  if ¬ inputs.keys.all (· ∈ required) then throw "input map contains an unreferenced artifact"
  (inputs.keys.insertionSort (· ≤ ·)).forM fun artifact => (inputs.lookup artifact).elim
    (.ok ()) stagedFile

/-! ## The native request -/

/-- An unusable inference request. -/
inductive InferenceError
  | invalidRequest (message : String)
  deriving DecidableEq

/-- The path of a referenced input. -/
def resolveImage (requireFile : String → Except String Unit) (inputs : StagedInputs) (id : Uuid) :
    Except InferenceError String := do
  match inputs.lookup id with
  | none => throw (.invalidRequest ("worker did not stage referenced artifact " ++ displayUuid id))
  | some path =>
    (requireFile path).mapError InferenceError.invalidRequest
    return path

/-- The paths of references, in order. -/
def resolveImages (requireFile : String → Except String Unit) (ids : List Uuid)
    (inputs : StagedInputs) :
    Except InferenceError (List String) :=
  ids.mapM (resolveImage requireFile inputs)

/-- The inputs of the native request. -/
inductive NativeInputs
  | references (paths : List String)
  | frames (first last : Option String)
  deriving DecidableEq

/-- Resolves every reference of the parameters. -/
def resolveInputs (requireFile : String → Except String Unit) (inputs : StagedInputs) :
    GenerationParameters → Except InferenceError NativeInputs
  | .image image => return .references (← resolveImages requireFile image.references inputs)
  | .video video => do
    let firstFrame ← video.firstFrame.mapM (resolveImage requireFile inputs)
    let lastFrame ← video.lastFrame.mapM (resolveImage requireFile inputs)
    return .frames firstFrame lastFrame

end Gpq
