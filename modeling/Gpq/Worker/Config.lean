import Gpq.Domain.Manifest
import Gpq.Lib.Traverse
import Gpq.Remote.Submit
import Gpq.Worker.Text

/-!
# The configuration of a Worker

A Worker is configured with Pools, each of which owns native devices. `WorkerConfig.validate` checks
a configuration before anything is started: every Pool by itself (`PoolConfig.validate`), and that
no two claim the same device (`checkDeviceOverlap`).

A map is the list of its entries in the order of their keys, a path is its text, and a duration is
its number of seconds. What is asked of the host, and the digest of a manifest's JSON, are
parameters (`Host`). An error is the text of its outermost context. The Worker is built for Unix.
-/

namespace Gpq

open Traverse (ensure)

/-- The environment variables that choose among the devices of a machine. -/
def DEVICE_SELECTOR_ENV_KEYS : List String :=
  ["CUDA_VISIBLE_DEVICES", "HIP_VISIBLE_DEVICES", "ROCR_VISIBLE_DEVICES", "GPU_DEVICE_ORDINAL"]

/-! ## The data -/

/-- A LoRA that a model always has. -/
structure ConfiguredLora where
  path : String
  scale : F32

/-- A model of a pool: its family, the files of its assets, and its sampling. -/
structure ModelConfig where
  family : ModelFamily
  assets : AList fun _ : ModelAssetRole => String
  defaultLoras : List ConfiguredLora
  sampling : Option SamplingPreset

/-- How a pool runs its models. -/
structure RuntimeConfig where
  paramsBackend : Option String
  maxVram : Option String
  threads : UInt32
  modelArgs : List String
  moduleBackends : AList fun _ : String => String

/-- The shape limits that a Pool is configured with. -/
structure ConfiguredShape where
  imagePixels : UInt64
  videoPixels : UInt64
  videoFrames : UInt32
  steps : UInt32

/-- A pool: its device, its models, and the environment of its child. -/
structure PoolConfig where
  key : String
  backend : String
  listen : String
  stateDir : String
  startupTimeout : ℕ
  runtime : RuntimeConfig
  shape : ConfiguredShape
  models : List ModelConfig
  extraImageLoras : List String
  expectedHashes : AList fun _ : String => String
  env : AList fun _ : String => String

/-- The configuration of a Worker. -/
structure WorkerConfig where
  name : String
  stateDir : String
  pools : List PoolConfig

/-- The address of a listener. -/
structure SocketAddr where
  ip : String
  port : UInt16
  deriving DecidableEq

/-- What the configuration is checked against. -/
structure Host where
  /-- Whether a path is a regular file, if it is anything. -/
  isFile : String → Option Bool
  createDirAll : String → Bool
  setPermissions : String → Bool
  parseSocketAddr : String → Option SocketAddr
  /-- The digest of the JSON of a manifest. -/
  digest : ModelConfig → ContentHash

/-! ## Models -/

/-- The name of a role in the source. -/
def ModelAssetRole.debug : ModelAssetRole → String
  | diffusion => "Diffusion"
  | textEncoder => "TextEncoder"
  | visionEncoder => "VisionEncoder"
  | vae => "Vae"
  | audioVae => "AudioVae"

/-- The name of a family in the source. -/
def ModelFamily.debug : ModelFamily → String
  | qwenImage21 => "QwenImage21"
  | minimaxH3 => "MinimaxH3"

/-- The assets that a family requires. -/
def requiredRoles : ModelFamily → List ModelAssetRole
  | .qwenImage21 => [.diffusion, .textEncoder, .vae, .visionEncoder]
  | .minimaxH3 => [.diffusion, .textEncoder, .vae, .audioVae]

section Checks

variable (host : Host)

/-- The state directory is created, and only its owner may read it. -/
def ensureStateDir (path : String) : Except String Unit := do
  ensure (host.createDirAll path) ("creating state dir " ++ path)
  ensure (host.setPermissions path) ("securing state dir " ++ path)

/-- The file of an asset is there, at an absolute path. -/
def ensureAssetPath (pool label path : String) : Except String Unit := do
  ensure (path.toList.head? = some '/')
    ("pool `" ++ pool ++ "` " ++ label ++ " path must be absolute: " ++ path)
  ensure (host.isFile path).isSome
    ("pool `" ++ pool ++ "` " ++ label ++ " " ++ path ++ " is unavailable")
  ensure (host.isFile path = some true)
    ("pool `" ++ pool ++ "` " ++ label ++ " " ++ path ++ " is not a regular file")

/-- A model has every asset that its family needs, and no other; they are files, and its sampling
    is valid. -/
def validateModel (pool : String) (model : ModelConfig) : Except String Unit := do
  let required := requiredRoles model.family
  ensure (∀ role ∈ required, role ∈ model.assets)
    ("pool `" ++ pool ++ "` model " ++ model.family.debug ++ " is missing required asset roles")
  model.assets.entries.forM fun asset => ensureAssetPath host pool
    (asset.1.debug ++ " model asset") asset.2
  let extraRoles := model.assets.keys.filter (· ∉ required)
  ensure (extraRoles = []) ("pool `" ++ pool ++ "` model " ++ model.family.debug ++
    " declares unsupported asset roles [" ++
      ", ".intercalate (extraRoles.map ModelAssetRole.debug) ++ "]")
  model.defaultLoras.forM fun lora => do
    ensure lora.scale.isFinite ("pool `" ++ pool ++ "` default LoRA scale must be finite")
    ensureAssetPath host pool "default LoRA" lora.path
  model.sampling.forM fun sampling =>
    ((sampling.resolve none none none).mapError fun _ => "pool `" ++ pool ++
      "` sampling preset is invalid").map fun _ => ()

/-- Checks the manifests, of which each may be advertised once. -/
def validateModels (pool : String) : List ModelConfig → List ContentHash → Except String Unit
  | [], _ => .ok ()
  | model :: models, modelHashes => do
    validateModel host pool model
    ensure (host.digest model ∉ modelHashes)
      ("pool `" ++ pool ++ "` contains a duplicate model manifest")
    validateModels pool models (host.digest model :: modelHashes)

/-- A SHA-256 digest, in either case. -/
def isHexSha256 (value : String) : Bool := value.utf8ByteSize = 64 ∧
    value.toList.all fun c => (hexDigit c).isSome

end Checks

/-! ## Device selectors -/

/-- The CPU, or a backend with digits behind it. -/
def validDeviceSelector (value : String) : Bool :=
  value = "cpu" || ["metal", "vulkan", "cuda"].any fun pre =>
    (stripPrefix pre value).any fun suffix => suffix.toList.all Char.isDigit

/-- What modules parameters may be assigned to. -/
def paramsModules : List String := ["all", "default", "*", "diffusion", "te", "clip_vision", "vae"]

/-- The modules that a device may be assigned to. -/
def nativeModules : List String := ["diffusion", "te", "clip_vision", "vae"]

/-- An assignment: what is before the first such sign, if there is one, and what is behind it. -/
def splitAssignment (assignment : String) : Option (String × String) :=
  (splitOnce '=' assignment.toList).map fun (a, b) => (String.ofList a, String.ofList b)

/-- Where the parameters of modules are kept: on disk, or on devices. -/
def validParamsBackend (value : String) : Bool :=
  value = "disk" || value ≠ "" && (splitChar ',' value).all fun assignment =>
    let (module, device) := (splitAssignment assignment).getD ("", assignment)
    (module = "" || module ∈ paramsModules) && validDeviceSelector device

/-- Whether a text is a positive number of GiB. -/
def isPositiveU32 (value : String) : Bool :=
  match parseUnsigned 32 value.toList with
  | .ok amount => 0 < amount
  | .error _ => false

/-- A budget, or budgets by device. -/
def validVramAssignment (value : String) : Bool :=
  isPositiveU32 value || trim value ≠ "" && (splitChar ',' value).all fun assignment =>
    match splitAssignment assignment with
    | none => false
    | some (device, gibibytes) => validDeviceSelector device && isPositiveU32 gibibytes

/-! ## Pools -/

/-- Checks a Pool by itself. -/
def PoolConfig.validate (host : Host) (pool : PoolConfig) : Except String Unit := do
  ensure (trim pool.key ≠ "") "pool key must not be empty"
  ensure (validDeviceSelector pool.backend)
    ("pool `" ++ pool.key ++ "` backend must name a supported native device")
  ensure (0 < pool.startupTimeout)
    ("pool `" ++ pool.key ++ "` startup_timeout_secs must be greater than zero")
  ensure (0 < pool.runtime.threads ∧ pool.runtime.threads ≤ 1024)
    ("pool `" ++ pool.key ++ "` runtime.threads must be within 1..=1024")
  ensure (∀ paramsBackend ∈ pool.runtime.paramsBackend, validParamsBackend paramsBackend)
    ("pool `" ++ pool.key ++ "` runtime.params_backend is invalid")
  ensure (∀ maxVram ∈ pool.runtime.maxVram, validVramAssignment maxVram)
    ("pool `" ++ pool.key ++
      "` runtime.max_vram must be a positive scalar GiB budget or device-to-GiB assignments")
  pool.runtime.modelArgs.forM fun argument =>
    ensure (argument ≠ "" ∧ '\x00' ∉ argument.toList ∧ ',' ∉ argument.toList)
      ("pool `" ++ pool.key ++
        "` runtime.model_args entries must be nonempty and cannot contain NUL or comma")
  pool.runtime.moduleBackends.entries.forM fun ⟨module, backend⟩ => do
    ensure (module ∈ nativeModules)
      ("pool `" ++ pool.key ++ "` runtime.module_backends contains unknown module `" ++ module ++ "`")
    ensure (validDeviceSelector backend)
      ("pool `" ++ pool.key ++ "` module `" ++ module ++ "` has unsupported backend `" ++
        backend ++ "`")
  pool.env.keys.forM fun name =>
    ensure (name ∈ DEVICE_SELECTOR_ENV_KEYS ∨ name = "VK_DRIVER_FILES")
      ("pool `" ++ pool.key ++
        "` env may contain only recognized accelerator device selectors or VK_DRIVER_FILES, not `" ++
        name ++ "`")
  ensure (0 < pool.shape.imagePixels) ("pool `" ++ pool.key ++ "` max_image_pixels must be positive")
  ensure (0 < pool.shape.videoPixels) ("pool `" ++ pool.key ++ "` max_video_pixels must be positive")
  ensure (1 ≤ pool.shape.videoFrames) ("pool `" ++ pool.key ++ "` max_video_frames must be positive")
  ensure (1 ≤ pool.shape.steps) ("pool `" ++ pool.key ++ "` max_steps must be positive")
  ensureStateDir host pool.stateDir
  validateModels host pool.key pool.models []
  pool.extraImageLoras.forM fun path => ensureAssetPath host pool.key "extra image LoRA" path
  pool.expectedHashes.entries.forM fun ⟨path, hash⟩ =>
    ensure (isHexSha256 hash)
      ("pool `" ++ pool.key ++ "` expected hash for `" ++ path ++ "` must be 64 hex characters")

/-! ## Overlapping claims -/

/-- The devices that a selector variable lists. -/
def selectorDevices (value : String) : List String := ((splitChar ',' value).map trim).filter (· ≠ "")

/-- Claims a device that a selector variable lists. -/
def claimDevice (variableName poolKey : String) (claimed : AList fun _ : String => String)
    (device : String) :
    Except String (AList fun _ : String => String) :=
  match claimed.lookup device with
  | some other =>
    .error ("pools `" ++ other ++ "` and `" ++ poolKey ++ "` both claim device `" ++ device ++
      "` via " ++ variableName)
  | none => .ok (claimed.insert device poolKey)

/-- Claims the devices that a Pool lists in a selector variable. -/
def claimDevices (variableName : String) (claimed : AList fun _ : String => String)
    (pool : PoolConfig) :
    Except String (AList fun _ : String => String) :=
  match pool.env.lookup variableName with
  | none => .ok claimed
  | some value => (selectorDevices value).foldlM (claimDevice variableName pool.key) claimed

/-- The selectors of the devices that a Pool uses, but for the CPU. -/
def nativeDeviceClaims (pool : PoolConfig) : List String :=
  let paramsDevices := match pool.runtime.paramsBackend with
    | none => []
    | some paramsBackend =>
      if paramsBackend = "disk" then []
      else (splitChar ',' paramsBackend).map fun assignment =>
        ((splitAssignment assignment).getD ("", assignment)).2
  (pool.backend :: pool.runtime.moduleBackends.entries.map (·.2) ++ paramsDevices).filter (· ≠ "cpu")

/-- A backend without a number is its first device. -/
def normalizeDevice (device : String) : String :=
  match device with
  | "metal" => "metal0"
  | "vulkan" => "vulkan0"
  | "cuda" => "cuda0"
  | other => other

/-- Two pools that see different CUDA devices by an environment variable. -/
def cudaPoolsArePartitioned (left right : PoolConfig) (device : String) : Bool :=
  (stripPrefix "cuda" (normalizeDevice device)).isSome && DEVICE_SELECTOR_ENV_KEYS.any fun key =>
    match left.env.lookup key, right.env.lookup key with
    | some l, some r => l ≠ r
    | _, _ => false

/-- Checks the selectors of every two Pools. -/
def checkNativeOverlap : List PoolConfig → Except String Unit
  | [] => .ok ()
  | left :: rest => do
    rest.forM fun right =>
      (nativeDeviceClaims left).forM fun leftDevice =>
        (nativeDeviceClaims right).forM fun rightDevice =>
          ensure (¬ (normalizeDevice leftDevice = normalizeDevice rightDevice ∧
              ¬ cudaPoolsArePartitioned left right leftDevice))
            ("pools `" ++ left.key ++ "` and `" ++ right.key ++ "` both claim native device `" ++
              leftDevice ++ "`")
    checkNativeOverlap rest

/-- No device is claimed by two pools. -/
def checkDeviceOverlap (pools : List PoolConfig) : Except String Unit := do
  DEVICE_SELECTOR_ENV_KEYS.forM fun key => (pools.foldlM (claimDevices key) ∅).map fun _ => ()
  checkNativeOverlap pools

/-! ## The Worker -/

/-- Checks the Pools one after the other. -/
def validatePools (host : Host) : List PoolConfig → List String → List SocketAddr → Except String Unit
  | [], _, _ => .ok ()
  | pool :: pools, seenKeys, seenListeners => do
    ensure (pool.key ∉ seenKeys) ("duplicate pool key `" ++ pool.key ++ "`")
    pool.validate host
    let listener ← (host.parseSocketAddr pool.listen).elim
      (.error ("pool `" ++ pool.key ++ "` listen must be an IP:port address")) .ok
    ensure (listener.port ≠ 0) ("pool `" ++ pool.key ++ "` listen port must be nonzero")
    ensure (listener ∉ seenListeners) ("pool `" ++ pool.key ++ "` duplicates a native listener")
    validatePools host pools (pool.key :: seenKeys) (listener :: seenListeners)

/-- Checks a configuration. -/
def WorkerConfig.validate (host : Host) (config : WorkerConfig) : Except String Unit := do
  ensure (trim config.name ≠ "") "worker name must not be empty"
  ensure (config.pools ≠ []) "worker config must declare at least one pool"
  validatePools host config.pools [] []
  checkDeviceOverlap config.pools
  ensureStateDir host config.stateDir

end Gpq
