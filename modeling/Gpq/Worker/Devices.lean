import Gpq.Worker.Config
import Gpq.Worker.Infer

/-!
# Native device assignments

The inference child resolves the selectors of its Pool to the devices that the native library
enumerates (`resolveDevice`), and hands the assignments over in the names of those devices
(`resolveRuntimeDeviceAssignments`). A Pool whose assignments are refused is not ready.

How a text is quoted in an error is a parameter.
-/

namespace Gpq

/-- A device that the native library enumerates. -/
structure BackendDevice where
  name : String
  description : String
  deriving DecidableEq

/-! ## Numbers -/

/-- The exponent that a number may have behind its digits. -/
def parseExponent : List Char → Option ℤ
  | [] => some 0
  | c :: text =>
    if c.toLower ≠ 'e' then none
    else
      let (negative, digits) := match text with
        | '-' :: digits => (true, digits)
        | '+' :: digits => (false, digits)
        | digits => (false, digits)
      if digits = [] ∨ ¬ digits.all Char.isDigit then none
      else some (if negative then -Nat.ofDigitChars 10 digits 0 else Nat.ofDigitChars 10 digits 0)

/-- Whether the 32-bit float that is nearest to a number is finite, if the text writes a number:
    the nearest float is infinite from half a unit beyond the largest one on. -/
def isFiniteNumber (text : List Char) : Option Bool :=
  let (whole, rest) := text.span Char.isDigit
  let (fraction, rest) := match rest with
    | '.' :: rest => rest.span Char.isDigit
    | rest => ([], rest)
  if whole = [] ∧ fraction = [] then none
  else (parseExponent rest).map fun (exponent : ℤ) =>
    let mantissa := Nat.ofDigitChars 10 (whole ++ fraction) 0
    let scale : ℤ := exponent - fraction.length
    mantissa * 10 ^ scale.toNat < (2 ^ 128 - 2 ^ 103) * 10 ^ (-scale).toNat

/-- Whether the 32-bit float that a text writes is finite, if it writes one. -/
def parseFiniteF32 (text : List Char) : Option Bool :=
  let unsigned := match text with
    | '-' :: rest => rest
    | '+' :: rest => rest
    | rest => rest
  if unsigned.map Char.toLower ∈ ["inf".toList, "infinity".toList, "nan".toList] then some false
  else isFiniteNumber unsigned

section Assignments

variable (quote : String → String)

/-- The enumerated device of a name, in any case. -/
def findDevice (devices : List BackendDevice) (name : String) : Option String :=
  (devices.find? fun device => eqIgnoreAsciiCase device.name name).map BackendDevice.name

/-- The name by which another one is known to the native library. -/
def deviceAlias (requested : String) : Option String :=
  if eqIgnoreAsciiCase requested "metal" || eqIgnoreAsciiCase requested "metal0" then some "MTL0"
  else if eqIgnoreAsciiCase requested "vulkan" then some "vulkan0"
  else if eqIgnoreAsciiCase requested "cuda" then some "cuda0"
  else none

/-- The enumerated device that a selector names. -/
def resolveDevice (requested : String) (devices : List BackendDevice) :
    Except InferenceError String :=
  if requested = "" ∨ '&' ∈ requested.toList then
    .error (.invalidRequest ("selected native device " ++ quote requested ++ " is invalid"))
  else match findDevice devices requested with
    | some device => .ok device
    | none => ((deviceAlias requested).bind (findDevice devices)).elim
        (.error (.invalidRequest
          ("selected native device " ++ quote requested ++ " is unavailable"))) .ok

/-- A module that the native library knows. -/
def validateModuleBackend (module : String) : Except InferenceError Unit :=
  if module ∈ nativeModules then .ok ()
  else .error (.invalidRequest ("unsupported native module backend selector: " ++ module))

/-- Appends the device of a module. -/
def assignModule (devices : List BackendDevice) (assignment : String) (entry : Σ _ : String, String) :
    Except InferenceError String := do
  validateModuleBackend entry.1
  let device ← resolveDevice quote entry.2 devices
  return assignment ++ "," ++ entry.1 ++ "=" ++ device

/-- The device of the pool, and those of modules that have another. -/
def backendAssignment (backend : String) (moduleBackends : AList fun _ : String => String)
    (devices : List BackendDevice) : Except InferenceError String := do
  let default ← resolveDevice quote backend devices
  if moduleBackends.entries.isEmpty then return default
  else moduleBackends.entries.foldlM (assignModule quote devices) ("all=" ++ default)

/-- The assignment of one item, in the names of the devices. -/
def normalizeParams (devices : List BackendDevice)
    (item : String) : Except InferenceError String := do
  let (module, device) := (splitAssignment item).getD ("", item)
  Traverse.ensure (module = "" ∨ module ∈ paramsModules)
    (.invalidRequest ("unsupported params_backend module selector: " ++ module))
  let device ← if device = "disk" then .ok "disk" else resolveDevice quote device devices
  return if module = "" then device else module ++ "=" ++ device

/-- The devices that parameters are kept on, in the names of the native library. -/
def validateParamsBackend (assignment : String) (devices : List BackendDevice) :
    Except InferenceError String := do
  Traverse.ensure (trim assignment ≠ "") (.invalidRequest "params_backend cannot be empty")
  let normalized ← (splitChar ',' assignment).mapM (normalizeParams quote devices)
  return ",".intercalate normalized

/-- The assignments of the items, in the names of the devices, of which each may be assigned once. -/
def normalizeVram (devices : List BackendDevice) :
    List String → List String → Except InferenceError (List String)
  | [], _ => .ok []
  | item :: items, selected => do
    let (device, amount) ← (splitAssignment item).elim
      (.error (.invalidRequest "max_vram entries must use device=GiB form")) .ok
    let device ← resolveDevice quote device devices
    Traverse.ensure (device ∉ selected)
      (.invalidRequest "max_vram cannot assign a device more than once")
    let finite ← (parseFiniteF32 amount.toList).elim
      (.error (.invalidRequest "max_vram GiB value is invalid")) .ok
    Traverse.ensure (finite = true) (.invalidRequest "max_vram GiB values must be finite")
    let normalized ← normalizeVram devices items (device :: selected)
    return (device ++ "=" ++ amount) :: normalized

/-- A budget, or budgets by device, in the names of the native library. -/
def validateMaxVram (assignment : String) (devices : List BackendDevice) :
    Except InferenceError String := do
  Traverse.ensure (trim assignment ≠ "") (.invalidRequest "max_vram cannot be empty")
  if '=' ∉ assignment.toList then
    if isPositiveU32 assignment then return assignment
    else throw (.invalidRequest "max_vram scalar GiB value must be a positive integer")
  else
    let normalized ← normalizeVram quote devices (splitChar ',' assignment) []
    return ",".intercalate normalized

/-- The assignments that the native library is given. -/
structure RuntimeDeviceAssignments where
  backend : String
  paramsBackend : Option String
  maxVram : Option String

/-- All assignments, in the names of the native library. -/
def resolveRuntimeDeviceAssignments (backend : String)
    (moduleBackends : AList fun _ : String => String) (paramsBackend maxVram : Option String)
    (devices : List BackendDevice) :
    Except InferenceError RuntimeDeviceAssignments := do
  let backend ← backendAssignment quote backend moduleBackends devices
  let paramsBackend ← paramsBackend.mapM (validateParamsBackend quote · devices)
  let maxVram ← maxVram.mapM (validateMaxVram quote · devices)
  return { backend, paramsBackend, maxVram }

/-- Assignments that are resolved are valid. -/
def validateDeviceAssignments (backend : String) (moduleBackends : AList fun _ : String => String)
    (paramsBackend maxVram : Option String) (devices : List BackendDevice) :
    Except InferenceError Unit :=
  (resolveRuntimeDeviceAssignments quote backend moduleBackends paramsBackend maxVram devices).map
    fun _ => ()

end Assignments

end Gpq
