import Gpq.Lib.Lines
import Gpq.Lib.Utf8
import Gpq.Remote.Listing
import Gpq.Remote.Submit
import Gpq.Worker.Text

/-!
# The events of an inference

The inference child writes the events of a job as JSON, each on a line of its response
(`eventStream`); the Worker reads the response as it arrives (`NativeBackend.execute`), passes
progress and outputs on, and ends with the first terminal event.

JSON text is written and read outside the repository, so it is a parameter (`NativeJson`), as is
what the file system says of a path. A path is its text.
-/

namespace Gpq

/-! ## Outputs -/

/-- What an output is. -/
inductive OutputKind
  | image
  | video
  deriving DecidableEq

/-- A generated file. -/
structure NativeOutput where
  path : String
  mimeType : String
  kind : OutputKind
  width : UInt32
  height : UInt32
  frames : Option UInt32
  /-- A 64-bit float, as its bit pattern. -/
  durationSeconds : Option (BitVec 64)
  deriving DecidableEq

/-- What the file system says of paths: the components of the canonical one, and whether it is a
    regular file. -/
structure FileSystem where
  canonicalize : String → Except String (List String)
  isFile : List String → Bool

/-- Whether a 64-bit float is a number above zero. -/
def isPositive (bits : BitVec 64) : Bool := isFinite bits && !bits.msb && bits != 0

/-- Checks an output against the directory of its Attempt. -/
def validateOutput (fs : FileSystem) (output : NativeOutput) (outputDir : String) :
    Except String Unit := do
  let outputPath ← fs.canonicalize output.path
  let outputDir ← fs.canonicalize outputDir
  if ¬ outputDir <+: outputPath then throw "native output escaped its attempt directory"
  if ¬ fs.isFile outputPath then throw "native output is not a regular file"
  if ¬ (output.width > 0 ∧ output.height > 0) then throw "native output dimensions are invalid"
  if ¬ output.durationSeconds.all isFinite then throw "native output duration is invalid"
  let mediaMatches : Bool := match output.kind with
    | .image => output.mimeType = "image/png"
    | .video => output.mimeType = "video/webm" ∧ output.frames.any (· > 0) ∧
      output.durationSeconds.any isPositive
  if ¬ mediaMatches then throw "native output kind does not match media type or metadata"

/-! ## Events -/

/-- An event of a job, as the child writes it and the Worker reads it. -/
inductive NativeEvent
  | progress (fraction : F32)
  | output (output : NativeOutput)
  | complete
  | cancelled
  | error (kind message : String)
  deriving DecidableEq

/-- How a native generation fails. -/
inductive NativeFailure
  | invalidRequest (message : String)
  | outOfMemory (message : String)
  | cancelled (message : String)
  | nativeRuntime (message : String)
  | response (error : String)

/-- The last event of a generation that failed. -/
def NativeFailure.terminal : NativeFailure → NativeEvent
  | invalidRequest message => .error "invalid_input" message
  | outOfMemory message => .error "out_of_memory" message
  | cancelled _ => .cancelled
  | nativeRuntime message => .error "backend_crashed" message
  | response error => .error "backend_crashed" error

/-- The events of the outputs, up to the first one that is rejected. -/
def outputEvents (fs : FileSystem) (outputDir : String) : List NativeOutput → List NativeEvent
  | [] => [.complete]
  | output :: outputs =>
    match validateOutput fs output outputDir with
    | .error validation => [.error "internal" ("native output rejected: " ++ validation)]
    | .ok () => .output output :: outputEvents fs outputDir outputs

/-- One native generation: what it reports of its progress, how it ends, and whether it was
    cancelled before it began or before it ended. -/
structure NativeJob where
  outputDir : String
  cancelledBefore : Bool
  fractions : List F32
  result : Except NativeFailure (List NativeOutput)
  cancelledAfter : Bool

/-- The events of a job. -/
def executeBlocking (fs : FileSystem) (job : NativeJob) : List NativeEvent :=
  if job.cancelledBefore then [.cancelled]
  else (job.fractions.filter F32.isFinite).map .progress ++
    if job.cancelledAfter then [.cancelled]
    else match job.result with
      | .ok outputs => outputEvents fs job.outputDir outputs
      | .error failure => [failure.terminal]

/-- The JSON text of events. -/
class NativeJson where
  /-- The compact text of an event. -/
  write : NativeEvent → String
  read : String → Except String NativeEvent
  /-- Where some bytes are no text. -/
  utf8Error : Bytes → String

/-- The response of the child: each event on a line, with an empty line behind it. -/
def eventStream [NativeJson] (events : List NativeEvent) : Bytes :=
  events.flatMap fun event => Utf8.bytes ("data: " ++ NativeJson.write event ++ "\n\n")

/-! ## The Worker -/

/-- What the Worker passes on of a job. -/
inductive ExecutionEvent
  | progress (fraction : F32)
  | output (output : NativeOutput)
  deriving DecidableEq

/-- Why an execution failed. -/
structure BackendError where
  kind : FailureKind
  message : String
  retryHint : Bool
  deriving DecidableEq

/-- The failure that a terminal event names. -/
def parseFailureKind (value : String) : FailureKind :=
  if value = "invalid_input" then .invalidInput
  else if value = "model_unavailable" then .modelUnavailable
  else if value = "unsupported_capability" then .unsupportedCapability
  else if value = "execution_timed_out" then .executionTimedOut
  else if value = "out_of_memory" then .outOfMemory
  else if value = "backend_crashed" then .backendCrashed
  else if value = "transfer_failed" then .transferFailed
  else if value = "cancelled" then .cancelled
  else .internal

/-- A response that is none of a child. -/
def protocolError (message : String) : BackendError := ⟨.backendCrashed, message, true⟩

/-- Whether a 32-bit float is between zero and one. -/
def F32.inUnit (x : F32) : Bool := x = 0x80000000 || x.toNat ≤ 0x3f800000

/-- Whether a path is absolute. -/
def isAbsolute (path : String) : Bool := path.toList.head? = some '/'

namespace NativeBackend

/-- Takes an event: what was passed on goes along, and a terminal event ends the execution. -/
def takeEvent (sent : List ExecutionEvent) :
    NativeEvent → List ExecutionEvent × Option (Except BackendError Unit)
  | .progress fraction =>
    if ¬ F32.isFinite fraction ∨ ¬ F32.inUnit fraction then
      (sent, some (.error (protocolError "native progress fraction is out of range")))
    else (sent ++ [.progress fraction], none)
  | .output output =>
    if ¬ isAbsolute output.path then (sent,
      some (.error (protocolError "native output path is not absolute")))
    else (sent ++ [.output output], none)
  | .complete => (sent, some (.ok ()))
  | .cancelled => (sent,
    some (.error ⟨.cancelled, "native inference acknowledged cancellation", false⟩))
  | .error kind message => (sent, some (.error ⟨parseFailureKind kind, message, false⟩))

variable [NativeJson]

/-- Takes a line of the response. Only one with data holds an event. -/
def takeLine (sent : List ExecutionEvent) (line : Bytes) :
    List ExecutionEvent × Option (Except BackendError Unit) :=
  match Utf8.decode line with
  | none => (sent, some (.error (protocolError ("invalid SSE UTF-8: " ++ NativeJson.utf8Error line))))
  | some line =>
    match (stripPrefix "data:" (trim line)).map trim with
    | none => (sent, none)
    | some data =>
      match NativeJson.read data with
      | .error error => (sent, some (.error (protocolError ("invalid native event: " ++ error))))
      | .ok event => takeEvent sent event

/-- Reads the rest of a response, chunk by chunk: what was passed on, and the outcome. -/
def readEvents : List ExecutionEvent → Bytes → List (Except BackendError Bytes) →
    List ExecutionEvent × Except BackendError Unit
  | sent, _, [] => (sent,
    .error ⟨.backendCrashed, "native event stream ended without a terminal event", true⟩)
  | sent, _, .error error :: _ => (sent, .error error)
  | sent, pending, .ok chunk :: chunks =>
    match Lines.drain 10 takeLine sent (pending ++ chunk) with
    | (sent, .inl pending) => readEvents sent pending chunks
    | (sent, .inr outcome) => (sent, outcome)

/-- Reads the response to an execution. -/
def execute (response : List (Except BackendError Bytes)) :
    List ExecutionEvent × Except BackendError Unit :=
  readEvents [] [] response

end NativeBackend

end Gpq
