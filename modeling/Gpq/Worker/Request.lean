import Mathlib.Data.Finmap
import Gpq.Lib.Search
import Gpq.Lib.Traverse
import Gpq.Lib.Utf8
import Gpq.Remote.Submit
import Gpq.Worker.Text

/-!
# Requests of the inference child

The child reads an HTTP request from a connection (`readRequest`): what arrives is appended to a
buffer until it holds the end of the head, the head is parsed, and then as many bytes are read as
the head announces. A read takes what is there, and no more than the reader's chunk holds.
-/

namespace Gpq

/-- The most bytes of a head. -/
def MAX_HEADER_BYTES : ℕ := 16 * 1024
/-- The most bytes of a request. -/
def MAX_REQUEST_BYTES : ℕ := 16 * 1024 * 1024

/-- The bytes that one read of the head takes at most. -/
def HEADER_CHUNK : ℕ := 2048

/-- The bytes that one read of the body takes at most. -/
def BODY_CHUNK : ℕ := 8192

/-- Why no request was read. -/
inductive RequestError
  | io (err : String)
  | utf8
  | parseInt (err : String)
  | failed (message : String)
  deriving DecidableEq

/-! ## The connection -/

/-- What arrives at a connection, one segment after the other, and whether the connection then
    fails; otherwise it is closed. -/
structure TcpStream where
  segments : List Bytes
  failure : Option String := none

namespace TcpStream

/-- All that arrives. -/
def bytes (stream : TcpStream) : Bytes := stream.segments.flatten

/-- Takes some of what arrived first; nothing of a closed connection. -/
def read (stream : TcpStream) (chunk : ℕ) : Except RequestError Bytes × TcpStream :=
  match stream.segments, stream.failure with
  | [], none => (.ok [], stream)
  | [], some err => (.error (.io err), stream)
  | segment :: segments, _ =>
    (.ok (segment.take chunk),
      { stream with segments := if segment.length ≤ chunk then segments
        else segment.drop chunk :: segments })

end TcpStream

/-! ## The head -/

/-- Header fields, by name. -/
abbrev Headers := Finmap fun _ : String => String

/-- What the head of a request says. -/
structure RequestHead where
  method : String
  target : String
  headers : Headers
  contentLength : ℕ

/-- A request that was read. -/
structure HttpRequest where
  method : String
  target : String
  headers : Headers
  body : Bytes

/-- The end of the head. -/
def headTerminator : Bytes := [13, 10, 13, 10]

/-- The lines of a text. -/
def splitLines : List Char → List (List Char)
  | [] => [[]]
  | '\r' :: '\n' :: text => [] :: splitLines text
  | c :: text =>
    match splitLines text with
    | [] => [[c]]
    | line :: lines => (c :: line) :: lines

/-- The words of a line. -/
def splitWhitespace (line : List Char) : List (List Char) :=
  (line.splitOnP isWhiteSpace).filter (· ≠ [])

/-- Takes a header: into the others, and for the length of the body. -/
def readHeader (read : Headers × ℕ) (line : List Char) : Except RequestError (Headers × ℕ) := do
  let (name, value) ← (splitOnce ':' line).elim (.error (.failed "malformed HTTP header")) .ok
  let name := (trim (String.ofList name)).toLower
  let value := trim (String.ofList value)
  let contentLength ← if name = "content-length"
    then (parseUnsigned 64 value.toList).mapError .parseInt
    else .ok read.2
  if name = "transfer-encoding" then throw (.failed "chunked HTTP request bodies are unsupported")
  return (read.1.insert name value, contentLength)

/-- Reads the head. -/
def parseHead (bytes : Bytes) : Except RequestError RequestHead := do
  let header ← (Utf8.decode bytes).elim (.error .utf8) .ok
  match splitLines header.toList with
  | [] => throw (.failed "missing HTTP request line")
  | first :: lines =>
    match splitWhitespace first with
    | [] => throw (.failed "missing HTTP method")
    | [_] => throw (.failed "missing HTTP target")
    | [_, _] => throw (.failed "malformed HTTP request line")
    | method :: target :: _ =>
      let (headers, contentLength) ← lines.foldlM readHeader (∅, 0)
      return { method := String.ofList method, target :=
        String.ofList target, headers, contentLength }

/-! ## The reader -/

/-- How far a request was read: the buffer, before the head is complete, or the head and what
    there is of the body. -/
inductive RequestReading
  | head (bytes : Bytes)
  | body (head : RequestHead) (body : Bytes)
  | ended (result : Except RequestError HttpRequest)

namespace RequestReading

/-- The head is complete. -/
def takeHead (bytes : Bytes) (headerEnd : ℕ) : Except RequestError RequestReading := do
  let parsed ← parseHead (bytes.take (headerEnd - 4))
  if ¬ parsed.contentLength ≤ MAX_REQUEST_BYTES then throw (.failed "HTTP request body exceeds limit")
  let received := bytes.drop headerEnd
  if ¬ received.length ≤ parsed.contentLength then throw (.failed "invalid HTTP request framing")
  return .body parsed received

/-- What a read took is appended to the buffer. -/
def receive (closed : String) (append : Bytes → RequestReading) :
    Except RequestError Bytes × TcpStream → RequestReading × TcpStream
  | (.error err, stream) => (ended (.error err), stream)
  | (.ok chunk, stream) =>
    if chunk.length > 0 then (append chunk, stream) else (ended (.error (.failed closed)), stream)

/-- One round of the reader's loops. -/
def next : RequestReading → TcpStream → RequestReading × TcpStream
  | head bytes, stream =>
    match Search.position headTerminator bytes with
    | some index =>
      match takeHead bytes (index + 4) with
      | .ok reading => (reading, stream)
      | .error err => (ended (.error err), stream)
    | none =>
      if bytes.length < MAX_HEADER_BYTES then
        receive "connection closed before HTTP headers" (fun chunk => head (bytes ++ chunk))
          (stream.read HEADER_CHUNK)
      else (ended (.error (.failed "HTTP headers exceed limit")), stream)
  | body parsed received, stream =>
    if received.length < parsed.contentLength then
      receive "connection closed before HTTP request body completed"
        (fun chunk => body parsed (received ++ chunk))
        (stream.read (min (parsed.contentLength - received.length) BODY_CHUNK))
    else (ended (.ok ⟨parsed.method, parsed.target, parsed.headers, received⟩), stream)
  | ended result, stream => (ended result, stream)

/-- How many of the reader's loops are ahead. -/
def ahead : RequestReading → ℕ
  | head _ => 2
  | body _ _ => 1
  | ended _ => 0

end RequestReading

/-- A read fails, or it splits what arrives. -/
theorem TcpStream.read_cases (stream : TcpStream) (chunk : ℕ) :
    (∃ err, stream.read chunk = (.error err, stream)) ∨
    ∃ bytes rest, stream.read chunk = (.ok bytes, rest) ∧ bytes.length ≤ chunk ∧
      bytes ++ rest.bytes = stream.bytes := by
  rw [TcpStream.read]
  split
  · exact .inr ⟨[], stream, rfl, chunk.zero_le, rfl⟩
  · exact .inl ⟨_, rfl⟩
  · rename_i hsegments
    refine .inr ⟨_, _, rfl, List.length_take_le chunk _, ?_⟩
    rw [TcpStream.bytes, TcpStream.bytes, hsegments, List.flatten_cons]
    split
    · rename_i hlength
      rw [List.take_of_length_le hlength]
    · rw [List.flatten_cons, ← List.append_assoc, List.take_append_drop]

namespace RequestReading

variable {reading reading' : RequestReading} {stream stream' : TcpStream}

/-- What is read is read no more. -/
theorem receive_ahead {closed : String} {append : Bytes → RequestReading} {chunk : ℕ}
    (h : receive closed append (stream.read chunk) = (reading', stream')) (hahead : 0 < reading.ahead)
    (happend : ∀ bytes, (append bytes).ahead = reading.ahead) :
    stream'.bytes.length + reading'.ahead < stream.bytes.length + reading.ahead := by
  rcases stream.read_cases chunk with ⟨err, hread⟩ | ⟨bytes, rest, hread, -, hbytes⟩
  · rw [hread, receive] at h
    cases h
    exact Nat.add_lt_add_left hahead _
  · have hlength := congrArg List.length hbytes
    rw [List.length_append] at hlength
    rw [hread, receive] at h
    split at h
    · cases h
      rw [happend]
      omega
    · cases h
      have hended : (ended (.error (.failed closed))).ahead = 0 := rfl
      omega

/-- A complete head within the limits leaves the body to be read. -/
theorem takeHead_eq_ok_iff {bytes : Bytes} {headerEnd : ℕ} : takeHead bytes headerEnd = .ok reading ↔
    ∃ parsed, parseHead (bytes.take (headerEnd - 4)) = .ok parsed ∧
      parsed.contentLength ≤ MAX_REQUEST_BYTES ∧
      (bytes.drop headerEnd).length ≤ parsed.contentLength ∧
      reading = body parsed (bytes.drop headerEnd) := by
  rw [takeHead, Traverse.bind_eq_ok_iff]
  refine exists_congr fun parsed => and_congr_right fun _ => ?_
  by_cases hlimit : parsed.contentLength ≤ MAX_REQUEST_BYTES
  · by_cases hframing : (bytes.drop headerEnd).length ≤ parsed.contentLength
    · rw [if_neg (not_not_intro hlimit), if_neg (not_not_intro hframing)]
      exact ⟨fun h => ⟨hlimit, hframing, (Except.ok.inj h).symm⟩,
        fun h => congrArg Except.ok h.2.2.symm⟩
    · rw [if_neg (not_not_intro hlimit), if_pos hframing]
      exact ⟨nofun, fun h => absurd h.2.1 hframing⟩
  · rw [if_pos hlimit]
    exact ⟨nofun, fun h => absurd h.1 hlimit⟩

/-- A round is a step towards the end: something was read, or a loop was left. -/
theorem next_ahead (h : reading.next stream = (reading', stream')) (hahead : 0 < reading.ahead) :
    stream'.bytes.length + reading'.ahead < stream.bytes.length + reading.ahead := by
  rcases reading with bytes | ⟨parsed, received⟩ | result
  · rw [next] at h
    split at h
    · split at h
      · rename_i htake
        cases h
        obtain ⟨parsed, -, -, -, rfl⟩ := takeHead_eq_ok_iff.1 htake
        exact Nat.lt_succ_self _
      · cases h
        exact Nat.add_lt_add_left hahead _
    · split at h
      · exact receive_ahead h hahead fun _ => rfl
      · cases h
        exact Nat.add_lt_add_left hahead _
  · rw [next] at h
    split at h
    · exact receive_ahead h hahead fun _ => rfl
    · cases h
      exact Nat.add_lt_add_left hahead _
  · cases hahead

/-- Reads until the reading ended. -/
def run : RequestReading → TcpStream → Except RequestError HttpRequest
  | ended result, _ => result
  | head bytes, stream => run ((head bytes).next stream).1 ((head bytes).next stream).2
  | body parsed received,
    stream => run ((body parsed received).next stream).1 ((body parsed received).next stream).2
termination_by reading stream => stream.bytes.length + reading.ahead
decreasing_by
  · exact next_ahead rfl Nat.two_pos
  · exact next_ahead rfl Nat.one_pos

end RequestReading

/-- Reads a request. -/
def readRequest (stream : TcpStream) : Except RequestError HttpRequest :=
  RequestReading.run (.head []) stream

end Gpq
