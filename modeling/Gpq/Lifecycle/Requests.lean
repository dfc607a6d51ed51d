import Gpq.Lib.Machine
import Gpq.Worker.Request

/-!
# Requests arrive in pieces

A connection delivers a request in segments, and a read takes a part of one. The reader goes round
its loops (`RequestReading.Reaches`) until the reading ended.

* `RequestReading.run_head`: where the head is within its limit and the body has the announced
  length, the outcome is that of the whole, however it was cut.
* `Bounded.next`: of no stream are more bytes buffered than the limits admit.
-/

namespace Gpq

namespace TcpStream

variable {stream rest : TcpStream} {chunk : ℕ} {bytes : Bytes}

/-- Every segment brings something. -/
def Flowing (stream : TcpStream) : Prop := ∀ segment ∈ stream.segments, segment ≠ []

instance (stream : TcpStream) : Decidable stream.Flowing :=
  inferInstanceAs (Decidable (∀ segment ∈ stream.segments, segment ≠ []))

/-- While something arrives yet, a read takes some of it. -/
theorem Flowing.read (hflowing : stream.Flowing) (hbytes : stream.bytes ≠ []) (hchunk : 0 < chunk) :
    ∃ bytes rest, stream.read chunk = (.ok bytes, rest) ∧ 0 < bytes.length ∧
      bytes ++ rest.bytes = stream.bytes ∧
      rest.Flowing := by
  rcases stream with ⟨_ | ⟨segment, segments⟩, failure⟩
  · exact absurd rfl hbytes
  · obtain ⟨err, hread⟩ | ⟨bytes, rest, hread, -, hsplit⟩ :=
      read_cases ⟨segment :: segments, failure⟩ chunk
    · cases hread
    · refine ⟨bytes, rest, hread, ?_, hsplit, ?_⟩
      · cases hread
        have hsegment := List.length_pos_iff.2 (hflowing segment List.mem_cons_self)
        rw [List.length_take]
        omega
      · cases hread
        intro segment' hsegment'
        dsimp only at hsegment'
        split at hsegment'
        · exact hflowing segment' (List.mem_cons_of_mem _ hsegment')
        · rename_i hlong
          rcases List.mem_cons.1 hsegment' with rfl | hsegment'
          · exact List.drop_eq_nil_iff.not.2 hlong
          · exact hflowing segment' (List.mem_cons_of_mem _ hsegment')

end TcpStream

/-! ## However it was cut -/

namespace RequestReading

variable {stream : TcpStream} {parsed : RequestHead} {bytes received : Bytes}

/-- What a read took is taken into the buffer. -/
theorem receive_of_read {closed : String} {append : Bytes → RequestReading} {chunk : ℕ}
    {rest : TcpStream} (hread : stream.read chunk = (.ok bytes, rest)) (hbytes : 0 < bytes.length) :
    receive closed append (stream.read chunk) = (append bytes, rest) := by
  rw [hread, receive, if_pos hbytes]

/-- The announced body is read to its end. -/
theorem run_body (hflowing : stream.Flowing)
    (hlength : received.length + stream.bytes.length = parsed.contentLength) :
    (body parsed received).run stream =
      .ok ⟨parsed.method, parsed.target, parsed.headers, received ++ stream.bytes⟩ := by
  induction hsize : stream.bytes.length using Nat.strong_induction_on generalizing stream
      received with
  | _ size ih =>
    rw [run, next]
    by_cases hshort : received.length < parsed.contentLength
    · have hbytes : stream.bytes ≠ [] := List.length_pos_iff.1 (by omega)
      have hchunk : 0 < min (parsed.contentLength - received.length) BODY_CHUNK :=
        Nat.lt_min.2 ⟨Nat.sub_pos_of_lt hshort, by decide⟩
      obtain ⟨bytes, rest, hread, hpos, hsplit, hrest⟩ := hflowing.read hbytes hchunk
      have hparts := congrArg List.length hsplit
      rw [List.length_append] at hparts
      rw [if_pos hshort, receive_of_read hread hpos]
      dsimp only
      rw [ih rest.bytes.length (by omega) hrest (by rw [List.length_append]; omega) rfl,
        List.append_assoc, hsplit]
    · have hbytes : stream.bytes = [] := List.length_eq_zero_iff.1 (by omega)
      rw [if_neg hshort, run, hbytes, List.append_nil]

/-- A head within its limit is read to its end, and the announced body behind it. -/
theorem run_head {whole : Bytes} {index : ℕ} (hflowing : stream.Flowing)
    (hwhole : bytes ++ stream.bytes = whole)
    (hposition : Search.position headTerminator whole = some index)
    (hlimit : index + 4 ≤ MAX_HEADER_BYTES) (hparse : parseHead (whole.take index) = .ok parsed)
    (hbody : parsed.contentLength ≤ MAX_REQUEST_BYTES)
    (hlength : (whole.drop (index + 4)).length = parsed.contentLength) :
    (head bytes).run stream =
      .ok ⟨parsed.method, parsed.target, parsed.headers, whole.drop (index + 4)⟩ := by
  have hpattern : headTerminator ≠ [] := by decide
  induction hsize : stream.bytes.length using Nat.strong_induction_on generalizing stream bytes with
  | _ size ih =>
    have hpre : bytes <+: whole := ⟨stream.bytes, hwhole⟩
    rw [run, next]
    by_cases hcomplete : index + 4 ≤ bytes.length
    · have hfound := Search.position_eq_some_of_extends hpattern hpre hposition hcomplete
      have hdrop : whole.drop (index + 4) = bytes.drop (index + 4) ++ stream.bytes := by
        rw [← hwhole, List.drop_append_of_le_length hcomplete]
      have htake : takeHead bytes (index + 4) = .ok (body parsed (bytes.drop (index + 4))) := by
        refine takeHead_eq_ok_iff.2 ⟨parsed, ?_, hbody, ?_, rfl⟩
        · rw [← hparse, ← hwhole, Nat.add_sub_cancel, List.take_append_of_le_length (by omega)]
        · rw [← hlength, hdrop, List.length_append]
          exact Nat.le_add_right _ _
      rw [hfound]
      dsimp only
      rw [htake]
      dsimp only
      rw [hdrop, List.length_append] at hlength
      rw [run_body hflowing hlength, hdrop]
    · have hmissing :=
        Search.position_eq_none_of_extends hpattern hpre hposition (Nat.lt_of_not_le hcomplete)
      have hshort : bytes.length < MAX_HEADER_BYTES := by omega
      have hend := Search.position_add_length_le hpattern hposition
      have hparts := congrArg List.length hwhole
      rw [List.length_append] at hparts
      have hfour : headTerminator.length = 4 := rfl
      have hbytes : stream.bytes ≠ [] := List.length_pos_iff.1 (by omega)
      obtain ⟨taken, rest, hread, hpos, hsplit, hrest⟩ :=
        hflowing.read hbytes (by decide : 0 < HEADER_CHUNK)
      have hpieces := congrArg List.length hsplit
      rw [List.length_append] at hpieces
      rw [hmissing]
      dsimp only
      rw [if_pos hshort, receive_of_read hread hpos]
      dsimp only
      exact ih rest.bytes.length (by omega) hrest (by rw [List.append_assoc, hsplit, hwhole]) rfl

/-! ## Bounds -/

/-- The reader comes to a state of the reading of a stream. -/
def Reaches (stream : TcpStream) : RequestReading × TcpStream → Prop :=
  Machine.Reachable (· = (head [], stream)) fun x y => y = x.1.next x.2

/-- What the reader holds is within the limits. -/
def Bounded : RequestReading → Prop
  | head bytes => bytes.length < MAX_HEADER_BYTES + HEADER_CHUNK
  | body parsed received => received.length ≤ parsed.contentLength ∧
    parsed.contentLength ≤ MAX_REQUEST_BYTES
  | ended (.ok request) => request.body.length ≤ MAX_REQUEST_BYTES
  | ended (.error _) => True

/-- The bytes begin with a head within its limit. -/
structure IsHead (whole : Bytes) (index : ℕ) (parsed : RequestHead) : Prop where
  position : Search.position headTerminator whole = some index
  limit : index + 4 < MAX_HEADER_BYTES + HEADER_CHUNK
  parse : parseHead (whole.take index) = .ok parsed
  body : parsed.contentLength ≤ MAX_REQUEST_BYTES

/-- What the reader holds is of the stream, within the limits, and what it read was that. -/
def Follows (whole : Bytes) : RequestReading × TcpStream → Prop
  | (head bytes, rest) => bytes ++ rest.bytes = whole ∧ bytes.length < MAX_HEADER_BYTES + HEADER_CHUNK
  | (body parsed received, rest) => ∃ index, IsHead whole index parsed ∧
      received ++ rest.bytes = whole.drop (index + 4) ∧ received.length ≤ parsed.contentLength
  | (ended (.ok request), _) => ∃ index parsed, IsHead whole index parsed ∧
      request.body <+: whole.drop (index + 4) ∧ request.body.length = parsed.contentLength
  | (ended (.error _), _) => True

/-- What a read took is followed, where the buffer may take it. -/
theorem receive_follows {closed : String} {append : Bytes → RequestReading} {chunk : ℕ}
    {whole : Bytes}
    (happend : ∀ bytes rest, bytes.length ≤ chunk → bytes ++ rest.bytes = stream.bytes →
      Follows whole (append bytes, rest)) : Follows whole
      (receive closed append (stream.read chunk)) := by
  rcases stream.read_cases chunk with ⟨err, hread⟩ | ⟨bytes, rest, hread, hchunk, hsplit⟩
  · rw [hread]
    trivial
  · rw [hread, receive]
    split
    · exact happend bytes rest hchunk hsplit
    · trivial

/-- A round follows the stream. -/
theorem next_follows {reading : RequestReading} {whole : Bytes}
    (h : Follows whole (reading, stream)) :
    Follows whole (reading.next stream) := by
  have hpattern : headTerminator ≠ [] := by decide
  rcases reading with bytes | ⟨parsed, received⟩ | result
  · obtain ⟨hwhole, hlimit⟩ := h
    have hpre : bytes <+: whole := ⟨stream.bytes, hwhole⟩
    rw [next]
    split
    · rename_i index hindex
      have hend : index + 4 ≤ bytes.length := Search.position_add_length_le hpattern hindex
      split
      · rename_i htake
        obtain ⟨parsed, hparse, hbody, hlength, rfl⟩ := takeHead_eq_ok_iff.1 htake
        rw [Nat.add_sub_cancel] at hparse
        refine ⟨index, ⟨Search.position_of_extends hpattern hpre hindex, by omega, ?_, hbody⟩, ?_,
          hlength⟩
        · rw [← hwhole, List.take_append_of_le_length (by omega), hparse]
        · rw [← hwhole, List.drop_append_of_le_length hend]
      · trivial
    · split
      · refine receive_follows fun taken rest hchunk hsplit => ⟨?_, ?_⟩
        · rw [List.append_assoc, hsplit, hwhole]
        · rw [List.length_append]
          omega
      · trivial
  · obtain ⟨index, hhead, hsplit, hlength⟩ := h
    rw [next]
    split
    · rename_i hshort
      refine receive_follows fun taken rest hchunk hrest => ⟨index, hhead, ?_, ?_⟩
      · rw [List.append_assoc, hrest, hsplit]
      · rw [List.length_append]
        omega
    · rename_i hfull
      exact ⟨index, parsed, hhead, ⟨stream.bytes, hsplit⟩,
        Nat.le_antisymm hlength (Nat.le_of_not_lt hfull)⟩
  · exact h

/-- In every state, what the reader holds is of the stream and within the limits. -/
theorem follows_of_reaches {x : RequestReading × TcpStream} (h : Reaches stream x) :
    Follows stream.bytes x := by
  refine h.invariant (I := Follows stream.bytes) ?_ ?_
  · rintro _ rfl
    exact ⟨rfl, by decide⟩
  · rintro s _ - hs rfl
    exact next_follows hs

/-- What follows a stream is within the limits. -/
theorem Follows.bounded {reading : RequestReading} {rest : TcpStream} {whole : Bytes}
    (h : Follows whole (reading, rest)) : reading.Bounded := by
  rcases reading with bytes | ⟨parsed, received⟩ | err | request
  · exact h.2
  · obtain ⟨index, hhead, -, hlength⟩ := h
    exact ⟨hlength, hhead.body⟩
  · trivial
  · obtain ⟨index, parsed, hhead, -, hlength⟩ := h
    exact hlength.trans_le hhead.body

/-- The reader comes to its outcome. -/
theorem reaches_run {reading : RequestReading} {rest : TcpStream}
    (h : Reaches stream (reading, rest)) :
    ∃ rest', Reaches stream (ended (reading.run rest), rest') := by
  induction reading, rest using run.induct with
  | case1 result rest =>
    rw [run]
    exact ⟨rest, h⟩
  | case2 rest bytes ih =>
    rw [run]
    exact ih (.step h rfl)
  | case3 rest parsed received ih =>
    rw [run]
    exact ih (.step h rfl)

end RequestReading

end Gpq
