import Gpq.Lib.Traverse
import Gpq.Worker.Native

/-!
# Events on their way to the Worker

The Worker reads the events of a job as the child wrote them, however the response is cut into
chunks, except that it refuses an output whose path is not absolute, which the child does not
check, and that JSON does not keep every duration.

* `executeBlocking_emitted`: what a child writes;
* `consume_iff`: a response is read event by event;
* `execute_decodes_iff`: when the Worker reads what the child wrote;
* `job_passed_on_iff`: a job from end to end.
-/

namespace Gpq

open Lines

/-! ## The child -/

/-- An event that is not the last one: progress between zero and one, or an output that was
    checked. -/
inductive Interim : NativeEvent → Prop
  | progress {fraction : F32} : F32.inUnit fraction → Interim (.progress fraction)
  | output {output : NativeOutput} {fs : FileSystem} {outputDir : String} :
    validateOutput fs output outputDir = .ok () → Interim (.output output)

/-- An event that is the last one. -/
def NativeEvent.isTerminal : NativeEvent → Bool
  | complete | cancelled | error .. => true
  | progress _ | output _ => false

/-- The events of a child: so many, and the last one. -/
structure Emitted (events : List NativeEvent) (last : NativeEvent) : Prop where
  interim : ∀ event ∈ events, Interim event
  last : last.isTerminal

theorem Emitted.cons {event last : NativeEvent} {events : List NativeEvent} (hevent : Interim event)
    (h : Emitted events last) : Emitted (event :: events) last :=
  ⟨List.forall_mem_cons.2 ⟨hevent, h.interim⟩, h.last⟩

/-- Outputs are announced one by one, up to the first that is not valid. -/
theorem outputEvents_emitted (fs : FileSystem) (outputDir : String) (outputs : List NativeOutput) :
    ∃ events last, outputEvents fs outputDir outputs = events ++ [last] ∧ Emitted events last := by
  induction outputs with
  | nil => exact ⟨[], .complete, rfl, nofun, rfl⟩
  | cons output outputs ih =>
    rw [outputEvents]
    cases hvalid : validateOutput fs output outputDir with
    | error validation => exact ⟨[], _, rfl, nofun, rfl⟩
    | ok =>
      obtain ⟨events, last, hevents, hemitted⟩ := ih
      exact ⟨_, last, congrArg _ hevents, hemitted.cons (.output hvalid)⟩

/-- A child writes events that are not the last one, and a last one. -/
theorem executeBlocking_emitted {fs : FileSystem} {job : NativeJob}
    (hclamped : ∀ x ∈ job.fractions, F32.inUnit x) :
    ∃ events last, executeBlocking fs job = events ++ [last] ∧ Emitted events last := by
  rw [executeBlocking]
  split
  · exact ⟨[], .cancelled, rfl, nofun, rfl⟩
  have hprogress : ∀ event ∈ (job.fractions.filter F32.isFinite).map NativeEvent.progress,
      Interim event := by
    intro event hevent
    obtain ⟨x, hx, rfl⟩ := List.mem_map.1 hevent
    exact .progress (hclamped x (List.mem_of_mem_filter hx))
  have hpre {tail : List NativeEvent}
      (htail : ∃ events last, tail = events ++ [last] ∧ Emitted events last) :
      ∃ events last, (job.fractions.filter F32.isFinite).map NativeEvent.progress ++
        tail = events ++ [last] ∧
        Emitted events last := by
    obtain ⟨events, last, rfl, hemitted⟩ := htail
    exact ⟨_, last, (List.append_assoc ..).symm,
      fun event hevent => (List.mem_append.1 hevent).elim (hprogress event)
        (hemitted.interim event), hemitted.last⟩
  refine hpre ?_
  split
  · exact ⟨[], .cancelled, rfl, nofun, rfl⟩
  · split
    · exact outputEvents_emitted ..
    · rename_i failure _
      exact ⟨[], failure.terminal, rfl, nofun, by cases failure <;> rfl⟩

/-! ## A line of the response -/

/-- White space around a text is trimmed. -/
theorem trim_ofList {before middle after : List Char} {first last : Char}
    (hbefore : ∀ c ∈ before, isWhiteSpace c) (hfirst : ¬ isWhiteSpace first)
    (hlast : ¬ isWhiteSpace last)
    (hafter : ∀ c ∈ after, isWhiteSpace c) :
    trim (String.ofList (before ++ (first :: middle ++ [last]) ++ after)) =
      String.ofList (first :: middle ++ [last]) := by
  rw [trim, String.toList_ofList, List.append_assoc, List.dropWhile_append_of_pos hbefore]
  congr 1
  have hstart : (first :: middle ++ [last] ++ after).dropWhile isWhiteSpace = first :: middle ++
      [last] ++ after :=
    List.dropWhile_cons_of_neg hfirst
  have hend : ∀ c ∈ after.reverse, isWhiteSpace c := fun c hc => hafter c (List.mem_reverse.1 hc)
  rw [hstart, List.rdropWhile, List.reverse_append, List.dropWhile_append_of_pos hend,
    List.reverse_concat,
    List.dropWhile_cons_of_neg hlast, ← List.reverse_concat, List.reverse_reverse]

/-- What an event is after its text was read: a duration may be another one. -/
def NativeEvent.reread (duration : BitVec 64 → BitVec 64) : NativeEvent → NativeEvent
  | output o => .output { o with durationSeconds := o.durationSeconds.map duration }
  | event => event

/-- The numbers of an event are numbers. -/
def NativeEvent.Finite : NativeEvent → Prop
  | progress fraction => F32.isFinite fraction
  | output o => o.durationSeconds.all isFinite
  | _ => True

/-- The JSON text of an event is an object on one line, from which the event is read again; of a
    duration the nearest number is not always found. -/
structure NativeJson.Lawful [NativeJson] (duration : BitVec 64 → BitVec 64) (event : NativeEvent) :
    Prop where
  object : ∃ inner, (write event).toList = '\x7b' :: inner ++ ['\x7d']
  line : '\n' ∉ (write event).toList
  read : event.Finite → read (write event) = .ok (event.reread duration)

namespace NativeBackend

variable [NativeJson] {duration : BitVec 64 → BitVec 64} {sent : List ExecutionEvent}
    {event last : NativeEvent}
  {events : List NativeEvent}

/-- The line of an event. -/
def dataLine (event : NativeEvent) : Bytes := Utf8.bytes ("data: " ++ NativeJson.write event)

/-- An event is on one line. -/
theorem newline_not_mem_dataLine (hjson : NativeJson.Lawful duration event) :
    10 ∉ dataLine event := by
  intro hmem
  obtain ⟨c, hc, hnewline⟩ := Utf8.exists_of_mem_bytes (by decide) hmem
  obtain rfl : c = '\n' := Char.toNat_inj.1 hnewline
  rw [String.toList_append, List.mem_append] at hc
  rcases hc with hc | hc
  · exact absurd hc (by decide)
  · exact hjson.line hc

/-- The line of an event holds it. -/
theorem takeLine_dataLine (hjson : NativeJson.Lawful duration event) (hfinite : event.Finite) :
    takeLine sent (dataLine event ++ [10]) = takeEvent sent (event.reread duration) := by
  obtain ⟨inner, hinner⟩ := hjson.object
  have hline : "data: " ++ NativeJson.write event ++ "\n" = String.ofList
      ([] ++ ('d' :: (['a', 't', 'a', ':', ' '] ++ '\x7b' :: inner) ++ ['\x7d']) ++ ['\n']) := by
    rw [← String.toList_inj, String.toList_append, String.toList_append, hinner]
    simp only [String.toList_ofList, List.nil_append, List.cons_append, List.append_assoc]
    rfl
  have hdecode : Utf8.decode (dataLine event ++ [10]) =
      some ("data: " ++ NativeJson.write event ++ "\n") := by
    have hnewline : ([10] : Bytes) = Utf8.bytes "\n" := by decide
    rw [dataLine, hnewline, ← Utf8.bytes_append, Utf8.decode_bytes]
  have htrim : trim ("data: " ++ NativeJson.write event ++ "\n") =
      String.ofList ('d' :: (['a', 't', 'a', ':', ' '] ++ '\x7b' :: inner) ++ ['\x7d']) := by
    rw [hline]
    exact trim_ofList (List.forall_mem_nil _) (by decide) (by decide)
      (List.forall_mem_singleton.2 (by decide))
  have hdata :
      (stripPrefix "data:"
        (String.ofList ('d' :: (['a', 't', 'a', ':', ' '] ++ '\x7b' :: inner) ++ ['\x7d']))).map
      trim = some (NativeJson.write event) := by
    have hpre : ['d', 'a', 't', 'a', ':'] <+: 'd' ::
        (['a', 't', 'a', ':', ' '] ++ '\x7b' :: inner) ++ ['\x7d'] :=
      ⟨' ' :: '\x7b' :: inner ++ ['\x7d'], rfl⟩
    rw [stripPrefix, String.toList_ofList, String.toList_ofList, if_pos hpre, Option.map_some]
    have hrest : ('d' :: (['a', 't', 'a', ':', ' '] ++ '\x7b' :: inner) ++ ['\x7d']).drop
        ['d', 'a', 't', 'a', ':'].length =
        [' '] ++ ('\x7b' :: inner ++ ['\x7d']) ++ [] := by
      rw [List.append_nil]
      rfl
    rw [hrest, trim_ofList (List.forall_mem_singleton.2 (by decide)) (by decide) (by decide)
      (List.forall_mem_nil _), ← hinner, String.ofList_toList]
  rw [takeLine, hdecode]
  dsimp only
  rw [htrim, hdata]
  dsimp only
  rw [hjson.read hfinite]

/-- The empty line behind an event holds nothing. -/
theorem takeLine_empty : takeLine sent [10] = (sent, none) := by
  have hdecode : Utf8.decode [10] = some "\n" := Utf8.decode_bytes "\n"
  have hdata : (stripPrefix "data:" (trim "\n")).map trim = none := by decide
  rw [takeLine, hdecode]
  dsimp only
  rw [hdata]

/-! ## The whole response -/

/-- The lines of a response. -/
def eventLines (events : List NativeEvent) : List Bytes :=
  events.flatMap fun event => [dataLine event, []]

/-- The events of a child are lines: one for each, and an empty one behind it. -/
theorem eventStream_eq (events : List NativeEvent) :
    eventStream events = (eventLines events).flatMap (· ++ [10]) := by
  have hnewlines : ([] : Bytes) ++ [10] ++ [10] = Utf8.bytes "\n\n" := by decide
  rw [eventStream, eventLines, List.flatMap_assoc]
  congr 1
  funext event
  rw [Utf8.bytes_append, ← hnewlines, List.nil_append]
  simp only [dataLine, List.flatMap_cons, List.flatMap_nil, List.append_assoc, List.append_nil,
    List.nil_append]

/-- No line has another one in it. -/
theorem newline_not_mem_eventLines (hjson : ∀ event ∈ events, NativeJson.Lawful duration event) :
    ∀ line ∈ eventLines events, 10 ∉ line := by
  intro line hline
  obtain ⟨event, hevent, hmem⟩ := List.mem_flatMap.1 hline
  rcases List.mem_pair.1 hmem with rfl | rfl
  · exact newline_not_mem_dataLine (hjson event hevent)
  · exact List.not_mem_nil

/-- A response that arrives in chunks is read by its lines. -/
theorem readEvents_eq (pending : Bytes) (chunks : List Bytes) :
    readEvents sent pending (chunks.map .ok) =
      match chunks.foldl (feed 10 takeLine) (sent, .inl pending) with
      | (sent, .inl _) => (sent,
        .error ⟨.backendCrashed, "native event stream ended without a terminal event", true⟩)
      | (sent, .inr outcome) => (sent, outcome) := by
  induction chunks generalizing sent pending with
  | nil => rfl
  | cons chunk chunks ih =>
    rw [List.map_cons, readEvents, List.foldl_cons, feed]
    rcases drain 10 takeLine sent (pending ++ chunk) with ⟨sent', pending' | outcome⟩
    · exact ih pending'
    · dsimp only
      rw [foldl_feed_ended]

/-- The lines of an event. -/
theorem consume_event (hjson : NativeJson.Lawful duration event) (hfinite : event.Finite)
    (lines : List Bytes) :
    consume 10 takeLine sent (dataLine event :: [] :: lines) =
      match takeEvent sent (event.reread duration) with
      | (sent', none) => consume 10 takeLine sent' lines
      | (sent', some outcome) => (sent', .inr outcome) := by
  rw [consume, takeLine_dataLine hjson hfinite]
  rcases takeEvent sent (event.reread duration) with ⟨sent', _ | outcome⟩
  · dsimp only
    rw [consume, List.nil_append, takeLine_empty]
  · rfl

omit [NativeJson] in
/-- What was passed on stays. -/
theorem prefix_takeEvent : sent <+: (takeEvent sent event).1 := by
  cases event with
  | progress fraction =>
    rw [takeEvent]
    split
    · exact List.prefix_rfl
    · exact List.prefix_append ..
  | output output =>
    rw [takeEvent]
    split
    · exact List.prefix_rfl
    · exact List.prefix_append ..
  | complete => exact List.prefix_rfl
  | cancelled => exact List.prefix_rfl
  | error => exact List.prefix_rfl

end NativeBackend

/-- What the Worker passes on of an event. -/
def NativeEvent.forwarded : NativeEvent → Option ExecutionEvent
  | progress fraction => some (.progress fraction)
  | output o => some (.output o)
  | _ => none

/-- The outcome that a last event stands for. -/
def NativeEvent.outcome : NativeEvent → Except BackendError Unit
  | cancelled => .error ⟨.cancelled, "native inference acknowledged cancellation", false⟩
  | error kind message => .error ⟨parseFailureKind kind, message, false⟩
  | _ => .ok ()

/-- No outcome of a child hints at a retry. -/
theorem retryHint_outcome {last : NativeEvent} {error : BackendError}
    (h : last.outcome = .error error) :
    error.retryHint = false := by
  cases last with
  | progress => cases h
  | output => cases h
  | complete => cases h
  | cancelled => exact Except.error.inj h ▸ rfl
  | error kind message => exact Except.error.inj h ▸ rfl

/-- An output whose path is absolute, and whose duration is the one that is read of its text. -/
def NativeEvent.Kept (duration : BitVec 64 → BitVec 64) : NativeEvent → Prop
  | output o => isAbsolute o.path ∧ o.durationSeconds.map duration = o.durationSeconds
  | _ => True

/-- What lies between 0 and 1 is finite. -/
theorem F32.isFinite_of_inUnit {x : F32} (h : x.inUnit) : x.isFinite := by
  rw [inUnit, Bool.or_eq_true, decide_eq_true_eq, decide_eq_true_eq] at h
  rcases h with rfl | hle
  · rfl
  · have hsmall : x.toNat / 2 ^ 23 ≤ 127 := by omega
    rw [isFinite, bne_iff_ne]
    omega

/-- The numbers of a child's events are numbers. -/
theorem Interim.finite {event : NativeEvent} (h : Interim event) : event.Finite := by
  cases h with
  | progress hunit => exact F32.isFinite_of_inUnit hunit
  | @output o fs outputDir hvalid =>
    rw [validateOutput] at hvalid
    obtain ⟨outputPath, -, hvalid⟩ := Traverse.bind_eq_ok_iff.1 hvalid
    obtain ⟨outputDir, -, hvalid⟩ := Traverse.bind_eq_ok_iff.1 hvalid
    dsimp only at hvalid
    split at hvalid
    · cases hvalid
    split at hvalid
    · cases hvalid
    split at hvalid
    · cases hvalid
    split at hvalid
    · cases hvalid
    · rename_i hduration
      exact not_not.1 hduration

namespace NativeBackend

variable [NativeJson] {duration : BitVec 64 → BitVec 64} {sent : List ExecutionEvent}
    {event last : NativeEvent}
  {events : List NativeEvent}

omit [NativeJson] in
theorem takeEvent_progress {fraction : F32} (h : fraction.inUnit) :
    takeEvent sent (.progress fraction) = (sent ++ [.progress fraction], none) := by
  rw [takeEvent, if_neg]
  rw [not_or, not_not, not_not]
  exact ⟨F32.isFinite_of_inUnit h, h⟩

omit [NativeJson] in
theorem takeEvent_output {output : NativeOutput} (h : isAbsolute output.path) :
    takeEvent sent (.output output) = (sent ++ [.output output], none) := by
  rw [takeEvent, if_neg (not_not.2 h)]

omit [NativeJson] in
theorem takeEvent_relative {output : NativeOutput} (h : ¬ isAbsolute output.path) :
    takeEvent sent (.output output) =
      (sent, some (.error (protocolError "native output path is not absolute"))) := by
  rw [takeEvent, if_pos h]

omit [NativeJson] in
/-- The last event ends a job with its outcome. -/
theorem takeEvent_terminal (h : last.isTerminal) :
    takeEvent sent (last.reread duration) = (sent, some last.outcome) := by
  cases last with
  | progress => cases h
  | output => cases h
  | complete => rfl
  | cancelled => rfl
  | error => rfl

omit [NativeJson] in
/-- The last event has no numbers. -/
theorem finite_of_isTerminal (h : last.isTerminal) : last.Finite := by
  cases last with
  | progress => cases h
  | output => cases h
  | complete => exact trivial
  | cancelled => exact trivial
  | error => exact trivial

/-- What was passed on stays, whatever lines follow. -/
theorem prefix_consume (lines : List Bytes) : sent <+: (consume 10 takeLine sent lines).1 := by
  induction lines generalizing sent with
  | nil => exact List.prefix_rfl
  | cons line lines ih =>
    have htaken : sent <+: (takeLine sent (line ++ [10])).1 := by
      rw [takeLine]
      split
      · exact List.prefix_rfl
      split
      · exact List.prefix_rfl
      split
      · exact List.prefix_rfl
      · exact prefix_takeEvent
    rw [consume]
    generalize takeLine sent (line ++ [10]) = taken at htaken
    rcases taken with ⟨sent', _ | outcome⟩
    · exact htaken.trans ih
    · exact htaken

/-- The Worker reads the events of a child exactly if all its outputs are kept. -/
theorem consume_iff (hjson : ∀ event ∈ events ++ [last], NativeJson.Lawful duration event)
    (h : Emitted events last) :
    consume 10 takeLine sent (eventLines (events ++ [last])) =
        (sent ++ events.filterMap NativeEvent.forwarded, .inr last.outcome) ↔
      ∀ event ∈ events, event.Kept duration := by
  induction events generalizing sent with
  | nil =>
    refine iff_of_true ?_ (List.forall_mem_nil _)
    rw [List.nil_append, eventLines, List.flatMap_singleton,
      consume_event (hjson last List.mem_cons_self) (finite_of_isTerminal h.last),
      takeEvent_terminal h.last, List.filterMap_nil, List.append_nil]
  | cons event events ih =>
    obtain ⟨hinterim, hrest⟩ := List.forall_mem_cons.1 h.interim
    obtain ⟨hfirst, hlater⟩ := List.forall_mem_cons.1 hjson
    have hlines : eventLines (event :: events ++ [last]) =
        dataLine event :: [] :: eventLines (events ++ [last]) := rfl
    rw [hlines, consume_event hfirst hinterim.finite, List.forall_mem_cons]
    cases hinterim with
    | @progress fraction hunit =>
      have hforwarded : (NativeEvent.progress fraction).forwarded = some (.progress fraction) := rfl
      have hreread : (NativeEvent.progress fraction).reread duration = .progress fraction := rfl
      rw [hreread, takeEvent_progress hunit, List.filterMap_cons_some hforwarded,
        List.append_cons sent _ (events.filterMap _)]
      dsimp only
      rw [ih hlater ⟨hrest, h.last⟩]
      exact (and_iff_right trivial).symm
    | @output o fs outputDir hvalid =>
      have hforwarded : (NativeEvent.output o).forwarded = some (.output o) := rfl
      rw [NativeEvent.reread, List.filterMap_cons_some hforwarded]
      by_cases habsolute : isAbsolute
          ({ o with durationSeconds := o.durationSeconds.map duration } : NativeOutput).path
      · rw [takeEvent_output habsolute]
        dsimp only
        by_cases hduration : o.durationSeconds.map duration = o.durationSeconds
        · rw [hduration, List.append_cons sent _ (events.filterMap _), ih hlater ⟨hrest, h.last⟩]
          exact (and_iff_right ⟨habsolute, hduration⟩).symm
        · refine iff_of_false (fun heq => ?_) fun hkept => hduration hkept.1.2
          -- what is passed on has another duration
          have hpre := @prefix_consume _ (sent ++ [.output { o with
            durationSeconds := o.durationSeconds.map duration }]) (eventLines (events ++ [last]))
          rw [heq, List.prefix_append_right_inj] at hpre
          have hfirst := (List.cons_prefix_cons.1 hpre).1
          exact hduration (congrArg NativeOutput.durationSeconds (ExecutionEvent.output.inj hfirst))
      · rw [takeEvent_relative habsolute]
        refine iff_of_false (fun heq => ?_) fun hkept => habsolute hkept.1.1
        -- nothing is passed on from there
        have hsent := congrArg Prod.fst heq
        exact List.cons_ne_nil _ _ (List.self_eq_append_right.1 hsent)

/-- How the response is cut into chunks does not matter. -/
theorem execute_congr {chunks chunks' : List Bytes} (h : chunks.flatten = chunks'.flatten) :
    execute (chunks.map .ok) = execute (chunks'.map .ok) := by
  rw [execute, execute, readEvents_eq, readEvents_eq, foldl_feed List.not_mem_nil,
    foldl_feed List.not_mem_nil, h]

/-- A response that arrives in chunks is read as the child wrote it exactly if all outputs are
    kept. -/
theorem execute_eq_iff (hjson : ∀ event ∈ events ++ [last], NativeJson.Lawful duration event)
    (h : Emitted events last) {chunks : List Bytes}
    (hchunks : chunks.flatten = eventStream (events ++ [last])) :
    execute (chunks.map .ok) = (events.filterMap NativeEvent.forwarded, last.outcome) ↔
      ∀ event ∈ events, event.Kept duration := by
  have hlines : chunks.foldl (feed 10 takeLine) ([], .inl []) =
      consume 10 takeLine [] (eventLines (events ++ [last])) :=
    foldl_feed_lines (newline_not_mem_eventLines hjson) (hchunks.trans (eventStream_eq _))
  rw [← @consume_iff _ _ [] _ _ hjson h, execute, readEvents_eq, hlines, List.nil_append]
  generalize consume 10 takeLine [] _ = reading
  rcases reading with ⟨sent, pending | outcome⟩
  · -- no last event is taken for a response that ended early
    refine iff_of_false (fun heq => ?_) fun heq => by cases heq
    cases retryHint_outcome (Prod.mk.inj heq).2.symm
  · constructor
    · rintro heq
      obtain ⟨rfl, rfl⟩ := Prod.mk.inj heq
      rfl
    · rintro heq
      cases heq
      rfl

/-- A child always writes something. -/
theorem eventStream_ne_nil : eventStream (events ++ [last]) ≠ [] := by
  intro hempty
  rw [eventStream, List.flatMap_eq_nil_iff] at hempty
  have hlast := hempty last (List.mem_append_right _ List.mem_cons_self)
  rw [Utf8.bytes_append, List.append_eq_nil_iff] at hlast
  exact absurd hlast.2 (by decide)

end NativeBackend

/-- However the response of a child is cut into chunks, the Worker passes on its progress and its
    outputs and ends with the outcome of its last event, exactly if the paths of the outputs are
    absolute and their durations those that are read of their text. -/
theorem execute_decodes_iff [NativeJson] {duration : BitVec 64 → BitVec 64}
    {events : List NativeEvent} {last : NativeEvent}
    (hjson : ∀ event ∈ events ++ [last], NativeJson.Lawful duration event)
    (h : Emitted events last) :
    (∀ chunks : List Bytes, (∀ chunk ∈ chunks, chunk ≠ []) →
      chunks.flatten = eventStream (events ++ [last]) →
      NativeBackend.execute (chunks.map .ok) =
        (events.filterMap NativeEvent.forwarded, last.outcome)) ↔
    ∀ event ∈ events, event.Kept duration := by
  constructor
  · intro hall
    have hwhole : [eventStream (events ++ [last])].flatten = eventStream (events ++ [last]) :=
      List.flatten_singleton
    refine (NativeBackend.execute_eq_iff hjson h hwhole).1 (hall _ (fun chunk hchunk => ?_) hwhole)
    rw [List.mem_singleton.1 hchunk]
    exact NativeBackend.eventStream_ne_nil
  · intro hkept chunks _ hchunks
    exact (NativeBackend.execute_eq_iff hjson h hchunks).2 hkept

namespace Sample

/-- A picture in the directory of an Attempt. -/
def generated : NativeOutput := ⟨"/attempts/5/image-0.png", "image/png", .image, 64, 64, none, none⟩

/-- The same picture, in a directory below that of the process. -/
def generatedBelow : NativeOutput := { generated with path := "attempts/5/image-0.png" }

/-- The process runs in the root directory. -/
def rootDirectory : FileSystem where
  canonicalize path :=
    .ok (if path = "/attempts/5" then ["attempts", "5"] else ["attempts", "5", "image-0.png"])
  isFile _ := true

/-- The JSON of an event: an object with these characters. -/
def objectText (inner : List Char) : String := String.ofList ('\x7b' :: inner ++ ['\x7d'])

/-- A job that makes the picture. -/
def pictureJob : NativeJob where
  outputDir := "/attempts/5"
  cancelledBefore := false
  fractions := []
  result := .ok [generated]
  cancelledAfter := false

/-- What is between the braces of a completion. -/
def completeText : List Char := "\"type\":\"complete\"".toList

/-- What is before the path of a picture. -/
def pictureHead : List Char := "\"type\":\"output\",\"output\":\x7b\"path\":\"".toList

/-- What is behind the path of a picture. -/
def pictureTail : List Char :=
  ("\",\"mime_type\":\"image/png\",\"kind\":\"image\",\"width\":64,\"height\":64," ++
    "\"frames\":null,\"duration_seconds\":null\x7d").toList

/-- What is between the braces of the picture with this path. -/
def pictureText (path : String) : List Char := pictureHead ++ path.toList ++ pictureTail

/-- The JSON of one picture, and of its completion. -/
@[reducible] def pictureJson (picture : NativeOutput) : NativeJson where
  write
    | .output output => objectText (pictureText output.path)
    | _ => objectText completeText
  read text := .ok (if text = objectText completeText then .complete else .output picture)
  utf8Error _ := ""

theorem toList_objectText (inner : List Char) :
    (objectText inner).toList = '\x7b' :: inner ++ ['\x7d'] :=
  String.toList_ofList

/-- An object of one line is written on one line. -/
theorem newline_not_mem_objectText {inner : List Char} (h : '\n' ∉ inner) :
    '\n' ∉ (objectText inner).toList := by
  rw [toList_objectText, List.mem_append, List.mem_cons, List.mem_singleton]
  rintro ((hopen | hmem) | hclose)
  · exact absurd hopen (by decide)
  · exact h hmem
  · exact absurd hclose (by decide)

/-- The two texts are told apart: only one of them has a `u`. -/
theorem pictureText_ne_completeText (path : String) :
    objectText (pictureText path) ≠ objectText completeText := by
  intro heq
  have hmem : 'u' ∈ (objectText (pictureText path)).toList := by
    have hhead : 'u' ∈ pictureHead := by decide +kernel
    rw [toList_objectText, List.mem_append, List.mem_cons, pictureText, List.mem_append,
      List.mem_append]
    exact .inl (.inr (.inl (.inl hhead)))
  have hcomplete : 'u' ∉ '\x7b' :: completeText ++ ['\x7d'] := by decide +kernel
  rw [heq, toList_objectText] at hmem
  exact hcomplete hmem

/-- These texts are objects on one line, from which the events are read. -/
theorem pictureJson_lawful {picture : NativeOutput} (hpath : '\n' ∉ picture.path.toList)
    {event : NativeEvent} (h : event ∈ [.output picture] ++ [.complete]) :
    @NativeJson.Lawful (pictureJson picture) id event := by
  let _ := pictureJson picture
  have hread (text : String) : NativeJson.read text =
      .ok (if text = objectText completeText then .complete else .output picture) := rfl
  have hwrite : NativeJson.write (.output picture) = objectText (pictureText picture.path) := rfl
  have hwrite' : NativeJson.write .complete = objectText completeText := rfl
  simp only [List.cons_append, List.nil_append, List.mem_cons, List.not_mem_nil, or_false] at h
  rcases h with rfl | rfl
  · -- the picture, whose path is on one line
    refine ⟨⟨_, hwrite ▸ toList_objectText _⟩, ?_, fun _ => ?_⟩
    · have hhead : '\n' ∉ pictureHead := by decide +kernel
      have htail : '\n' ∉ pictureTail := by decide +kernel
      rw [hwrite]
      refine newline_not_mem_objectText ?_
      rw [pictureText, List.mem_append, List.mem_append, not_or, not_or]
      exact ⟨⟨hhead, hpath⟩, htail⟩
    · rw [hwrite, hread, if_neg (pictureText_ne_completeText _), NativeEvent.reread,
        Option.map_id, id]
  · -- the end
    refine ⟨⟨_, hwrite' ▸ toList_objectText _⟩, ?_, fun _ => ?_⟩
    · rw [hwrite']
      exact newline_not_mem_objectText (by decide +kernel)
    · rw [hwrite', hread, if_pos rfl]
      rfl

end Sample

/-- The picture is passed on. -/
theorem execute_decodes_iff_picture :
    @NativeBackend.execute (Sample.pictureJson Sample.generated)
        [.ok (@eventStream (Sample.pictureJson Sample.generated)
          ([.output Sample.generated] ++ [.complete]))] =
      ([.output Sample.generated], .ok ()) := by
  let _ := Sample.pictureJson Sample.generated
  have hvalid : validateOutput Sample.rootDirectory Sample.generated "/attempts/5" =
      .ok () := by decide
  have hall := (execute_decodes_iff (fun event hevent => Sample.pictureJson_lawful (by decide) hevent)
    ⟨List.forall_mem_singleton.2 (.output hvalid), rfl⟩).2 (List.forall_mem_singleton.2 ⟨rfl, rfl⟩)
  exact hall [_] (List.forall_mem_singleton.2 NativeBackend.eventStream_ne_nil) List.flatten_singleton

/-- The picture with a relative path was checked, and is refused. -/
theorem relative_output_refused : ¬ ∀ (events : List NativeEvent) (last : NativeEvent),
    Emitted events last →
    ∀ chunks : List Bytes, (∀ chunk ∈ chunks, chunk ≠ []) →
    chunks.flatten = @eventStream (Sample.pictureJson Sample.generatedBelow) (events ++ [last]) →
    @NativeBackend.execute (Sample.pictureJson Sample.generatedBelow) (chunks.map .ok) =
      (events.filterMap NativeEvent.forwarded, last.outcome) := by
  let _ := Sample.pictureJson Sample.generatedBelow
  intro hall
  have hvalid : validateOutput Sample.rootDirectory Sample.generatedBelow "/attempts/5" =
      .ok () := by decide
  have hjson : ∀ event ∈ [.output Sample.generatedBelow] ++ [.complete], NativeJson.Lawful id event :=
    fun event hevent => Sample.pictureJson_lawful (by decide) hevent
  have hemitted : Emitted [.output Sample.generatedBelow] .complete :=
    ⟨List.forall_mem_singleton.2 (.output hvalid), rfl⟩
  have hwhole : [eventStream ([.output Sample.generatedBelow] ++ [.complete])].flatten =
      eventStream ([.output Sample.generatedBelow] ++ [.complete]) := List.flatten_singleton
  have hkept := (NativeBackend.execute_eq_iff hjson hemitted hwhole).1 (hall _ _ hemitted _
      (fun chunk hchunk => by
    rw [List.mem_singleton.1 hchunk]
    exact NativeBackend.eventStream_ne_nil) hwhole)
  exact absurd (hkept _ List.mem_cons_self).1 (by decide)

/-- What the Worker makes of a response does not depend on how it is cut into chunks. Whatever the
    native generation of a job reports and however it ends, the Worker passes on the progress and
    the outputs that the child wrote, in order, and ends as the job did, exactly if all these
    outputs are kept. -/
theorem job_passed_on_iff [NativeJson] {duration : BitVec 64 → BitVec 64} {fs : FileSystem}
    {job : NativeJob} (hclamped : ∀ x ∈ job.fractions, F32.inUnit x)
    (hjson : ∀ event ∈ executeBlocking fs job, NativeJson.Lawful duration event) :
    (∀ chunks chunks' : List Bytes, chunks.flatten = chunks'.flatten →
      NativeBackend.execute (chunks.map .ok) = NativeBackend.execute (chunks'.map .ok)) ∧
    ∃ events last, executeBlocking fs job = events ++ [last] ∧ Emitted events last ∧
      ∀ chunks : List Bytes, chunks.flatten = eventStream (executeBlocking fs job) →
        (NativeBackend.execute (chunks.map .ok) =
          (events.filterMap NativeEvent.forwarded, last.outcome) ↔
          ∀ event ∈ events, event.Kept duration) := by
  refine ⟨fun _ _ hflat => NativeBackend.execute_congr hflat, ?_⟩
  obtain ⟨events, last, hevents, hemitted⟩ := executeBlocking_emitted hclamped
  rw [hevents] at hjson ⊢
  exact ⟨events, last, rfl, hemitted,
    fun chunks hchunks => NativeBackend.execute_eq_iff hjson hemitted hchunks⟩

/-- The picture of a job is passed on from a response whose first byte comes alone. -/
theorem job_passed_on_iff_picture : ∃ first rest,
    @eventStream (Sample.pictureJson Sample.generated)
      (executeBlocking Sample.rootDirectory Sample.pictureJob) =
      first :: rest ∧
    @NativeBackend.execute (Sample.pictureJson Sample.generated) [.ok [first], .ok rest] =
      ([.output Sample.generated], .ok ()) := by
  let _ := Sample.pictureJson Sample.generated
  have hevents : executeBlocking Sample.rootDirectory Sample.pictureJob =
      [.output Sample.generated] ++ [.complete] := by
    decide
  obtain ⟨-, events, last, hsplit, -, hread⟩ :=
    @job_passed_on_iff _ id Sample.rootDirectory Sample.pictureJob
    (List.forall_mem_nil _)
    (fun event hevent => Sample.pictureJson_lawful (by decide) (hevents ▸ hevent))
  obtain ⟨rfl, hlast⟩ := List.append_inj' (hsplit.symm.trans hevents) rfl
  obtain rfl := List.singleton_inj.1 hlast
  have hne : eventStream (executeBlocking Sample.rootDirectory Sample.pictureJob) ≠ [] := by
    rw [hevents]
    exact NativeBackend.eventStream_ne_nil
  obtain ⟨first, rest, hstream⟩ := List.exists_cons_of_ne_nil hne
  have hkept : ∀ event ∈ [NativeEvent.output Sample.generated], event.Kept id :=
    List.forall_mem_singleton.2 ⟨rfl, rfl⟩
  have hflat : [[first], rest].flatten = first :: rest := by simp
  exact ⟨first, rest, hstream, (hread [[first], rest] (hflat.trans hstream.symm)).2 hkept⟩

end Gpq
