import Gpq.Lifecycle.Requests

/-!
# Well-formed requests are read

A request is written as a request line and header fields, each on a line, an empty line, and the
body (`WireRequest.bytes`). Its head ends where the bytes first look like it (`position_headText`),
and reading the head gives back what it says (`WellFormed.parseHead`).

* `request_read_in_any_split`: a well-formed request within the limits is read, however its bytes
  arrive, and of any stream no more is buffered than the limits admit.
-/

namespace Gpq

/-! ## Requests as they are written -/

/-- A request as it is written: its line, its header fields in order, and its body. -/
structure WireRequest where
  method : String
  target : String
  version : String
  /-- The names and what is behind their colons. -/
  fields : List (String × String)
  body : Bytes

/-- A text that is one word. -/
def IsWord (s : String) : Prop := s ≠ "" ∧ ∀ c ∈ s.toList, ¬ isWhiteSpace c

instance (s : String) : Decidable (IsWord s) :=
  @instDecidableAnd _ _ inferInstance (List.decidableBAll _ s.toList)

/-- The lines of a head, without its end. -/
def headText (first : String) : List String → String
  | [] => first
  | line :: lines => first ++ "\r\n" ++ headText line lines

/-- A header field on its line. -/
def fieldLine (field : String × String) : String := field.1 ++ ":" ++ field.2

namespace WireRequest

variable (request : WireRequest)

/-- The line that a request begins with. -/
def requestLine : String := request.method ++ " " ++ request.target ++ " " ++ request.version

/-- The head, without its end. -/
def head : Bytes := Utf8.bytes (headText request.requestLine (request.fields.map fieldLine))

/-- The bytes of a request. -/
def bytes : Bytes := request.head ++ headTerminator ++ request.body

/-- The header fields by name, in lower case; of several the last one, without the white space
    around it. -/
def headers : Headers :=
  request.fields.foldl (fun headers field => headers.insert field.1.toLower (trim field.2)) ∅

/-- The header fields of a name, in any case. -/
def named (name : String) : List (String × String) := request.fields.filter (·.1.toLower = name)

/-- A request that the reader has to understand: three words on its line, names of one word
    without a colon, values on one line, the length of the body in one Content-Length, no
    Transfer-Encoding, and head and body within the limits. -/
structure WellFormed : Prop where
  method : IsWord request.method
  target : IsWord request.target
  version : IsWord request.version
  name : ∀ field ∈ request.fields, IsWord field.1 ∧ ':' ∉ field.1.toList
  value : ∀ field ∈ request.fields, '\r' ∉ field.2.toList
  contentLength : ∃ name value, request.named "content-length" = [(name, value)] ∧ trim value ≠ "" ∧
    (∀ c ∈ (trim value).toList, c.isDigit) ∧
      Nat.ofDigitChars 10 (trim value).toList 0 = request.body.length
  noTransferEncoding : request.named "transfer-encoding" = []
  headLimit : (request.head ++ headTerminator).length ≤ MAX_HEADER_BYTES
  bodyLimit : request.body.length ≤ MAX_REQUEST_BYTES

end WireRequest

/-! ## The end of the head -/

/-- A pattern that is not begun in a list is found behind it. -/
theorem position_headTerminator_append {line : Bytes} (hline : 13 ∉ line) (rest : Bytes) :
    Search.position headTerminator (line ++ rest) =
      (Search.position headTerminator rest).map (· + line.length) := by
  induction line with
  | nil =>
    rw [List.nil_append]
    exact Option.map_id'.symm
  | cons a line ih =>
    obtain ⟨hne, hmem⟩ := List.ne_and_not_mem_of_not_mem_cons hline
    have hpre : ¬ headTerminator <+: a :: (line ++ rest) := fun h => hne (List.cons_prefix_cons.1 h).1
    rw [List.cons_append, Search.position, if_neg hpre, ih hmem, Option.map_map]
    rfl

/-- A line with a nonempty line behind it does not end the head. -/
theorem position_headTerminator_line {line next : Bytes} (hline : 13 ∉ line) (hnext : 13 ∉ next)
    (hne : next ≠ []) (rest : Bytes) :
    Search.position headTerminator (line ++ ([13, 10] ++ (next ++ rest))) =
      (Search.position headTerminator (next ++ rest)).map (· + (line.length + 2)) := by
  rcases next with _ | ⟨b, next⟩
  · exact absurd rfl hne
  · have hb : ¬ (13 : UInt8) = b := (List.ne_and_not_mem_of_not_mem_cons hnext).1
    have hfirst : ¬ headTerminator <+: 13 :: 10 :: b :: (next ++ rest) := by
      intro h
      exact hb (List.cons_prefix_cons.1 (List.cons_prefix_cons.1 (List.cons_prefix_cons.1 h).2).2).1
    have hsecond : ¬ headTerminator <+: 10 :: b :: (next ++ rest) := fun h =>
      absurd (List.cons_prefix_cons.1 h).1 (by decide)
    rw [position_headTerminator_append hline, List.cons_append, List.cons_append, List.cons_append,
      List.nil_append,
      Search.position, if_neg hfirst, Search.position, if_neg hsecond, Option.map_map, Option.map_map]
    congr 1
    funext i
    exact (Nat.add_assoc (i + 1) 1 _).trans (by omega)

/-- A text on one line has no carriage return among its bytes. -/
theorem carriageReturn_not_mem_bytes {line : String} (h : '\r' ∉ line.toList) :
    13 ∉ Utf8.bytes line := by
  intro hmem
  obtain ⟨c, hc, hreturn⟩ := Utf8.exists_of_mem_bytes (by decide) hmem
  obtain rfl : c = '\r' := Char.toNat_inj.1 hreturn
  exact h hc

/-- A line with characters has bytes. -/
theorem bytes_ne_nil {line : String} (h : line ≠ "") : Utf8.bytes line ≠ [] := by
  intro hnil
  have hdecode : Utf8.decode (Utf8.bytes line) = some "" := by
    rw [hnil]
    exact Utf8.decode_bytes ""
  rw [Utf8.decode_bytes] at hdecode
  exact h (Option.some.inj hdecode)

/-- The lines of a head begin with its first one. -/
theorem headText_append (first : String) (lines : List String) :
    ∃ text, headText first lines = first ++ text := by
  rcases lines with _ | ⟨line, lines⟩
  · exact ⟨"", String.append_empty.symm⟩
  · exact ⟨"\r\n" ++ headText line lines, String.append_assoc⟩

/-- The end of a head is first found behind its lines. -/
theorem position_headText {first : String} {lines : List String} (hfirst : '\r' ∉ first.toList)
    (hlines : ∀ line ∈ lines, line ≠ "" ∧ '\r' ∉ line.toList) (rest : Bytes) :
    Search.position headTerminator (Utf8.bytes (headText first lines) ++ headTerminator ++ rest) =
      some (Utf8.bytes (headText first lines)).length := by
  induction lines generalizing first with
  | nil =>
    have hend : Search.position headTerminator (headTerminator ++ rest) = some 0 :=
      if_pos (List.prefix_append headTerminator rest)
    rw [headText, List.append_assoc,
      position_headTerminator_append (carriageReturn_not_mem_bytes hfirst), hend,
      Option.map_some, Nat.zero_add]
  | cons line lines ih =>
    obtain ⟨hne, hline⟩ := hlines line List.mem_cons_self
    have hfound := ih hline fun l hl => hlines l (List.mem_cons_of_mem _ hl)
    obtain ⟨text, htext⟩ := headText_append line lines
    have hcrlf : Utf8.bytes "\r\n" = [13, 10] := by decide
    rw [htext, Utf8.bytes_append, List.append_assoc, List.append_assoc] at hfound
    rw [headText, htext, Utf8.bytes_append, Utf8.bytes_append, Utf8.bytes_append, hcrlf,
      List.append_assoc, List.append_assoc, List.append_assoc, List.append_assoc,
      position_headTerminator_line (carriageReturn_not_mem_bytes hfirst)
        (carriageReturn_not_mem_bytes hline)
        (bytes_ne_nil hne), hfound, Option.map_some]
    refine congrArg some ?_
    simp only [List.length_append, List.length_cons, List.length_nil]
    omega

/-! ## The lines of the head -/

/-- A text on one line is one line. -/
theorem splitLines_line {line : List Char} (h : '\r' ∉ line) : splitLines line = [line] := by
  induction line with
  | nil => rfl
  | cons c line ih =>
    obtain ⟨hne, hmem⟩ := List.ne_and_not_mem_of_not_mem_cons h
    rw [splitLines, ih hmem]
    rintro _ rfl -
    exact hne rfl

/-- A line ends at its line break. -/
theorem splitLines_append {line : List Char} (h : '\r' ∉ line) (rest : List Char) :
    splitLines (line ++ '\r' :: '\n' :: rest) = line :: splitLines rest := by
  induction line with
  | nil => rfl
  | cons c line ih =>
    obtain ⟨hne, hmem⟩ := List.ne_and_not_mem_of_not_mem_cons h
    rw [List.cons_append, splitLines, ih hmem]
    rintro _ rfl -
    exact hne rfl

/-- The lines of a head are read. -/
theorem splitLines_headText {first : String} {lines : List String} (hfirst : '\r' ∉ first.toList)
    (hlines : ∀ line ∈ lines, '\r' ∉ line.toList) :
    splitLines (headText first lines).toList = first.toList :: lines.map String.toList := by
  induction lines generalizing first with
  | nil => exact splitLines_line hfirst
  | cons line lines ih =>
    have hbreak : ("\r\n" : String).toList = ['\r', '\n'] := rfl
    rw [headText, String.toList_append, String.toList_append, hbreak, List.append_assoc,
      List.cons_append, List.cons_append, List.nil_append, splitLines_append hfirst,
      ih (hlines line List.mem_cons_self) fun l hl => hlines l (List.mem_cons_of_mem _ hl),
        List.map_cons]

/-- A line of three words. -/
theorem splitWhitespace_words {method target version : String} (hmethod : IsWord method)
    (htarget : IsWord target) (hversion : IsWord version) :
    splitWhitespace (method ++ " " ++ target ++ " " ++ version).toList =
      [method.toList, target.toList, version.toList] := by
  have hspace : (" " : String).toList = [' '] := rfl
  have hword {s : String} (h : IsWord s) : ∀ c ∈ s.toList, isWhiteSpace c = false := fun c hc =>
    Bool.eq_false_iff.2 (h.2 c hc)
  have hne {s : String} (h : IsWord s) : s.toList ≠ [] :=
    fun hnil => h.1 (String.toList_eq_nil_iff.1 hnil)
  rw [splitWhitespace, String.toList_append, String.toList_append, String.toList_append,
    String.toList_append, hspace,
    List.append_assoc, List.append_assoc, List.append_assoc, List.singleton_append,
      List.singleton_append,
    List.splitOnP_append_cons_of_forall_mem (hword hmethod) ' ' (by decide),
    List.splitOnP_append_cons_of_forall_mem (hword htarget) ' ' (by decide),
    List.splitOnP_eq_singleton (hword hversion)]
  simp [hne hmethod, hne htarget, hne hversion]

/-! ## The header fields -/

/-- A word has no white space to be trimmed. -/
theorem trim_word {s : String} (h : IsWord s) : trim s = s := by
  have hstart : s.toList.dropWhile isWhiteSpace = s.toList :=
    List.dropWhile_eq_self_iff.2 fun _ => h.2 _ (List.getElem_mem _)
  have hend : s.toList.rdropWhile isWhiteSpace = s.toList :=
    List.rdropWhile_eq_self_iff.2 fun _ => h.2 _ (List.getLast_mem _)
  rw [trim, hstart, hend, String.ofList_toList]

/-- The header of a field. -/
def insertField (headers : Headers) (field : String × String) : Headers :=
  headers.insert field.1.toLower (trim field.2)

/-- A header field is taken. -/
theorem readHeader_fieldLine {headers : Headers} {n n' : ℕ} {field : String × String}
    (hword : IsWord field.1) (hcolon : ':' ∉ field.1.toList)
    (hencoding : field.1.toLower ≠ "transfer-encoding")
    (hlength : (if field.1.toLower = "content-length" then
      (parseUnsigned 64 (trim field.2).toList).mapError .parseInt
      else .ok n) = Except.ok (ε := RequestError) n') :
    readHeader (headers, n) (fieldLine field).toList = .ok (insertField headers field, n') := by
  have hsep : (":" : String).toList = [':'] := rfl
  have hline : splitOnce ':' (fieldLine field).toList = some (field.1.toList, field.2.toList) := by
    rw [fieldLine, String.toList_append, String.toList_append, hsep, List.append_assoc,
      List.singleton_append]
    exact splitOnce_append hcolon _
  rw [readHeader, hline]
  refine Traverse.bind_eq_ok_iff.2 ⟨(field.1.toList, field.2.toList), rfl, ?_⟩
  dsimp only
  rw [String.ofList_toList, String.ofList_toList, trim_word hword]
  by_cases hname : field.1.toLower = "content-length"
  · rw [if_pos hname] at hlength ⊢
    refine Traverse.bind_eq_ok_iff.2 ⟨n', hlength, ?_⟩
    rw [if_neg hencoding]
    rfl
  · rw [if_neg hname] at hlength ⊢
    refine Traverse.bind_eq_ok_iff.2 ⟨n', hlength, ?_⟩
    rw [if_neg hencoding]
    rfl

variable {headers : Headers} {n : ℕ} {fields : List (String × String)}

/-- Header fields that do not say how long the body is are taken. -/
theorem foldlM_readHeader (hname : ∀ field ∈ fields, IsWord field.1 ∧ ':' ∉ field.1.toList)
    (hlength : ∀ field ∈ fields, field.1.toLower ≠ "content-length")
    (hencoding : ∀ field ∈ fields, field.1.toLower ≠ "transfer-encoding") :
    (fields.map fun field => (fieldLine field).toList).foldlM readHeader (headers, n) =
      .ok (fields.foldl insertField headers, n) := by
  induction fields generalizing headers with
  | nil => rfl
  | cons field fields ih =>
    obtain ⟨hword, hcolon⟩ := hname field List.mem_cons_self
    have hlength' := hlength field List.mem_cons_self
    rw [List.map_cons, List.foldlM_cons,
      readHeader_fieldLine hword hcolon (hencoding field List.mem_cons_self)
      (if_neg hlength')]
    exact ih (fun f hf => hname f (List.mem_cons_of_mem _ hf))
      (fun f hf => hlength f (List.mem_cons_of_mem _ hf))
      fun f hf => hencoding f (List.mem_cons_of_mem _ hf)

/-- Fields of other names leave a header. -/
theorem lookup_foldl_insertField {name : String} (h : ∀ field ∈ fields, field.1.toLower ≠ name) :
    (fields.foldl insertField headers).lookup name = headers.lookup name := by
  induction fields generalizing headers with
  | nil => rfl
  | cons field fields ih =>
    rw [List.foldl_cons, ih fun f hf => h f (List.mem_cons_of_mem _ hf)]
    exact Finmap.lookup_insert_of_ne _ (h field List.mem_cons_self).symm

namespace WireRequest

variable {request : WireRequest}

/-- What the request is read as. -/
def read (request : WireRequest) : HttpRequest :=
  ⟨request.method, request.target, request.headers, request.body⟩

/-- The request line and the header fields are lines. -/
theorem WellFormed.requestLine_mem (h : request.WellFormed) : '\r' ∉ request.requestLine.toList := by
  have hspace : isWhiteSpace '\r' := by decide
  intro hmem
  simp only [requestLine, String.toList_append, List.mem_append] at hmem
  rcases hmem with (((hmem | hmem) | hmem) | hmem) | hmem
  · exact h.method.2 _ hmem hspace
  · exact absurd hmem (by decide)
  · exact h.target.2 _ hmem hspace
  · exact absurd hmem (by decide)
  · exact h.version.2 _ hmem hspace

/-- No line of a field is empty, or breaks off. -/
theorem WellFormed.fieldLine_mem (h : request.WellFormed) :
    ∀ line ∈ request.fields.map fieldLine, line ≠ "" ∧ '\r' ∉ line.toList := by
  intro line hline
  obtain ⟨field, hfield, rfl⟩ := List.mem_map.1 hline
  have hcolon : ':' ∈ (fieldLine field).toList := by
    rw [fieldLine, String.toList_append, String.toList_append, List.append_assoc]
    exact List.mem_append_right _ List.mem_cons_self
  refine ⟨?_, ?_⟩
  · intro hempty
    rw [hempty] at hcolon
    cases hcolon
  · intro hmem
    simp only [fieldLine, String.toList_append, List.mem_append] at hmem
    rcases hmem with (hmem | hmem) | hmem
    · exact (h.name field hfield).1.2 _ hmem (by decide)
    · exact absurd hmem (by decide)
    · exact h.value field hfield hmem

/-- The header fields are read, and with them the length of the body. -/
theorem WellFormed.foldlM_readHeader (h : request.WellFormed) :
    (request.fields.map fun field => (fieldLine field).toList).foldlM readHeader (∅, 0) =
      .ok (request.headers, request.body.length) ∧
    ∃ value, request.headers.lookup "content-length" = some value ∧
      Nat.ofDigitChars 10 value.toList 0 = request.body.length := by
  obtain ⟨name, value, hnamed, hvalue, hdigits, hnumber⟩ := h.contentLength
  obtain ⟨before, after, hfields, hbefore, hname, hafter⟩ := List.filter_eq_cons_iff.1 hnamed
  have hencoding : ∀ field ∈ request.fields, field.1.toLower ≠ "transfer-encoding" :=
    fun field hfield heq =>
      List.filter_eq_nil_iff.1 h.noTransferEncoding field hfield (decide_eq_true heq)
  have hname' : name.toLower = "content-length" := of_decide_eq_true hname
  have hbefore' : ∀ field ∈ before, field.1.toLower ≠ "content-length" := fun field hfield heq =>
    hbefore field hfield (decide_eq_true heq)
  have hafter' : ∀ field ∈ after, field.1.toLower ≠ "content-length" := fun field hfield heq =>
    List.filter_eq_nil_iff.1 hafter field hfield (decide_eq_true heq)
  have hmem : ∀ field, field ∈ before ∨ field = (name, value) ∨ field ∈ after ↔
      field ∈ request.fields := by
    intro field
    rw [hfields, List.mem_append, List.mem_cons]
  have hheaders :
      request.headers =
          after.foldl insertField (insertField (before.foldl insertField ∅) (name, value)) := by
    rw [headers, hfields, List.foldl_append, List.foldl_cons]
    rfl
  constructor
  · have hlt : Nat.ofDigitChars 10 (trim value).toList 0 < 2 ^ 64 := by
      have hlimit := h.bodyLimit
      rw [hnumber]
      exact hlimit.trans_lt (by decide)
    have hvalue' : (trim value).toList ≠ [] := fun hnil => hvalue (String.toList_eq_nil_iff.1 hnil)
    have hparse : (parseUnsigned 64 (trim value).toList).mapError .parseInt =
        Except.ok (ε := RequestError) request.body.length := by
      rw [parseUnsigned_digits hvalue' hdigits hlt, hnumber]
      rfl
    obtain ⟨hword, hcolon⟩ := h.name _ ((hmem _).1 (.inr (.inl rfl)))
    have htake := @readHeader_fieldLine (before.foldl insertField ∅) 0 _ _ hword hcolon
      (hencoding _ ((hmem _).1 (.inr (.inl rfl)))) ((if_pos hname').trans hparse)
    have hbefores :=
      @Gpq.foldlM_readHeader ∅ 0 _ (fun f hf => h.name f ((hmem f).1 (.inl hf))) hbefore'
      fun f hf => hencoding f ((hmem f).1 (.inl hf))
    have hafters := @Gpq.foldlM_readHeader (insertField (before.foldl insertField ∅) (name, value))
      request.body.length _ (fun f hf => h.name f ((hmem f).1 (.inr (.inr hf)))) hafter'
      fun f hf => hencoding f ((hmem f).1 (.inr (.inr hf)))
    rw [hheaders, hfields, List.map_append, List.map_cons, List.foldlM_append, hbefores]
    refine Traverse.bind_eq_ok_iff.2 ⟨_, rfl, ?_⟩
    rw [List.foldlM_cons]
    exact Traverse.bind_eq_ok_iff.2 ⟨_, htake, hafters⟩
  · refine ⟨trim value, ?_, hnumber⟩
    rw [hheaders, lookup_foldl_insertField hafter', insertField, hname']
    exact Finmap.lookup_insert _

/-- The head is read as what it says. -/
theorem WellFormed.parseHead (h : request.WellFormed) :
    parseHead request.head =
      .ok ⟨request.method, request.target, request.headers, request.body.length⟩ := by
  have hlines :=
    splitLines_headText h.requestLine_mem fun line hline => (h.fieldLine_mem line hline).2
  rw [Gpq.parseHead, head, Utf8.decode_bytes]
  refine Traverse.bind_eq_ok_iff.2 ⟨_, rfl, ?_⟩
  rw [hlines]
  dsimp only
  rw [requestLine, splitWhitespace_words h.method h.target h.version, List.map_map]
  dsimp only
  refine Traverse.bind_eq_ok_iff.2 ⟨_, h.foldlM_readHeader.1, ?_⟩
  rw [String.ofList_toList, String.ofList_toList]
  rfl

/-- A well-formed request is read, however its bytes are cut. -/
theorem WellFormed.readRequest (h : request.WellFormed) {stream : TcpStream}
    (hflowing : stream.Flowing)
    (hbytes : stream.bytes = request.bytes) : readRequest stream = .ok request.read := by
  have hposition : Search.position headTerminator request.bytes = some request.head.length :=
    position_headText h.requestLine_mem h.fieldLine_mem request.body
  have hlimit := h.headLimit
  have htake : request.bytes.take request.head.length = request.head := by
    rw [bytes, List.append_assoc, List.take_left]
  have hdrop : request.bytes.drop (request.head.length + 4) = request.body :=
    List.drop_left' List.length_append
  rw [List.length_append] at hlimit
  have hparse := h.parseHead
  rw [← htake] at hparse
  have hwhole : [] ++ stream.bytes = request.bytes := hbytes
  rw [Gpq.readRequest, RequestReading.run_head hflowing hwhole hposition hlimit hparse h.bodyLimit
    (congrArg List.length hdrop), hdrop]
  rfl

end WireRequest

/-! ## Requests in any split -/

/-- However its bytes are cut into segments, a well-formed request within the limits is read: its
    method, its target, its headers, and its body, which has the length that its header says. Of
    any stream, in any split, the reader buffers no more than the limits admit, and where the head
    or the body is not within them, there is no request. -/
theorem request_read_in_any_split :
    (∀ (request : WireRequest) (stream : TcpStream), request.WellFormed → stream.Flowing →
      stream.bytes = request.bytes →
      readRequest stream = .ok request.read ∧
      ∃ value, request.read.headers.lookup "content-length" = some value ∧
        Nat.ofDigitChars 10 value.toList 0 = request.read.body.length) ∧
    ∀ stream : TcpStream,
      (∀ reading rest, RequestReading.Reaches stream (reading, rest) → reading.Bounded) ∧
      ∀ request, readRequest stream = .ok request →
        ∃ index, Search.position headTerminator stream.bytes = some index ∧
          index + 4 < MAX_HEADER_BYTES + HEADER_CHUNK ∧ request.body.length ≤ MAX_REQUEST_BYTES ∧
          request.body <+: stream.bytes.drop (index + 4) := by
  refine ⟨fun request stream h hflowing hbytes => ⟨h.readRequest hflowing hbytes,
    h.foldlM_readHeader.2⟩,
    fun stream => ⟨fun reading rest h => (RequestReading.follows_of_reaches h).bounded,
      fun request hrequest => ?_⟩⟩
  obtain ⟨rest, hreaches⟩ :=
    RequestReading.reaches_run (.init rfl : RequestReading.Reaches stream (.head [], stream))
  rw [← readRequest, hrequest] at hreaches
  obtain ⟨index, parsed, hhead, hbody, hlength⟩ := RequestReading.follows_of_reaches hreaches
  exact ⟨index, hhead.position, hhead.limit, hlength.trans_le hhead.body, hbody⟩

/-- A request with a body of two bytes. -/
def cancelRequest : WireRequest where
  method := "POST"
  target := "/cancel"
  version := "HTTP/1.1"
  fields := [("Host", " localhost"), ("Content-Length", " 2")]
  body := [123, 125]

/-- The request arrives in one segment with a part of its end, and another with the rest. -/
theorem cancelRequest_read :
    readRequest ⟨[cancelRequest.bytes.take 60, cancelRequest.bytes.drop 60], none⟩ =
      .ok cancelRequest.read :=
  (request_read_in_any_split.1 cancelRequest _
    { method := by decide
      target := by decide
      version := by decide
      name := by decide +kernel
      value := by decide +kernel
      contentLength := ⟨"Content-Length", " 2", by decide +kernel, by decide +kernel,
        List.all_eq_true.1 (by decide +kernel), by decide +kernel⟩
      noTransferEncoding := by decide +kernel
      headLimit := by decide +kernel
      bodyLimit := by decide }
    (by decide +kernel) (by decide +kernel)).1

end Gpq
