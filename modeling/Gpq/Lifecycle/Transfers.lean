import Gpq.Lifecycle.Downloads

/-!
# Received deliveries

A downloader that stays subscribed is passed the accepted data of a `DeliverArtifact` stream,
in order, and then one concluding event (`delivery_concluded`), unless a transport error or a
message of another kind breaks in while chunks are still awaited (`severed`): there the call
returns without telling the downloader (`delivery_left_open`).
-/

namespace Gpq

open Sql DbKey

/-- Whether an event ends the stream for the downloader. -/
def DeliveryChunk.concludes : DeliveryChunk → Bool
  | data _ => false
  | complete | failed _ | rejected _ => true

/-- The data of the chunks that are accepted, in order. -/
def acceptedData (manifest : ArtifactManifest) (nextOffset : UInt64) : List InboundItem → List Bytes
  | .ok (some (.chunk chunk)) :: requests =>
    match followingOffset manifest nextOffset chunk with
    | .error _ => []
    | .ok offset => chunk.data :: if chunk.last then [] else acceptedData manifest offset requests
  | _ => []

/-- Whether anything but a chunk arrives where a chunk is awaited. -/
def severed (manifest : ArtifactManifest) (nextOffset : UInt64) : List InboundItem → Bool
  | [] => false
  | .ok (some (.chunk chunk)) :: requests =>
    match followingOffset manifest nextOffset chunk with
    | .error _ => false
    | .ok offset => !chunk.last && severed manifest offset requests
  | _ :: _ => true

/-- The downloader takes data for as long as it is passed nothing else. -/
def Downloader.Stays (self : Downloader) : Prop :=
  ∀ datas : List Bytes, self.subscribed (datas.map .data)

section Received

variable {manifest : ArtifactManifest} {downloader : Downloader}

theorem Downloader.Stays.push (h : downloader.Stays) {datas : List Bytes}
    (hreceived : downloader.received = datas.map .data) (chunk : DeliveryChunk) :
    downloader.pushDelivery chunk =
      (true, { downloader with received := datas.map .data ++ [chunk] }) := by
  rw [Downloader.pushDelivery, hreceived, if_pos (h datas)]

/-- What the receive loop leaves the downloader with. -/
inductive Received (datas : List Bytes) : Bool → Except ConnectError ChunkReceipt →
    List DeliveryChunk → Prop
  /-- The final chunk was passed on. -/
  | delivered (offset : UInt64) (digest : ContentHash) :
    Received datas false (.ok (.delivered offset digest)) (datas.map .data)
  /-- The stream is concluded. -/
  | concluded (error : ConnectError) (chunk : DeliveryChunk) (h : chunk.concludes) :
    Received datas false (.error error) (datas.map .data ++ [chunk])
  /-- The stream is left open. -/
  | severed (error : ConnectError) : Received datas true (.error error) (datas.map .data)

/-- The concluding event of a stream whose chunks were all passed on. -/
theorem concludeDelivery_received (h : downloader.Stays) {datas : List Bytes}
    (hreceived : downloader.received = datas.map .data) (startOffset committedOffset : UInt64)
    (digest : ContentHash) :
    ∃ chunk : DeliveryChunk, chunk.concludes ∧
      (concludeDelivery manifest startOffset downloader
        (.delivered committedOffset digest)).2.received =
        datas.map .data ++ [chunk] := by
  rw [concludeDelivery]
  simp only [h.push hreceived]
  cases validateDeliveryReceipt manifest startOffset committedOffset digest with
  | accepted => exact ⟨.complete, rfl, rfl⟩
  | retryable reason => exact ⟨.failed reason, rfl, rfl⟩
  | rejected reason => exact ⟨.rejected reason, rfl, rfl⟩

/-- Data does not conclude a stream. -/
theorem map_data_ne_append_concludes {datas datas' : List Bytes} {chunk : DeliveryChunk}
    (h : chunk.concludes) : datas.map .data ≠ datas'.map .data ++ [chunk] := by
  intro he
  have hmem : chunk ∈ datas.map DeliveryChunk.data := by
    rw [he]
    exact List.mem_append_right _ (List.mem_singleton_self _)
  obtain ⟨bytes, -, rfl⟩ := List.mem_map.1 hmem
  cases h

variable [Sha256]

/-- What the downloader receives are the chunks that were accepted, and what ended them. -/
theorem receiveDeliveryChunks_received (h : downloader.Stays) (hasher : Hasher) (nextOffset : UInt64)
    (requests : List InboundItem) {datas : List Bytes}
    (hreceived : downloader.received = datas.map .data) :
    (receiveDeliveryChunks manifest hasher nextOffset requests downloader).2.Stays ∧
      Received (datas ++ acceptedData manifest nextOffset requests)
        (severed manifest nextOffset requests)
        (receiveDeliveryChunks manifest hasher nextOffset requests downloader).1
        (receiveDeliveryChunks manifest hasher nextOffset requests downloader).2.received := by
  induction requests generalizing downloader hasher nextOffset datas with
  | nil =>
    rw [receiveDeliveryChunks, h.push hreceived, severed,
      show acceptedData manifest nextOffset [] = [] from rfl, List.append_nil]
    exact ⟨h, .concluded _ _ rfl⟩
  | cons item requests ih =>
    -- only a chunk goes on with the loop
    have hopen : ∀ error, downloader.Stays ∧
        Received (datas ++ []) true (.error error) downloader.received := by
      intro error
      rw [List.append_nil, hreceived]
      exact ⟨h, .severed error⟩
    match item with
    | .error error => exact hopen error
    | .ok none => exact hopen _
    | .ok (some (.start start)) => exact hopen _
    | .ok (some (.chunk chunk)) =>
      rw [receiveDeliveryChunks, acceptedData, severed]
      -- a chunk that does not follow ends the stream
      cases hnext : followingOffset manifest nextOffset chunk with
      | error reason =>
        dsimp only
        rw [h.push hreceived, List.append_nil]
        exact ⟨h, .concluded _ _ rfl⟩
      | ok offset =>
        dsimp only
        rw [h.push hreceived]
        dsimp only
        have hpassed : datas.map .data ++ [.data chunk.data] =
            (datas ++ [chunk.data]).map DeliveryChunk.data := by
          simp
        cases chunk.last with
        | true =>
          refine ⟨h, ?_⟩
          rw [hpassed]
          exact .delivered offset _
        | false =>
          have hdatas : datas ++ chunk.data :: acceptedData manifest offset requests =
              datas ++ [chunk.data] ++ acceptedData manifest offset requests := by simp
          simp only [Bool.false_eq_true, if_false, Bool.not_false, Bool.true_and, hdatas]
          have hstays : Downloader.Stays
              { downloader with received := datas.map .data ++ [.data chunk.data] } := h
          exact ih hstays _ offset hpassed

/-- A downloader that stays subscribed to a validated delivery is passed all accepted data and
    then one concluding event, exactly where nothing but chunks arrives while chunks are
    awaited. -/
theorem delivery_concluded {db : Db} {start : DeliverArtifactStart} {id : Uuid}
    {manifest : ArtifactManifest} (hstart : validateDeliveryStart db start = .ok (id, manifest))
    (requests : List InboundItem) {subscribed : List DeliveryChunk → Bool}
    (hstays : Downloader.Stays { subscribed }) :
    (∃ chunk : DeliveryChunk, chunk.concludes ∧
      (deliverArtifact db (.ok (some (.start start)) :: requests) { subscribed }).2.received =
        (acceptedData manifest start.offset requests).map .data ++ [chunk]) ↔
    severed manifest start.offset requests = false := by
  obtain ⟨hstays', hreceived⟩ :=
    @receiveDeliveryChunks_received manifest _ _ hstays {} start.offset requests [] rfl
  rw [deliverArtifact, hstart]
  dsimp only
  rw [deliverStarted]
  rw [List.nil_append] at hreceived
  generalize receiveDeliveryChunks manifest {} start.offset requests { subscribed } =
    r at hstays' hreceived ⊢
  obtain ⟨receipt, downloader⟩ := r
  generalize hs : severed manifest start.offset requests = s at hreceived ⊢
  dsimp only at hstays' hreceived ⊢
  generalize hl : downloader.received = received at hreceived
  cases hreceived with
  | delivered offset digest =>
    obtain ⟨chunk, hc, he⟩ := concludeDelivery_received hstays' hl start.offset offset digest
    exact ⟨fun _ => rfl, fun _ => ⟨chunk, hc, he⟩⟩
  | concluded error chunk hc => exact ⟨fun _ => rfl, fun _ => ⟨chunk, hc, hl⟩⟩
  | severed error =>
    refine ⟨?_, nofun⟩
    rintro ⟨chunk, hc, he⟩
    exact absurd (hl.symm.trans he) (map_data_ne_append_concludes hc)

end Received

namespace Sample

/-- How the image's delivery is announced. -/
def start : DeliverArtifactStart := ⟨61, "t", image, 0⟩

/-- A stream of chunks, and how it ends. -/
def stream (chunks : List ArtifactChunk) (ending : List InboundItem) : List InboundItem :=
  chunks.map (fun chunk => .ok (some (.chunk chunk))) ++ ending

/-- What a client that stays is passed of the image's delivery. -/
def passedOn (requests : List InboundItem) : List DeliveryChunk :=
  (@deliverArtifact sha256 (downloaded []).db (.ok (some (.start start)) :: requests)
    { subscribed := fun _ => true }).2.received

theorem validateDeliveryStart_start :
    validateDeliveryStart (downloaded []).db start = .ok (61, image) := by
  have h : (validateDeliveryStart (downloaded []).db start).toOption = some (61, image) := by
    decide +kernel
  generalize validateDeliveryStart (downloaded []).db start = r at h
  cases r with
  | error e => cases h
  | ok r => exact congrArg _ (Option.some_inj.1 h)

end Sample

/-- A stream that ends early is concluded. -/
theorem delivery_concluded_early :
    ∃ chunk : DeliveryChunk, chunk.concludes ∧
      Sample.passedOn (Sample.stream [⟨0, [1], false⟩] []) = [.data [1]] ++ [chunk] := by
  have haccepted : acceptedData Sample.image Sample.start.offset
      (Sample.stream [⟨0, [1], false⟩] []) = [[1]] := by
    decide +kernel
  have hopen : severed Sample.image Sample.start.offset (Sample.stream [⟨0, [1], false⟩] []) =
      false := by
    decide +kernel
  have hstays : Downloader.Stays { subscribed := fun _ => true } := fun _ => rfl
  have hconcluded := (@delivery_concluded Sample.sha256 _ _ _ _ Sample.validateDeliveryStart_start
    (Sample.stream [⟨0, [1], false⟩] []) _ hstays).2 hopen
  rw [haccepted] at hconcluded
  unfold Sample.passedOn
  exact hconcluded

/-- The transport fails after an accepted chunk: the client is told nothing. -/
theorem delivery_left_open :
    validateDeliveryStart (Sample.downloaded []).db Sample.start = .ok (61, Sample.image) ∧
    Sample.passedOn (Sample.stream [⟨0, [1], false⟩] [.error ⟨.unavailable, "connection reset"⟩]) =
      [.data [1]] :=
  ⟨Sample.validateDeliveryStart_start, by decide +kernel⟩

end Gpq
