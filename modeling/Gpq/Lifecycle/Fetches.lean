import Gpq.Lib.Chunks
import Gpq.Lib.Traverse
import Gpq.Remote.Fetch
import Gpq.Worker.Executor

/-!
# Inputs on their way to the Worker

While the Attempt stays live, the Remote streams an input that it keeps from any offset on in
chunks that cover exactly the rest of its content, and then ends the stream; from the start on,
the Worker puts the content together again.

* `readChunk_of_serves`: what one read sends;
* `stream_cuts`: a stream is a cut of the rest of the content;
* `receiveInputChunks_cuts`: the Worker takes every cut;
* `remoteLocal_roundTrip`: both together;
* `input_guarded`: a Worker is sent bytes of an input only while it holds a lease that entitles it.
-/

namespace Gpq

open Sql DbKey Chunks

/-- A chunk of a message, as a part of the content. -/
def ArtifactChunk.part (self : ArtifactChunk) : Chunk UInt8 :=
  ⟨self.offset.toNat, self.data, self.last⟩

/-- A read finds the input with its content, and the lease still held. -/
structure Serves (attemptId workerId id : Uuid) (content : Bytes) (read : ChunkRead) : Prop where
  committed : read.committed = .ok ()
  found : ∃ db clock row, read.opened = .ok (db, clock) ∧ fetch db (artifact id) = some row ∧
    row.direction = .input ∧ row.placement = .remoteLocal ∧ row.state = .available ∧
    row.content = some content ∧ Artifacts.holdsLease db clock attemptId workerId row.generationId

section Sender

variable (describe : DbError → String) {attemptId workerId id : Uuid} {content : Bytes}
    {read : ChunkRead}
  {total offset : UInt64}

/-- Bytes at positions that count from one. -/
theorem substring_eq (content : Bytes) (offset length : ℕ) :
    Artifacts.substring content (offset + 1 : ℕ) length = (content.drop offset).take length := by
  have hfirst : max ((offset + 1 : ℕ) : ℤ) 1 = (offset + 1 : ℕ) := by omega
  rw [Artifacts.substring]
  simp only [hfirst]
  congr 1
  · omega
  · congr 1
    omega

/-- The bytes of a chunk, for a Worker that holds the lease: positions count from one, and fit
    `int4`. -/
theorem remoteLocalChunk_eq {db : Db} {clock : Time} {row : ArtifactRow} {maxLen : UInt64}
    (hoffset : offset.toNat + 1 ≤ i32Max) (hlen : maxLen.toNat ≤ i32Max)
    (hrow : fetch db (artifact id) = some row)
    (hserved : row.direction = .input ∧ row.placement = .remoteLocal ∧ row.state = .available ∧
      Artifacts.holdsLease db clock attemptId workerId row.generationId)
      (hcontent : row.content = some content) :
    Artifacts.remoteLocalChunk db clock attemptId workerId id offset maxLen =
      .ok (some ((content.drop offset.toNat).take maxLen.toNat)) := by
  have hposition : checkedAdd offset 1 = some (.ofNat (offset.toNat + 1)) := by
    rw [checkedAdd, if_pos]
    have : i32Max + 1 ≤ 2 ^ 64 := by decide
    omega
  have hvalue : (UInt64.ofNat (offset.toNat + 1)).toNat = offset.toNat + 1 :=
    checkedAdd_eq_some hposition
  rw [Artifacts.remoteLocalChunk, hposition]
  simp only [hvalue]
  rw [if_neg (not_lt.2 hoffset), if_neg (not_lt.2 hlen), hrow]
  simp only [Option.bind_eq_bind, Option.bind_some, if_pos hserved, hcontent, substring_eq]
  rfl

/-- What a chunk carries from an offset within the content on: all that remains, or as much as
    a chunk may carry. -/
theorem nextChunkSpan_eq (hoffset : offset ≤ total) :
    ((nextChunkSpan total offset).1).toNat = min (total.toNat - offset.toNat) transferChunkBytes ∧
    (nextChunkSpan total offset).2 = decide (total.toNat - offset.toNat ≤ transferChunkBytes) := by
  have hremaining : (total - offset).toNat = total.toNat - offset.toNat :=
    UInt64.toNat_sub_of_le _ _ hoffset
  have hlimit : (UInt64.ofNat transferChunkBytes).toNat = transferChunkBytes := rfl
  have hmin : (min (total - offset) (.ofNat transferChunkBytes)).toNat =
      min (total.toNat - offset.toNat) transferChunkBytes := by
    rw [UInt64.toNat_min, hremaining, hlimit]
  rw [nextChunkSpan]
  simp only [if_pos hoffset]
  refine ⟨hmin, ?_⟩
  rw [decide_eq_decide, ← UInt64.toNat_inj, hmin, hremaining]
  omega

/-- One read sends what remains, or a chunk of it, and goes on behind it. -/
theorem readChunk_of_serves (hserves : Serves attemptId workerId id content read)
    (hlength : content.length = total.toNat) (hoffset : offset ≤ total)
    (hposition : offset.toNat + 1 ≤ i32Max) :
    ∃ chunk next, readChunk describe attemptId workerId id total offset read = .ok (chunk, next) ∧
      chunk.offset = offset ∧ chunk.data = (content.drop offset.toNat).take transferChunkBytes ∧
      (if (content.drop offset.toNat).length ≤ transferChunkBytes then chunk.last ∧ next = none
        else ¬ chunk.last ∧ ∃ offset', next = some offset' ∧
          offset'.toNat = offset.toNat + transferChunkBytes) := by
  obtain ⟨hcommitted, db, clock, row, hopened, hrow, hinput, hlocal, havailable, hcontent,
    hlease⟩ := hserves
  obtain ⟨hlen, hlast⟩ := nextChunkSpan_eq hoffset
  rw [readChunk]
  generalize nextChunkSpan total offset = span at hlen hlast ⊢
  obtain ⟨len, last⟩ := span
  dsimp only at hlen hlast
  have hrest : (content.drop offset.toNat).length = total.toNat - offset.toNat := by
    rw [List.length_drop, hlength]
  have hfits : len.toNat ≤ i32Max := by
    have : transferChunkBytes ≤ i32Max := by decide
    omega
  have hread := remoteLocalChunk_eq hposition hfits hrow ⟨hinput, hlocal, havailable, hlease⟩ hcontent
  have hsize : ((content.drop offset.toNat).take len.toNat).length = len.toNat := by
    rw [List.length_take, hrest]
    omega
  refine ⟨⟨offset, (content.drop offset.toNat).take len.toNat, last⟩,
    if last then none else some (offset + len), ?_, rfl, ?_, ?_⟩
  · simp only [hopened, hread, hcommitted, Except.mapError, bind, Except.bind]
    rw [if_neg (not_not.2 hsize)]
    rfl
  · rw [List.take_eq_take_iff, hrest]
    omega
  · rw [hrest]
    split
    · rename_i hfinal
      rw [hlast, decide_eq_true hfinal]
      exact ⟨rfl, rfl⟩
    · rename_i hmore
      rw [hlast, decide_eq_false hmore]
      refine ⟨Bool.false_ne_true, offset + len, rfl, ?_⟩
      -- more remains than a chunk carries, so the sum is within the content
      have hle : offset.toNat ≤ total.toNat := UInt64.le_iff_toNat_le.1 hoffset
      have := total.toNat_lt
      rw [UInt64.toNat_add, Nat.mod_eq_of_lt (by omega)]
      omega

/-- A stream ends, and is a cut of the rest of the content. -/
theorem stream_cuts {reads : ℕ → ChunkRead}
    (hserves : ∀ n, Serves attemptId workerId id content (reads n))
    (hlength : content.length = total.toNat) (htotal : total.toNat ≤ i32Max)
    (hoffset : offset ≤ total) (hposition : offset.toNat + 1 ≤ i32Max) :
    ∃ chunks : List ArtifactChunk,
      (∀ fuel, chunks.length < fuel →
        streamRemoteLocal describe attemptId workerId id total fuel reads (some offset) =
          some (chunks.map .ok)) ∧
      Cuts transferChunkBytes offset.toNat (content.drop offset.toNat)
        (chunks.map ArtifactChunk.part) := by
  generalize hrest : content.drop offset.toNat = rest
  induction rest using cut_induction
      (show 0 < transferChunkBytes by decide) generalizing offset reads with
  | final rest hfinal =>
    subst hrest
    obtain ⟨chunk, next, hread, hstart, hdata, hnext⟩ :=
      readChunk_of_serves describe (hserves 0) hlength hoffset hposition
    rw [if_pos hfinal] at hnext
    obtain ⟨hlast, rfl⟩ := hnext
    rw [List.take_of_length_le hfinal] at hdata
    refine ⟨[chunk], fun fuel hfuel => ?_, ?_⟩
    · rw [List.length_singleton] at hfuel
      obtain ⟨fuel, rfl⟩ : ∃ n, fuel = n + 1 + 1 := ⟨fuel - 2, by omega⟩
      rw [streamRemoteLocal, hread]
      dsimp only
      rw [streamRemoteLocal]
      rfl
    · rw [List.map_singleton, ArtifactChunk.part, hstart, hdata, hlast]
      exact .final hfinal
  | more rest hmore ih =>
    subst hrest
    obtain ⟨chunk, next, hread, hstart, hdata, hnext⟩ :=
      readChunk_of_serves describe (hserves 0) hlength hoffset hposition
    rw [if_neg (by omega)] at hnext
    obtain ⟨hlast, offset', rfl, hoffset'⟩ := hnext
    have hlt : offset'.toNat < total.toNat := by
      rw [List.length_drop, hlength] at hmore
      omega
    obtain ⟨chunks, hstream, hcuts⟩ :=
      ih (fun n => hserves (n + 1)) (UInt64.le_iff_toNat_le.2 hlt.le) (by omega)
      (by rw [List.drop_drop, hoffset'])
    refine ⟨chunk :: chunks, fun fuel hfuel => ?_, ?_⟩
    · rw [List.length_cons] at hfuel
      obtain ⟨fuel, rfl⟩ : ∃ n, fuel = n + 1 := ⟨fuel - 1, by omega⟩
      rw [streamRemoteLocal, hread]
      dsimp only
      rw [hstream fuel (by omega)]
      rfl
    · rw [List.map_cons, ArtifactChunk.part, hstart, hdata, Bool.eq_false_iff.2 hlast]
      exact .more_take (by decide) hmore (hoffset' ▸ hcuts)

/-- The Worker holds a lease on an Attempt of the input's Generation. -/
structure Entitled (attemptId workerId id : Uuid) (db : Db) (clock : Time) (row : ArtifactRow) :
    Prop where
  found : fetch db (artifact id) = some row
  input : row.direction = .input
  lease : Artifacts.holdsLease db clock attemptId workerId row.generationId

omit describe in
/-- An input that is found belongs to an Attempt of the Worker. -/
theorem attemptInput_entitled {db : Db} {clock : Time} {row : ArtifactRow}
    (h : Artifacts.attemptInput db clock attemptId workerId id = some row) :
    Entitled attemptId workerId id db clock row := by
  obtain ⟨hfound, hguard⟩ := Option.filter_eq_some_iff.1 h
  obtain ⟨hinput, hlease⟩ := Bool.and_eq_true_iff.1 hguard
  exact ⟨hfound, of_decide_eq_true hinput, hlease⟩

omit describe in
/-- A part that is read is one of an input that the Worker is entitled to. -/
theorem remoteLocalChunk_entitled {db : Db} {clock : Time} {maxLen : UInt64} {data : Bytes}
    (h : Artifacts.remoteLocalChunk db clock attemptId workerId id offset maxLen = .ok (some data)) :
    ∃ row content, Entitled attemptId workerId id db clock row ∧ row.content = some content ∧
      data <+: content.drop offset.toNat := by
  rw [Artifacts.remoteLocalChunk] at h
  cases hposition : checkedAdd offset 1 with
  | none =>
    rw [hposition] at h
    cases h
  | some position =>
    rw [hposition] at h
    dsimp only at h
    by_cases hfar : position.toNat > i32Max
    · rw [if_pos hfar] at h
      cases h
    rw [if_neg hfar] at h
    by_cases hlong : maxLen.toNat > i32Max
    · rw [if_pos hlong] at h
      cases h
    rw [if_neg hlong] at h
    obtain ⟨row, hrow, hdata⟩ := Option.bind_eq_some_iff.1 (Except.ok.inj h)
    split at hdata
    · rename_i hserved
      obtain ⟨content, hcontent, hpart⟩ := Option.bind_eq_some_iff.1 hdata
      have hvalue : position.toNat = offset.toNat + 1 := checkedAdd_eq_some hposition
      rw [hvalue, substring_eq] at hpart
      refine ⟨row, content, ⟨hrow, hserved.1, hserved.2.2.2⟩, hcontent, ?_⟩
      rw [← Option.some.inj hpart]
      exact List.take_prefix ..
    · cases hdata

/-- A chunk that is sent was read while the Worker was entitled to the input. -/
theorem readChunk_entitled {chunk : ArtifactChunk} {next : Option UInt64}
    (h : readChunk describe attemptId workerId id total offset read = .ok (chunk, next)) :
    ∃ db clock row content, read.opened = .ok (db, clock) ∧
      Entitled attemptId workerId id db clock row ∧
      row.content = some content ∧ chunk.data <+: content.drop chunk.offset.toNat := by
  rw [readChunk] at h
  generalize nextChunkSpan total offset = span at h
  obtain ⟨len, last⟩ := span
  obtain ⟨⟨db, clock⟩, hopened, h⟩ := Traverse.bind_eq_ok_iff.1 h
  obtain ⟨data, hdata, h⟩ := Traverse.bind_eq_ok_iff.1 h
  obtain ⟨-, -, h⟩ := Traverse.bind_eq_ok_iff.1 h
  cases data with
  | none => cases h
  | some data =>
    dsimp only at h
    by_cases hshort : data.length ≠ len.toNat
    · rw [if_pos hshort] at h
      cases h
    rw [if_neg hshort] at h
    obtain ⟨rfl, -⟩ := Prod.mk.inj (Except.ok.inj h)
    obtain ⟨row, content, hentitled, hcontent, hpart⟩ :=
      remoteLocalChunk_entitled (Traverse.mapError_eq_ok_iff.1 hdata)
    exact ⟨db, clock, row, content, Traverse.mapError_eq_ok_iff.1 hopened, hentitled, hcontent, hpart⟩

/-- Every chunk of a stream was read while the Worker was entitled to the input. -/
theorem streamRemoteLocal_entitled : ∀ {fuel : ℕ} {reads : ℕ → ChunkRead} {cursor : Option UInt64}
    {items : List (Except ConnectError ArtifactChunk)},
    streamRemoteLocal describe attemptId workerId id total fuel reads cursor = some items →
    ∀ n chunk, items[n]? = some (.ok chunk) →
    ∃ db clock row content, (reads n).opened = .ok (db, clock) ∧
      Entitled attemptId workerId id db clock row ∧ row.content = some content ∧
        chunk.data <+: content.drop chunk.offset.toNat := by
  intro fuel
  induction fuel with
  | zero =>
    intro reads cursor items h
    cases h
  | succ fuel ih =>
    intro reads cursor items h n chunk hchunk
    cases cursor with
    | none =>
      obtain rfl := Option.some.inj h
      cases hchunk
    | some offset =>
      rw [streamRemoteLocal] at h
      cases hread : readChunk describe attemptId workerId id total offset (reads 0) with
      | error error =>
        rw [hread] at h
        obtain rfl := Option.some.inj h
        cases n with
        | zero => cases hchunk
        | succ n => cases hchunk
      | ok sent =>
        rw [hread] at h
        obtain ⟨later, hlater, rfl⟩ := Option.map_eq_some_iff.1 h
        cases n with
        | zero =>
          obtain rfl := Except.ok.inj (Option.some.inj hchunk)
          exact readChunk_entitled describe hread
        | succ n => exact ih hlater n chunk hchunk

end Sender

section Receiver

variable {download : Download} {received : InputFile}

/-- The file with the data of one more chunk. -/
def InputFile.extend (self : InputFile) (data : Bytes) : InputFile :=
  ⟨.ofNat (self.total.toNat + data.length), self.hasher.update data, self.bytes ++ data⟩

/-- The Worker takes a chunk that starts where the file ends. -/
theorem receiveInputChunks_cons (hwritten : ∀ offset data, download.written offset data = .ok ())
    {chunk : ArtifactChunk} (hoffset : chunk.offset = received.total)
    (hle : chunk.data.length ≤ transferChunkBytes)
    (hfits : received.total.toNat + chunk.data.length < 2 ^ 64)
    (messages : List (Except String ArtifactChunk)) :
    receiveInputChunks download received (.ok chunk :: messages) =
      if chunk.last then .ok (received.extend chunk.data)
      else receiveInputChunks download (received.extend chunk.data) messages := by
  have hright : ¬ (chunk.offset ≠ received.total ∨ chunk.data.length > transferChunkBytes) := by
    rintro (hne | hgt)
    · exact hne hoffset
    · omega
  rw [receiveInputChunks, if_neg hright, checkedAdd, if_pos hfits]
  dsimp only
  rw [InputFile.append, hwritten]
  rfl

/-- The Worker takes every cut, and appends its data to the file. -/
theorem receiveInputChunks_cuts (hwritten : ∀ offset data, download.written offset data = .ok ())
    {chunks : List ArtifactChunk} {data : Bytes}
    (h : Cuts transferChunkBytes received.total.toNat data (chunks.map ArtifactChunk.part))
    (hfits : received.total.toNat + data.length < 2 ^ 64) :
    receiveInputChunks download received (chunks.map .ok) = .ok (received.extend data) := by
  generalize hoffset : received.total.toNat = offset at h hfits
  generalize hparts : chunks.map ArtifactChunk.part = parts at h
  induction h generalizing chunks received with
  | final hle =>
    obtain ⟨chunk, rfl, hpart⟩ := List.map_eq_singleton_iff.1 hparts
    obtain ⟨hstart, rfl, hlast⟩ := Chunk.mk.inj hpart
    rw [← hoffset, UInt64.toNat_inj] at hstart
    rw [List.map_singleton, receiveInputChunks_cons hwritten hstart hle (hoffset ▸ hfits),
      if_pos hlast]
  | @more offset data rest parts hne hle hrest _ ih =>
    obtain ⟨chunk, chunks, rfl, hpart, hlater⟩ := List.map_eq_cons_iff.1 hparts
    obtain ⟨hstart, rfl, hlast⟩ := Chunk.mk.inj hpart
    rw [← hoffset, UInt64.toNat_inj] at hstart
    rw [List.length_append] at hfits
    have hnext : received.total.toNat + chunk.data.length < 2 ^ 64 := by omega
    have htotal : (received.extend chunk.data).total.toNat = offset + chunk.data.length := by
      rw [← hoffset]
      exact UInt64.toNat_ofNat_of_lt' hnext
    rw [List.map_cons, receiveInputChunks_cons hwritten hstart hle hnext, hlast,
      if_neg Bool.false_ne_true, ih htotal (by omega) hlater]
    simp only [InputFile.extend, Hasher.update, List.length_append, List.append_assoc]
    rw [UInt64.toNat_ofNat_of_lt' hnext, Nat.add_assoc]

end Receiver

/-- While its reads find the content and the lease, a stream from an offset on ends, and its
    chunks cover exactly the rest of the content; from the start on, the Worker takes them and
    has the content. -/
theorem remoteLocal_roundTrip (describe : DbError → String) {attemptId workerId id : Uuid}
    {content : Bytes} {total start : UInt64} {reads : ℕ → ChunkRead}
    (hserves : ∀ n, Serves attemptId workerId id content (reads n))
    (hlength : content.length = total.toNat) (htotal : total.toNat ≤ i32Max) (hstart : start ≤ total)
    (hposition : start.toNat + 1 ≤ i32Max) :
    ∃ chunks : List ArtifactChunk,
      (∀ fuel, chunks.length < fuel →
        streamRemoteLocal describe attemptId workerId id total fuel reads (some start) =
          some (chunks.map .ok)) ∧
      Spans transferChunkBytes start.toNat (content.drop start.toNat)
        (chunks.map ArtifactChunk.part) ∧
      ∀ (leaseInput : LeaseInput) (download : Download), start = 0 → leaseInput.downloadUrl = "" →
        download.stream = .ok (chunks.map .ok) →
        (∀ offset data, download.written offset data = .ok ()) →
        fetchRemoteLocalInput leaseInput download = .ok ⟨total, ⟨content⟩, content⟩ := by
  obtain ⟨chunks, hstream, hcuts⟩ := stream_cuts describe hserves hlength htotal hstart hposition
  refine ⟨chunks, hstream, hcuts.spans, ?_⟩
  rintro leaseInput download rfl hurl hmessages hwritten
  have hfits : (0 : UInt64).toNat + content.length < 2 ^ 64 := by
    have := total.toNat_lt
    rw [UInt64.toNat_zero, hlength]
    omega
  have hreceived : receiveInputChunks download {} (chunks.map .ok) =
      .ok (InputFile.extend {} content) :=
    receiveInputChunks_cuts hwritten hcuts hfits
  rw [fetchRemoteLocalInput, if_neg (not_not.2 hurl), hmessages]
  refine hreceived.trans ?_
  simp only [InputFile.extend, Hasher.update, UInt64.toNat_zero, List.nil_append, Nat.zero_add,
    hlength, UInt64.ofNat_toNat]

namespace Sample

/-- The manifest of one byte. -/
def onePixel : ArtifactManifest :=
  ⟨1, 0x4bf5122f344554c53bde2ebb8cd2b7e3d1600ad631c385a5d7cce23c7785459a, .image, "image/png"⟩

/-- A digest that is right for that byte. -/
@[reducible] def oneByte : Sha256 :=
  ⟨fun _ => 0x4bf5122f344554c53bde2ebb8cd2b7e3d1600ad631c385a5d7cce23c7785459a⟩

/-- A film of two and a half million bytes. -/
def filmBytes : Bytes := List.replicate 2500000 7

/-- The film, which the Remote keeps for a Generation. -/
def storedFilm : ArtifactRow where
  generationId := some 31
  direction := .input
  state := .available
  placement := .remoteLocal
  manifest := { onePixel with sizeBytes := 2500000 }
  content := some filmBytes
  createdAt := 0
  object_key_check := nofun
  worker_check := nofun
  remote_local_is_input := fun _ => rfl

/-- The first Worker runs the Generation. -/
def runningAttempt : AttemptRow where
  generationId := 31
  attemptNumber := 1
  state := .running
  workerId := 11
  poolId := 21
  slotKey := displayUuid 21
  leaseExpiresAt := 30
  createdAt := 0
  attempt_number_check := by decide

/-- A database that serves the film. -/
def serving : Db :=
  store (store (store { tenantId := 1 } (worker 11) (some ⟨"alpha", [], none⟩)) (attempt 41)
    (some runningAttempt)) (artifact 6) (some storedFilm)

theorem serves_film (n : ℕ) :
    Serves 41 11 6 filmBytes ((fun _ => ⟨.ok (serving, 0), .ok ()⟩ : ℕ → ChunkRead) n) :=
  ⟨rfl, _, _, storedFilm, rfl, rfl, rfl, rfl, rfl, rfl, by decide +kernel⟩

/-- The input of the lease. -/
def leasedInput (id : Uuid) : LeaseInput where
  artifactId := displayUuid id
  manifest := ⟨1, "4bf5122f344554c53bde2ebb8cd2b7e3d1600ad631c385a5d7cce23c7785459a", .ok .image,
    "image/png"⟩
  placement := .remoteLocal
  downloadUrl := ""

end Sample

/-- The film is streamed in several chunks, and put into the file. -/
theorem remoteLocal_roundTrip_film : ∃ chunks : List ArtifactChunk, 2 < chunks.length ∧
    Spans transferChunkBytes 0 Sample.filmBytes (chunks.map ArtifactChunk.part) ∧
    fetchRemoteLocalInput (Sample.leasedInput 6) { stream := .ok (chunks.map .ok) } =
      .ok ⟨2500000, ⟨Sample.filmBytes⟩, Sample.filmBytes⟩ := by
  have hlength : Sample.filmBytes.length = (2500000 : UInt64).toNat := List.length_replicate
  obtain ⟨chunks, -, hspans, hfetch⟩ :=
    @remoteLocal_roundTrip (fun _ => "") 41 11 6 Sample.filmBytes 2500000 0 _
    Sample.serves_film hlength (by decide) (by decide) (by decide)
  refine ⟨chunks, ?_, hspans, hfetch _ _ rfl rfl rfl fun _ _ => rfl⟩
  have hle := hspans.length_le
  rw [UInt64.toNat_zero, List.drop_zero, hlength, List.length_map, transferChunkBytes] at hle
  have : (2500000 : UInt64).toNat = 2500000 := rfl
  omega

/-- The Remote answers a `FetchArtifact` call only where the Worker is entitled to the input, and
    every chunk that it sends was read while the Worker still was: it holds bytes of the input's
    content from the chunk's offset on. -/
theorem input_guarded [UuidText] (describe : DbError → String) {attemptId workerId id : Uuid}
    {total : UInt64} :
    (∀ db clock request sent, fetchArtifact db clock workerId request = .ok sent →
      ∃ row, Entitled sent.1 workerId sent.2.1 db clock row ∧ row.placement = .remoteLocal ∧
        row.state = .available ∧ request.offset ≤ row.manifest.sizeBytes ∧
          sent.2.2 = row.manifest.sizeBytes) ∧
    ∀ fuel reads cursor items, streamRemoteLocal describe attemptId workerId id total fuel reads
      cursor = some items →
      ∀ n chunk, items[n]? = some (.ok chunk) →
      ∃ db clock row content, (reads n).opened = .ok (db, clock) ∧
        Entitled attemptId workerId id db clock row ∧ row.content = some content ∧
          chunk.data <+: content.drop chunk.offset.toNat := by
  refine ⟨fun db clock request sent h => ?_,
    fun fuel reads cursor items h => streamRemoteLocal_entitled describe h⟩
  obtain ⟨artifactId, -, h⟩ := Traverse.bind_eq_ok_iff.1 h
  obtain ⟨attemptId, -, h⟩ := Traverse.bind_eq_ok_iff.1 h
  cases hinput : Artifacts.attemptInput db clock attemptId workerId artifactId with
  | none =>
    rw [hinput] at h
    cases h
  | some row =>
    rw [hinput] at h
    dsimp only at h
    by_cases hready : row.placement ≠ .remoteLocal ∨ row.state ≠ .available
    · rw [if_pos hready] at h
      cases h
    rw [if_neg hready] at h
    by_cases hpast : request.offset > row.manifest.sizeBytes
    · rw [if_pos hpast] at h
      cases h
    rw [if_neg hpast] at h
    obtain rfl := Except.ok.inj h
    obtain ⟨hplacement, hstate⟩ := not_or.1 hready
    exact ⟨row, attemptInput_entitled hinput, not_not.1 hplacement, not_not.1 hstate,
      UInt64.not_lt.1 hpast, rfl⟩

/-- The call for the film is answered, and what is sent was read under the lease. -/
theorem input_guarded_film : Entitled 41 11 6 Sample.serving 0 Sample.storedFilm ∧
    ∃ chunk : ArtifactChunk, chunk.data <+: Sample.filmBytes.drop chunk.offset.toNat := by
  let _ : UuidText := ⟨fun text => .ok (if text = "film" then 6 else 41)⟩
  have hcall : fetchArtifact Sample.serving 0 11 ⟨"film", "attempt", 0⟩ = .ok (41, 6, 2500000) := rfl
  have hlength : Sample.filmBytes.length = (2500000 : UInt64).toNat := List.length_replicate
  obtain ⟨chunks, hstream, hcuts⟩ := @stream_cuts (fun _ => "") 41 11 6 Sample.filmBytes 2500000 0 _
    Sample.serves_film hlength (by decide) (by decide) (by decide)
  have hguarded := @input_guarded _ (fun _ => "") 41 11 6 2500000
  obtain ⟨row, hentitled, -⟩ := hguarded.1 _ _ _ _ hcall
  obtain rfl : row = Sample.storedFilm := Option.some.inj (hentitled.found.symm.trans rfl)
  refine ⟨hentitled, ?_⟩
  -- the stream has a first chunk
  have hne : chunks ≠ [] := by
    rintro rfl
    have hle := hcuts.spans.length_le
    rw [UInt64.toNat_zero, List.drop_zero, hlength, List.map_nil, List.length_nil,
      Nat.zero_mul] at hle
    exact absurd hle (by decide)
  obtain ⟨chunk, later, rfl⟩ := List.exists_cons_of_ne_nil hne
  obtain ⟨_, _, row, content, hopened, hsent, hcontent, hpart⟩ :=
    hguarded.2 _ _ _ _ (hstream _ (Nat.lt_succ_self _)) 0 chunk rfl
  cases hopened
  obtain rfl : row = Sample.storedFilm := Option.some.inj (hsent.found.symm.trans rfl)
  obtain rfl := Option.some.inj hcontent
  exact ⟨chunk, hpart⟩

end Gpq
