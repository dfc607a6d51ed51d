import Gpq.Lifecycle.Fetches
import Gpq.Lifecycle.Transfers
import Gpq.Worker.Artifacts

/-!
# Outputs on their way to the Remote

A published output whose file matches its manifest is read from any offset on in chunks that
cover exactly the rest of the file, however little each read of the file returns; and the
Remote, asked to receive them from the same offset on, accepts them.

* `DataFile.fill_eq`: short reads fill the buffer all the same;
* `nextChunk_of_reading`: what one chunk of a read carries;
* `readChunks_cuts`: a read is a cut of the rest of the file;
* `receiveDeliveryChunks_cuts`: the Remote takes every cut up to the size of the manifest;
* `delivery_accepted`: both together.
-/

namespace Gpq

open Sql DbKey Chunks

/-- Every read of the file succeeds. -/
def Readable (reads : ℕ → Except String ℕ) : Prop := ∀ n, ∃ more, reads n = .ok more

/-- A read of the file fails, and this ends the filling; or so many reads succeed, and short ones
    fill the buffer, unless the file ends. -/
theorem DataFile.fill_cases (file : DataFile) (room : ℕ) :
    (∃ n error, file.reads n = .error error ∧ file.fill room = .error error) ∨
    ∃ k, (0 < room → 0 < k) ∧ (∀ n < k, ∃ more, file.reads n = .ok more) ∧
      file.fill room = .ok ((file.bytes.drop file.position).take room,
        ⟨file.bytes, file.position + ((file.bytes.drop file.position).take room).length,
          fun n => file.reads (n + k)⟩) := by
  induction room using Nat.strong_induction_on generalizing file with
  | h room ih =>
    rw [fill]
    split
    · rename_i hzero
      rw [hzero, List.take_zero]
      exact .inr ⟨0, fun h => absurd h (lt_irrefl 0), fun n hn => absurd hn n.not_lt_zero, rfl⟩
    rename_i hroom
    cases hfirst : file.reads 0 with
    | error error =>
      have hread : file.read room = .error error := by
        rw [read, hfirst]
        rfl
      rw [hread]
      exact .inl ⟨0, error, hfirst, rfl⟩
    | ok more =>
      generalize hrest : file.bytes.drop file.position = rest
      have hread : file.read room = .ok (rest.take (min room (more + 1)),
          ⟨file.bytes, file.position + (rest.take (min room (more + 1))).length,
              fun n => file.reads (n + 1)⟩) := by
        rw [read, hfirst, ← hrest]
        rfl
      rw [hread]
      cases hdata : rest.take (min room (more + 1)) with
      | nil =>
        -- there was room for a byte, so the file is at its end
        have hend : rest = [] := by
          rcases List.take_eq_nil_iff.1 hdata with hnone | hend
          · omega
          · exact hend
        rw [hend, List.take_nil]
        exact .inr ⟨1, fun _ => one_pos, fun n hn => Nat.lt_one_iff.1 hn ▸ ⟨more, hfirst⟩, rfl⟩
      | cons byte data =>
        have hlength : (rest.take (min room (more + 1))).length = data.length + 1 := by
          rw [hdata, List.length_cons]
        rw [List.length_take] at hlength
        have hlater := ih (room - (data.length + 1)) (by omega)
          ⟨file.bytes, file.position + (byte :: data).length, fun n => file.reads (n + 1)⟩
        have hsplit : byte :: data ++ (rest.drop (data.length + 1)).take (room - (data.length + 1)) =
            rest.take room := by
          have htake : rest.take (data.length + 1) = byte :: data := by
            rw [← hdata, List.take_eq_take_iff]
            omega
          rw [← htake, ← List.take_add]
          congr 1
          omega
        dsimp only at hlater ⊢
        rw [List.length_cons, ← List.drop_drop, hrest] at hlater
        rw [List.length_cons]
        rcases hlater with ⟨n, error, hn, hfill⟩ | ⟨k, -, hk, hfill⟩
        · rw [hfill]
          exact .inl ⟨n + 1, error, hn, rfl⟩
        · rw [hfill, ← hsplit]
          refine .inr ⟨k + 1, fun _ => k.succ_pos, fun n hn => ?_, ?_⟩
          · rcases n with _ | n
            · exact ⟨more, hfirst⟩
            · exact hk n (Nat.lt_of_succ_lt_succ hn)
          · rw [List.length_append, List.length_cons, Nat.add_assoc]
            rfl

/-- Short reads fill the buffer, unless the file ends. -/
theorem DataFile.fill_eq {file : DataFile} (hreads : Readable file.reads) (room : ℕ) :
    ∃ reads', Readable reads' ∧ file.fill room = .ok ((file.bytes.drop file.position).take room,
      ⟨file.bytes, file.position + ((file.bytes.drop file.position).take room).length, reads'⟩) := by
  rcases file.fill_cases room with ⟨n, error, hn, -⟩ | ⟨k, -, -, hfill⟩
  · obtain ⟨more, hmore⟩ := hreads n
    rw [hn] at hmore
    cases hmore
  · exact ⟨_, fun n => hreads (n + k), hfill⟩

/-! ## The Worker -/

/-- The file matches the manifest. -/
structure StoredArtifact.Matches [Sha256] (stored : StoredArtifact) : Prop where
  length : stored.data.length = stored.manifest.sizeBytes.toNat
  digest : Sha256.digest stored.data = stored.manifest.digest

/-- A chunk of a read, as a part of the file. -/
def ArtifactChunkData.part (self : ArtifactChunkData) : Chunk UInt8 :=
  ⟨self.offset.toNat, self.data, self.last⟩

section Worker

variable [Sha256] {stored : StoredArtifact} {start : UInt64} {reader : ArtifactReader}

omit [Sha256] in
/-- Nothing remains of the size from a position on that reaches it. -/
theorem remaining_eq_zero {size position : UInt64} :
    (if position ≤ size then size - position else 0) = 0 ↔ size ≤ position := by
  split
  · rename_i hle
    rw [← UInt64.toNat_inj, UInt64.toNat_sub_of_le _ _ hle, UInt64.toNat_zero, Nat.sub_eq_zero_iff_le,
      UInt64.le_iff_toNat_le]
  · rename_i hgt
    exact ⟨fun _ => UInt64.le_of_lt (UInt64.not_le.1 hgt), fun _ => rfl⟩

/-- A chunk carries what filled the buffer. It is the final one where the size of the manifest is
    reached, and from zero on the digest then has to be that of the manifest. -/
theorem ArtifactReader.nextChunk_eq (hopen : reader.done = false) {buf : Bytes} {file : DataFile}
    (hfill : reader.file.fill transferChunkBytes = .ok (buf, file)) :
    reader.nextChunk =
      let position := reader.position + .ofNat buf.length
      let last := decide (reader.manifest.sizeBytes ≤ position)
      let hasher := if reader.startedAtZero then reader.hasher.update buf else reader.hasher
      (if reader.startedAtZero && last then
        (reader.manifest.verify position hasher.finish).mapError ReadError.mismatch
            else .ok ()).map fun _ =>
          (some ⟨reader.position, buf, last⟩,
              { reader with file, position, hasher, done := last }) := by
  rw [nextChunk, hopen, if_neg Bool.false_ne_true, hfill]
  -- an empty chunk at the end is the final one anyway
  have hout (r : ArtifactReader) :
      (if buf = [] ∧ reader.position = reader.manifest.sizeBytes then
        pure (some ⟨reader.position, buf, true⟩, r)
      else pure (some ⟨reader.position, buf,
        decide (reader.manifest.sizeBytes ≤ reader.position + .ofNat buf.length)⟩, r)) =
      (.ok (some ⟨reader.position, buf,
        decide (reader.manifest.sizeBytes ≤ reader.position + .ofNat buf.length)⟩, r) :
          Except ReadError (Option ArtifactChunkData × ArtifactReader)) := by
    split
    · rename_i hempty
      obtain ⟨rfl, hend⟩ := hempty
      have hlast : reader.manifest.sizeBytes ≤ reader.position + .ofNat ([] : Bytes).length := by
        rw [hend]
        exact (UInt64.add_zero reader.manifest.sizeBytes).symm ▸ UInt64.le_refl _
      rw [decide_eq_true hlast]
      rfl
    · rfl
  simp only [Except.mapError, bind, Except.bind, remaining_eq_zero, hout, Bool.false_or]
  split
  · split <;> rename_i hverify <;> rw [hverify] <;> rfl
  · rfl

/-- A read that started at an offset and is not over. -/
structure Reading (stored : StoredArtifact) (start : UInt64) (reader : ArtifactReader) : Prop where
  bytes : reader.file.bytes = stored.data
  seek : reader.file.position = reader.position.toNat
  reads : Readable reader.file.reads
  manifest : reader.manifest = stored.manifest
  started : reader.startedAtZero = decide (start = 0)
  /-- From zero on, everything so far was hashed. -/
  hashed : start = 0 → reader.hasher.bytes = stored.data.take reader.position.toNat
  position : reader.position ≤ stored.manifest.sizeBytes
  open_ : reader.done = false

/-- A file that matches its manifest passes the check of its size and digest. -/
theorem StoredArtifact.Matches.verified (hmatches : stored.Matches) {count : UInt64} {hasher : Hasher}
    (hcount : count = stored.manifest.sizeBytes) (hhashed : hasher.bytes = stored.data) :
    stored.manifest.verify count hasher.finish = .ok () := by
  have hdigest : hasher.finish = stored.manifest.digest := by
    rw [Hasher.finish, hhashed, hmatches.digest]
  rw [ArtifactManifest.verify, hcount, hdigest, if_neg (not_not.2 rfl), if_neg (not_not.2 rfl)]

/-- A chunk carries what remains, or as much of it as a chunk may, and the read goes on behind
    it. -/
theorem nextChunk_of_reading (hmatches : stored.Matches) (h : Reading stored start reader) :
    ∃ chunk reader', reader.nextChunk = .ok (some chunk, reader') ∧ chunk.offset = reader.position ∧
      chunk.data = (stored.data.drop reader.position.toNat).take transferChunkBytes ∧
      (if (stored.data.drop reader.position.toNat).length ≤ transferChunkBytes then
        chunk.last ∧ reader'.done
      else ¬ chunk.last ∧ Reading stored start reader' ∧
        reader'.position.toNat = reader.position.toNat + transferChunkBytes) := by
  obtain ⟨reads', hreads', hfill⟩ := DataFile.fill_eq h.reads transferChunkBytes
  rw [h.bytes, h.seek] at hfill
  have hsize := hmatches.length
  have hle : reader.position.toNat ≤ stored.manifest.sizeBytes.toNat :=
    UInt64.le_iff_toNat_le.1 h.position
  have hrest : (stored.data.drop reader.position.toNat).length =
      stored.manifest.sizeBytes.toNat - reader.position.toNat := by rw [List.length_drop, hsize]
  generalize hbuf : (stored.data.drop reader.position.toNat).take transferChunkBytes = buf at hfill ⊢
  have hlength : buf.length =
      min transferChunkBytes (stored.manifest.sizeBytes.toNat - reader.position.toNat) := by
    rw [← hbuf, List.length_take, hrest]
  have hnext : (reader.position + .ofNat buf.length).toNat = reader.position.toNat + buf.length := by
    have := stored.manifest.sizeBytes.toNat_lt
    have hfits : buf.length < 2 ^ 64 := by omega
    rw [UInt64.toNat_add, UInt64.toNat_ofNat_of_lt' hfits, Nat.mod_eq_of_lt (by omega)]
  have hlast : reader.manifest.sizeBytes ≤ reader.position + .ofNat buf.length ↔
      (stored.data.drop reader.position.toNat).length ≤ transferChunkBytes := by
    rw [h.manifest, UInt64.le_iff_toNat_le, hnext, hrest]
    omega
  generalize hfinal : decide
    ((stored.data.drop reader.position.toNat).length ≤ transferChunkBytes) = final
  let hasher := if reader.startedAtZero then reader.hasher.update buf else reader.hasher
  have hhashed : start = 0 →
      hasher.bytes = stored.data.take (reader.position.toNat + buf.length) := by
    intro hstart
    have hbuf' : (stored.data.drop reader.position.toNat).take buf.length = buf := by
      rw [← hbuf, List.take_eq_take_iff, hbuf, hrest]
      omega
    simp only [hasher, h.started, hstart, decide_true, if_true, Hasher.update, h.hashed hstart]
    rw [List.take_add, hbuf']
  have hverified : (if reader.startedAtZero && final then (reader.manifest.verify
      (reader.position + .ofNat buf.length) hasher.finish).mapError ReadError.mismatch
          else .ok ()) = .ok () := by
    split
    · rename_i hboth
      obtain ⟨hstarted, rfl⟩ := Bool.and_eq_true_iff.1 hboth
      rw [h.started, decide_eq_true_eq] at hstarted
      rw [decide_eq_true_eq] at hfinal
      have hwhole : reader.position.toNat + buf.length = stored.manifest.sizeBytes.toNat := by omega
      have hcount : reader.position + .ofNat buf.length = stored.manifest.sizeBytes :=
        UInt64.toNat_inj.1 (hnext.trans hwhole)
      have hall : hasher.bytes = stored.data := by
        rw [hhashed hstarted, hwhole, ← hsize, List.take_length]
      rw [h.manifest, hmatches.verified hcount hall]
      rfl
    · rfl
  have hchunk : reader.nextChunk = .ok (some ⟨reader.position, buf, final⟩,
      { reader with
        file := ⟨stored.data, reader.position.toNat + buf.length, reads'⟩
        position := reader.position + .ofNat buf.length
        hasher
        done := final }) := by
    have hnext := ArtifactReader.nextChunk_eq h.open_ hfill
    simp only [hlast, hfinal] at hnext
    exact hnext.trans (congrArg _ hverified)
  refine ⟨_, _, hchunk, rfl, rfl, ?_⟩
  split
  · rename_i hle
    rw [← hfinal]
    exact ⟨decide_eq_true hle, decide_eq_true hle⟩
  · rename_i hgt
    have hfull : buf.length = transferChunkBytes := by omega
    rw [decide_eq_false hgt] at hfinal
    refine ⟨by rw [← hfinal]; exact Bool.false_ne_true, ?_, by rw [← hfull]; exact hnext⟩
    exact ⟨rfl, hnext.symm, hreads', h.manifest, h.started,
      fun hstart => (hhashed hstart).trans (hnext ▸ rfl),
      UInt64.le_iff_toNat_le.2 (by rw [hnext]; omega), hfinal.symm⟩

/-- A read ends, and is a cut of the rest of the file; nothing comes behind it. -/
theorem readChunks_cuts (hmatches : stored.Matches) (h : Reading stored start reader) :
    ∃ chunks reader', (∀ fuel, chunks.length ≤ fuel →
      Worker.readChunks fuel reader = some (.ok (chunks, reader'))) ∧
      reader'.nextChunk = .ok (none, reader') ∧
      Cuts transferChunkBytes reader.position.toNat (stored.data.drop reader.position.toNat)
        (chunks.map ArtifactChunkData.part) := by
  generalize hrest : stored.data.drop reader.position.toNat = rest
  induction rest using cut_induction (show 0 < transferChunkBytes by decide) generalizing reader with
  | final rest hfinal =>
    subst hrest
    obtain ⟨chunk, reader', hnext, hoffset, hdata, hend⟩ := nextChunk_of_reading hmatches h
    rw [if_pos hfinal] at hend
    obtain ⟨hlast, hdone⟩ := hend
    rw [List.take_of_length_le hfinal] at hdata
    refine ⟨[chunk], reader', fun fuel hfuel => ?_, ?_, ?_⟩
    · obtain ⟨fuel, rfl⟩ : ∃ n, fuel = n + 1 :=
        ⟨fuel - 1, by rw [List.length_singleton] at hfuel; omega⟩
      rw [Worker.readChunks, hnext]
      dsimp only
      rw [if_pos hlast]
    · rw [ArtifactReader.nextChunk, if_pos hdone]
      rfl
    · rw [List.map_singleton, ArtifactChunkData.part, hoffset, hdata, hlast]
      exact .final hfinal
  | more rest hmore ih =>
    subst hrest
    obtain ⟨chunk, reader', hnext, hoffset, hdata, hgoes⟩ := nextChunk_of_reading hmatches h
    rw [if_neg (by omega)] at hgoes
    obtain ⟨hlast, hreading, hposition⟩ := hgoes
    obtain ⟨chunks, reader'', hread, hend, hcuts⟩ := ih hreading (by rw [List.drop_drop, hposition])
    refine ⟨chunk :: chunks, reader'', fun fuel hfuel => ?_, hend, ?_⟩
    · rw [List.length_cons] at hfuel
      obtain ⟨fuel, rfl⟩ : ∃ n, fuel = n + 1 := ⟨fuel - 1, by omega⟩
      rw [Worker.readChunks, hnext]
      dsimp only
      rw [if_neg hlast, hread fuel (by omega)]
      rfl
    · rw [List.map_cons, ArtifactChunkData.part, hoffset, hdata, Bool.eq_false_iff.2 hlast]
      exact .more_take (by decide) hmore (hposition ▸ hcuts)

omit [Sha256] in
/-- A published output is opened at any offset up to its size that its file seeks to. -/
theorem reading_of_openForRead [UuidText] {artifacts : LocalArtifactStore} {token : String}
    {id : Uuid} (htoken : UuidText.parse token = .ok id) (hstored : artifacts id = .ok stored)
    (hseek : stored.seek start = .ok ())
    (hreads : Readable stored.reads) (hstart : start ≤ stored.manifest.sizeBytes) :
    ∃ reader, artifacts.openForRead token start = .ok reader ∧ reader.position = start ∧
      Reading stored start reader := by
  have hwithin : ¬ start > stored.manifest.sizeBytes := UInt64.not_lt.2 hstart
  refine ⟨⟨⟨stored.data, start.toNat, stored.reads⟩, stored.manifest, decide (start = 0), start, {},
    false⟩, ?_, rfl, rfl, rfl, hreads, rfl, rfl, ?_, hstart, rfl⟩
  · rw [LocalArtifactStore.openForRead, htoken]
    simp only [bind, Except.bind, hstored]
    rw [if_neg hwithin]
    simp only [hseek]
    rfl
  · rintro rfl
    rfl

end Worker

/-! ## The Remote -/

section Remote

variable {manifest : ArtifactManifest} {downloader : Downloader}

/-- A chunk that starts where the last one ended is acceptable within the manifest's size. -/
theorem followingOffset_eq {nextOffset : UInt64} {chunk : ArtifactChunk}
    (hoffset : chunk.offset = nextOffset) (hle : chunk.data.length ≤ transferChunkBytes)
    (hwithin : nextOffset.toNat + chunk.data.length ≤ manifest.sizeBytes.toNat) :
    followingOffset manifest nextOffset chunk =
      .ok (.ofNat (nextOffset.toNat + chunk.data.length)) := by
  have hfits : nextOffset.toNat + chunk.data.length < 2 ^ 64 := by
    have := manifest.sizeBytes.toNat_lt
    omega
  have hsize : UInt64.ofNat (nextOffset.toNat + chunk.data.length) ≤ manifest.sizeBytes := by
    rw [UInt64.le_iff_toNat_le, UInt64.toNat_ofNat_of_lt' hfits]
    exact hwithin
  have hacceptable : (chunk.data.length ≤ transferChunkBytes &&
      UInt64.ofNat (nextOffset.toNat + chunk.data.length) ≤ manifest.sizeBytes) = true :=
    Bool.and_eq_true_iff.2 ⟨decide_eq_true hle, decide_eq_true hsize⟩
  rw [followingOffset, nextDeliveryOffset, if_neg (not_not.2 hoffset), checkedAdd, if_pos hfits]
  simp only [Option.elim_some]
  rw [if_pos hacceptable]

variable [Sha256]

/-- The Remote passes an acceptable chunk on to a downloader that stays. -/
theorem receiveDeliveryChunks_cons (hstays : downloader.Stays) {datas : List Bytes}
    (hreceived : downloader.received = datas.map .data) (hasher : Hasher) {nextOffset : UInt64}
    {chunk : ArtifactChunk} (hoffset : chunk.offset = nextOffset)
    (hle : chunk.data.length ≤ transferChunkBytes)
    (hwithin : nextOffset.toNat + chunk.data.length ≤ manifest.sizeBytes.toNat)
    (requests : List InboundItem) :
    ∃ downloader', downloader'.Stays ∧ downloader'.received = (datas ++ [chunk.data]).map .data ∧
      receiveDeliveryChunks manifest hasher nextOffset
        (.ok (some (.chunk chunk)) :: requests) downloader =
        if chunk.last then
          (.ok (.delivered (.ofNat (nextOffset.toNat + chunk.data.length))
            (hasher.update chunk.data).finish), downloader')
        else receiveDeliveryChunks manifest (hasher.update chunk.data)
          (.ofNat (nextOffset.toNat + chunk.data.length))
          requests downloader' := by
  refine ⟨{ downloader with received := datas.map .data ++ [.data chunk.data] }, hstays, ?_, ?_⟩
  · rw [List.map_append]
    rfl
  · rw [receiveDeliveryChunks, followingOffset_eq hoffset hle hwithin]
    dsimp only
    rw [hstays.push hreceived]

/-- The Remote takes every cut that ends with the manifest's size. -/
theorem receiveDeliveryChunks_cuts (hstays : downloader.Stays) {datas : List Bytes}
    (hreceived : downloader.received = datas.map .data) (hasher : Hasher) {nextOffset : UInt64}
    {chunks : List ArtifactChunk} {data : Bytes}
    (h : Cuts transferChunkBytes nextOffset.toNat data (chunks.map ArtifactChunk.part))
    (hwhole : nextOffset.toNat + data.length = manifest.sizeBytes.toNat) :
    ∃ downloader', downloader'.Stays ∧
      downloader'.received = (datas ++ chunks.map ArtifactChunk.data).map .data ∧
      receiveDeliveryChunks manifest hasher nextOffset
        (chunks.map fun chunk => .ok (some (.chunk chunk))) downloader =
        (.ok (.delivered manifest.sizeBytes (hasher.update data).finish), downloader') := by
  generalize hoffset : nextOffset.toNat = offset at h hwhole
  generalize hparts : chunks.map ArtifactChunk.part = parts at h
  induction h generalizing chunks nextOffset hasher datas downloader with
  | @final offset data hle =>
    obtain ⟨chunk, rfl, hpart⟩ := List.map_eq_singleton_iff.1 hparts
    obtain ⟨hstart, rfl, hlast⟩ := Chunk.mk.inj hpart
    rw [← hoffset, UInt64.toNat_inj] at hstart
    obtain ⟨downloader', hstays', hreceived', hstep⟩ :=
      receiveDeliveryChunks_cons hstays hreceived hasher hstart hle (hoffset ▸ hwhole.le) []
    refine ⟨downloader', hstays', hreceived', ?_⟩
    rw [List.map_singleton, hstep, if_pos hlast, hoffset, hwhole, UInt64.ofNat_toNat]
  | @more offset data rest parts hne hle hrest _ ih =>
    obtain ⟨chunk, chunks, rfl, hpart, hlater⟩ := List.map_eq_cons_iff.1 hparts
    obtain ⟨hstart, rfl, hlast⟩ := Chunk.mk.inj hpart
    rw [← hoffset, UInt64.toNat_inj] at hstart
    rw [List.length_append] at hwhole
    have hwithin : nextOffset.toNat + chunk.data.length ≤ manifest.sizeBytes.toNat := by omega
    obtain ⟨downloader', hstays', hreceived', hstep⟩ :=
      receiveDeliveryChunks_cons hstays hreceived hasher hstart hle hwithin
        (chunks.map fun chunk => .ok (some (.chunk chunk)))
    have hnext : nextOffset.toNat + chunk.data.length < 2 ^ 64 := by
      have := manifest.sizeBytes.toNat_lt
      omega
    obtain ⟨downloader'', hstays'', hreceived'', hrun⟩ :=
      ih hstays' hreceived' (hasher.update chunk.data)
      ((UInt64.toNat_ofNat_of_lt' hnext).trans (hoffset ▸ rfl)) (by omega) hlater
    refine ⟨downloader'', hstays'', ?_, ?_⟩
    · rw [hreceived'', List.map_cons, List.append_assoc, List.singleton_append]
    rw [List.map_cons, hstep, hlast, if_neg Bool.false_ne_true, hrun]
    simp only [Hasher.update, List.append_assoc]

/-- A stream from an offset on that ends with the whole file is accepted. -/
theorem validateDeliveryReceipt_accepted {stored : StoredArtifact} (hmatches : stored.Matches)
    (start : UInt64) :
    validateDeliveryReceipt stored.manifest start stored.manifest.sizeBytes
      (Hasher.update {} (stored.data.drop start.toNat)).finish = .accepted := by
  rw [validateDeliveryReceipt]
  split
  · rename_i hzero
    have hall : (Hasher.update {} (stored.data.drop start.toNat)).bytes = stored.data := by
      rw [hzero]
      rfl
    rw [hmatches.verified rfl hall]
  · rw [if_neg (not_not.2 rfl)]

end Remote

/-- The messages of a read, as the Remote receives them. -/
def Worker.inbound (messages : List DeliverArtifactMessage) : List InboundItem :=
  messages.map fun m => .ok (some m)

/-- What a Worker reads up to the end of the file is received whole, chunk by chunk, by a downloader
    who stays. -/
theorem receiveDeliveryChunks_read [Sha256] {manifest : ArtifactManifest} {offset : UInt64}
    {data : Bytes} {chunks : List ArtifactChunkData}
    (h : Cuts transferChunkBytes offset.toNat data (chunks.map ArtifactChunkData.part))
    (hwhole : offset.toNat + data.length = manifest.sizeBytes.toNat) {downloader : Downloader}
    (hstays : downloader.Stays) (hreceived : downloader.received = []) :
    ∃ downloader' : Downloader, downloader'.Stays ∧
      downloader'.received = (chunks.map ArtifactChunkData.data).map .data ∧
      receiveDeliveryChunks manifest {} offset
        (Worker.inbound (chunks.map Worker.chunkMessage)) downloader =
        (.ok (.delivered manifest.sizeBytes (Hasher.update {} data).finish), downloader') := by
  let sent := chunks.map fun chunk => (⟨chunk.offset, chunk.data, chunk.last⟩ : ArtifactChunk)
  have hparts : sent.map ArtifactChunk.part = chunks.map ArtifactChunkData.part := List.map_map ..
  have hinbound : Worker.inbound (chunks.map Worker.chunkMessage) =
      sent.map fun chunk => .ok (some (.chunk chunk)) := by
    rw [Worker.inbound, List.map_map, List.map_map]
    rfl
  have hdatas : sent.map ArtifactChunk.data = chunks.map ArtifactChunkData.data := List.map_map ..
  obtain ⟨downloader', hstays', hreceived', hrun⟩ :=
    @receiveDeliveryChunks_cuts _ _ _ hstays [] hreceived {} _ sent _ (hparts ▸ h) hwhole
  exact ⟨downloader', hstays', hdatas ▸ hreceived', hinbound ▸ hrun⟩

/-- A published output whose file matches its manifest is read from any offset on in chunks that
    cover exactly the rest of the file. The Remote accepts them for the same offset, and passes each
    on to the downloader, and then that it is complete. -/
theorem delivery_accepted [Sha256] [UuidText] {artifacts : LocalArtifactStore}
    {request : DeliverRequest} {id : Uuid} {stored : StoredArtifact}
    (htoken : UuidText.parse request.deliveryToken = .ok id)
    (hstored : artifacts id = .ok stored) (hmatches : stored.Matches) (hreads : Readable stored.reads)
    (hoffset : request.offset ≤ stored.manifest.sizeBytes) :
    ∃ reader chunks reader', artifacts.openForRead request.deliveryToken request.offset = .ok reader ∧
      (∀ fuel, chunks.length ≤ fuel → Worker.readChunks fuel reader = some (.ok (chunks, reader'))) ∧
      reader'.nextChunk = .ok (none, reader') ∧
      Spans transferChunkBytes request.offset.toNat (stored.data.drop request.offset.toNat)
        (chunks.map ArtifactChunkData.part) ∧
      (∀ downloader : Downloader, downloader.Stays → downloader.received = [] → ∃ digest downloader',
        receiveDeliveryChunks stored.manifest {} request.offset
          (Worker.inbound (chunks.map Worker.chunkMessage))
          downloader = (.ok (.delivered stored.manifest.sizeBytes digest), downloader') ∧
        downloader'.received = chunks.map (fun chunk => .data chunk.data) ∧
        validateDeliveryReceipt stored.manifest request.offset stored.manifest.sizeBytes digest =
          .accepted) ∧
      ∀ fuel, chunks.length ≤ fuel → ∃ messages,
        Worker.deliverArtifact fuel artifacts request = some messages ∧
        ∀ db, validateDeliveryStart db
            ⟨request.artifactId, request.deliveryToken, stored.manifest, request.offset⟩ =
              .ok (request.artifactId, stored.manifest) →
          ∀ downloader : Downloader, downloader.Stays → downloader.received = [] →
          (deliverArtifact db (Worker.inbound messages) downloader).1 =
            .ok ⟨true, "", stored.manifest.sizeBytes⟩ ∧
          (deliverArtifact db (Worker.inbound messages) downloader).2.received =
            chunks.map (fun chunk => .data chunk.data) ++ [.complete] := by
  have hseek : stored.seek request.offset = .ok () := by
    refine stored.seek_within request.offset ?_
    rw [hmatches.length]
    exact UInt64.le_iff_toNat_le.1 hoffset
  obtain ⟨reader, hopen, hposition, hreading⟩ :=
    reading_of_openForRead htoken hstored hseek hreads hoffset
  obtain ⟨chunks, reader', hread, hend, hcuts⟩ := readChunks_cuts hmatches hreading
  rw [hposition] at hcuts
  have hwhole : request.offset.toNat + (stored.data.drop request.offset.toNat).length =
      stored.manifest.sizeBytes.toNat := by
    have := UInt64.le_iff_toNat_le.1 hoffset
    rw [List.length_drop, hmatches.length]
    omega
  have hmap : (chunks.map ArtifactChunkData.data).map DeliveryChunk.data =
      chunks.map fun chunk => .data chunk.data :=
    List.map_map ..
  have haccepted := validateDeliveryReceipt_accepted hmatches request.offset
  refine ⟨reader, chunks, reader', hopen, hread, hend, hcuts.spans,
    fun downloader hstays hreceived => ?_,
    fun fuel hfuel => ?_⟩
  · obtain ⟨downloader', -, hreceived', hrun⟩ :=
      receiveDeliveryChunks_read hcuts hwhole hstays hreceived
    exact ⟨_, downloader', hrun, hreceived'.trans hmap, haccepted⟩
  · refine ⟨_, by rw [Worker.deliverArtifact, hopen]; dsimp only; rw [hread fuel hfuel]; rfl, ?_⟩
    intro db hstart downloader hstays hreceived
    obtain ⟨downloader', hstays', hreceived', hrun⟩ :=
      receiveDeliveryChunks_read hcuts hwhole hstays hreceived
    rw [Worker.inbound] at hrun
    rw [Worker.inbound, List.map_cons, deliverArtifact, hreading.manifest, hstart]
    dsimp only
    rw [deliverStarted, hrun]
    dsimp only
    rw [concludeDelivery, haccepted]
    dsimp only
    rw [hstays'.push hreceived' .complete]
    exact ⟨rfl, congrArg (· ++ [DeliveryChunk.complete]) hmap⟩

namespace Sample

/-- A published output of one byte, which is read as it comes. -/
def published : StoredArtifact where
  manifest := onePixel
  data := [1]
  reads _ := .ok 0

/-- A published output of three times the limit of a chunk. -/
def film : StoredArtifact where
  manifest := { onePixel with sizeBytes := 3145728 }
  data := List.replicate 3145728 7
  reads _ := .ok 4095

end Sample

/-- The film is sent from its sixth byte on in several chunks, and accepted. -/
theorem delivery_accepted_film : ∃ reader chunks reader',
    (@LocalArtifactStore.openForRead ⟨fun _ => .ok 5⟩ (fun _ => .ok Sample.film)
      (displayUuid 5) 5) = .ok reader ∧
    @Worker.readChunks Sample.oneByte chunks.length reader = some (.ok (chunks, reader')) ∧
    Spans transferChunkBytes 5 (List.replicate 3145723 7) (chunks.map ArtifactChunkData.part) ∧
    2 < chunks.length := by
  let _ := Sample.oneByte
  let _ : UuidText := ⟨fun _ => .ok 5⟩
  obtain ⟨reader, chunks, reader', hopen, hread, -, hspans, -⟩ :=
    @delivery_accepted _ _ (fun _ => .ok Sample.film) ⟨5, displayUuid 5, 5⟩ 5 Sample.film rfl rfl
      ⟨List.length_replicate, rfl⟩ (fun _ => ⟨4095, rfl⟩) (by decide)
  have hrest : Sample.film.data.drop 5 = List.replicate 3145723 7 := List.drop_replicate
  have hspans : Spans transferChunkBytes 5 (List.replicate 3145723 7)
      (chunks.map ArtifactChunkData.part) :=
    hrest ▸ hspans
  refine ⟨reader, chunks, reader', hopen, hread _ le_rfl, hspans, ?_⟩
  have hlength := hspans.length_le
  rw [List.length_replicate, List.length_map, transferChunkBytes] at hlength
  omega

end Gpq
