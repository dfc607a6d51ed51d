import Gpq.Lib.Traverse
import Gpq.Lifecycle.Uploads

/-!
# Deliveries of truncated outputs

The Worker reads an output until its manifest's size is reached, but reads advance only as far as
the file does. Behind the end of a file that is too short, chunks are empty, none is the final
one, and the loop goes on until a read fails.

* `nextChunk_underway`: what a chunk does to a read of any file;
* `readChunks_ends_of_complete`, `readChunks_ends_of_failing`: two ways a read ends;
* `readChunks_endless`: there is no other;
* `delivery_ends_iff`: when a delivery ends.
-/

namespace Gpq

/-- Some read of the file fails. -/
def Failing (reads : ℕ → Except String ℕ) : Prop := ∃ n error, reads n = .error error

/-- Where a chunk from a position on ends: the file may end first. -/
def StoredArtifact.behind (stored : StoredArtifact) (position : ℕ) : ℕ :=
  position + min transferChunkBytes (stored.data.length - position)

/-- A read of an output that is not over, after so many reads of its file, whether or not the
    file matches the manifest. -/
structure Underway (stored : StoredArtifact) (count : ℕ) (reader : ArtifactReader) : Prop where
  bytes : reader.file.bytes = stored.data
  seek : reader.file.position = reader.position.toNat
  reads : ∀ n, reader.file.reads n = stored.reads (n + count)
  succeeded : ∀ n < count, ∃ more, stored.reads n = .ok more
  manifest : reader.manifest = stored.manifest
  position : reader.position ≤ stored.manifest.sizeBytes
  open_ : reader.done = false

/-- A published output is opened at any offset up to its size that its file seeks to. -/
theorem underway_of_openForRead [UuidText] {artifacts : LocalArtifactStore} {token : String}
    {id : Uuid} {stored : StoredArtifact} {start : UInt64} (htoken : UuidText.parse token = .ok id)
    (hstored : artifacts id = .ok stored) (hseek : stored.seek start = .ok ())
    (hstart : start ≤ stored.manifest.sizeBytes) :
    ∃ reader, artifacts.openForRead token start = .ok reader ∧ reader.position = start ∧
      Underway stored 0 reader := by
  have hwithin : ¬ start > stored.manifest.sizeBytes := UInt64.not_lt.2 hstart
  refine ⟨⟨⟨stored.data, start.toNat, stored.reads⟩, stored.manifest, decide (start = 0), start, {},
    false⟩, ?_, rfl, rfl, rfl, fun _ => rfl, fun n hn => absurd hn n.not_lt_zero, rfl, hstart, rfl⟩
  rw [LocalArtifactStore.openForRead, htoken]
  simp only [bind, Except.bind, hstored]
  rw [if_neg hwithin]
  simp only [hseek]
  rfl

/-- Only a published output is opened, at an offset up to its size that its file seeks to. -/
theorem openForRead_inv [UuidText] {artifacts : LocalArtifactStore} {token : String} {start : UInt64}
    {reader : ArtifactReader} (h : artifacts.openForRead token start = .ok reader) :
    ∃ id stored, UuidText.parse token = .ok id ∧ artifacts id = .ok stored ∧
      stored.seek start = .ok () ∧
      start ≤ stored.manifest.sizeBytes := by
  rw [LocalArtifactStore.openForRead] at h
  obtain ⟨id, htoken, h⟩ := Traverse.bind_eq_ok_iff.1 h
  obtain ⟨stored, hstored, h⟩ := Traverse.bind_eq_ok_iff.1 h
  by_cases hbehind : start > stored.manifest.sizeBytes
  · rw [if_pos hbehind] at h
    cases h
  · rw [if_neg hbehind] at h
    obtain ⟨⟨⟩, hseek, -⟩ := Traverse.bind_eq_ok_iff.1 h
    exact ⟨id, stored, htoken, hstored, hseek, UInt64.not_lt.1 hbehind⟩

section Worker

variable [Sha256] {stored : StoredArtifact} {reader : ArtifactReader} {count : ℕ}

/-- A chunk fails with a read of the file, is the last of the read, or leaves the read below the
    size of the manifest, with more reads of the file behind it. -/
theorem nextChunk_underway (hfile : stored.data.length < 2 ^ 64) (h : Underway stored count reader) :
    (Failing stored.reads ∧ ∃ error, reader.nextChunk = .error error) ∨
    (stored.manifest.sizeBytes.toNat ≤ stored.behind reader.position.toNat ∧
      ((∃ error, reader.nextChunk = .error error) ∨
        ∃ chunk reader', reader.nextChunk = .ok (some chunk, reader') ∧ chunk.last)) ∨
    (stored.behind reader.position.toNat < stored.manifest.sizeBytes.toNat ∧
      ∃ chunk reader' count', reader.nextChunk = .ok (some chunk, reader') ∧ ¬ chunk.last ∧
        count < count' ∧
        Underway stored count' reader' ∧
          reader'.position.toNat = stored.behind reader.position.toNat) := by
  rcases reader.file.fill_cases transferChunkBytes with ⟨n, error, hn, hfill⟩ |
    ⟨k, hk, hsucceeded, hfill⟩
  · -- the failing read is one of the file's
    rw [h.reads] at hn
    refine .inl ⟨⟨_, error, hn⟩, .io error, ?_⟩
    rw [ArtifactReader.nextChunk, h.open_, if_neg Bool.false_ne_true, hfill]
    rfl
  rw [h.bytes, h.seek] at hfill
  generalize hbuf : (stored.data.drop reader.position.toNat).take transferChunkBytes = buf at hfill
  have hlength : buf.length =
      min transferChunkBytes (stored.data.length - reader.position.toNat) := by
    rw [← hbuf, List.length_take, List.length_drop]
  have hnext : (reader.position + .ofNat buf.length).toNat = stored.behind reader.position.toNat := by
    -- nothing is read behind the end of the file, so the position does not overflow
    have hposition := reader.position.toNat_lt
    have hfits : buf.length < 2 ^ 64 := by omega
    rw [UInt64.toNat_add, UInt64.toNat_ofNat_of_lt' hfits, Nat.mod_eq_of_lt (by omega), hlength,
      StoredArtifact.behind]
  have hlast : reader.manifest.sizeBytes ≤ reader.position + .ofNat buf.length ↔
      stored.manifest.sizeBytes.toNat ≤ stored.behind reader.position.toNat := by
    rw [h.manifest, UInt64.le_iff_toNat_le, hnext]
  have hchunk := ArtifactReader.nextChunk_eq h.open_ hfill
  simp only [hlast] at hchunk
  by_cases hsize : stored.manifest.sizeBytes.toNat ≤ stored.behind reader.position.toNat
  · refine .inr (.inl ⟨hsize, ?_⟩)
    simp only [hsize, decide_true, Bool.and_true] at hchunk
    rw [hchunk]
    split
    · cases reader.manifest.verify _ _ with
      | error mismatch => exact .inl ⟨.mismatch mismatch, rfl⟩
      | ok => exact .inr ⟨_, _, rfl, rfl⟩
    · exact .inr ⟨_, _, rfl, rfl⟩
  · refine .inr (.inr ⟨not_le.1 hsize, ?_⟩)
    rw [decide_eq_false hsize, Bool.and_false, if_neg Bool.false_ne_true] at hchunk
    refine ⟨_, _, count + k, hchunk, Bool.false_ne_true, Nat.lt_add_of_pos_right (hk (by decide)),
      ?_, hnext⟩
    refine ⟨rfl, ?_, fun n => ?_, fun n hn => ?_, h.manifest, ?_, rfl⟩
    · exact (congrArg (reader.position.toNat + ·) hlength).trans hnext.symm
    · exact (h.reads (n + k)).trans (by rw [Nat.add_assoc, Nat.add_comm k])
    · by_cases hbefore : n < count
      · exact h.succeeded n hbefore
      · have hlater := hsucceeded (n - count) (by omega)
        rwa [h.reads, Nat.sub_add_cancel (not_lt.1 hbefore)] at hlater
    · rw [UInt64.le_iff_toNat_le, hnext]
      exact (not_le.1 hsize).le

/-- A read is over with a chunk that fails, or is the last one. -/
theorem readChunks_one (hstops : (∃ error, reader.nextChunk = .error error) ∨
    ∃ chunk reader', reader.nextChunk = .ok (some chunk, reader') ∧ chunk.last) :
    (Worker.readChunks 1 reader).isSome := by
  rw [Worker.readChunks]
  rcases hstops with ⟨error, hchunk⟩ | ⟨chunk, reader', hchunk, hlast⟩
  · rw [hchunk]
    rfl
  · rw [hchunk]
    dsimp only
    rw [if_pos hlast]
    rfl

/-- A read goes on behind a chunk that is not the last one. -/
theorem readChunks_succ {chunk : ArtifactChunkData} {reader' : ArtifactReader}
    (hchunk : reader.nextChunk = .ok (some chunk, reader')) (hlast : ¬ chunk.last) (fuel : ℕ) :
    Worker.readChunks (fuel + 1) reader = (Worker.readChunks fuel reader').map fun result =>
      result.map fun (chunks, reader) => (chunk :: chunks, reader) := by
  rw [Worker.readChunks, hchunk]
  dsimp only
  rw [if_neg hlast]

/-- A file with all the bytes of its manifest is read to an end. -/
theorem readChunks_ends_of_complete (hfile : stored.data.length < 2 ^ 64)
    (hcomplete : stored.manifest.sizeBytes.toNat ≤ stored.data.length)
    (h : Underway stored count reader) :
    ∃ fuel, (Worker.readChunks fuel reader).isSome := by
  generalize hmissing : stored.manifest.sizeBytes.toNat - reader.position.toNat = missing
  induction missing using Nat.strong_induction_on generalizing reader count with
  | h missing ih =>
    rcases nextChunk_underway hfile h with ⟨-, error, hchunk⟩ | ⟨-, hstops⟩ |
      ⟨hbelow, chunk, reader', count', hchunk, hlast, -, hlater, hposition⟩
    · exact ⟨1, readChunks_one (.inl ⟨error, hchunk⟩)⟩
    · exact ⟨1, readChunks_one hstops⟩
    · -- bytes are left in the file as long as they are missing from the read
      have hadvance : reader.position.toNat < stored.behind reader.position.toNat := by
        rw [StoredArtifact.behind] at hbelow ⊢
        have : 0 < transferChunkBytes := by decide
        omega
      obtain ⟨fuel, hfuel⟩ := ih _ (by omega) hlater rfl
      exact ⟨fuel + 1, by rwa [readChunks_succ hchunk hlast, Option.isSome_map]⟩

/-- A file with a read that fails is read to an end. -/
theorem readChunks_ends_of_failing (hfile : stored.data.length < 2 ^ 64)
    (hfailing : Failing stored.reads)
    (h : Underway stored count reader) : ∃ fuel, (Worker.readChunks fuel reader).isSome := by
  obtain ⟨n, failure, hn⟩ := hfailing
  generalize hleft : n + 1 - count = left
  induction left using Nat.strong_induction_on generalizing reader count with
  | h left ih =>
    have hbefore : count ≤ n := by
      by_contra hbehind
      obtain ⟨more, hmore⟩ := h.succeeded n (not_le.1 hbehind)
      rw [hn] at hmore
      cases hmore
    rcases nextChunk_underway hfile h with ⟨-, error, hchunk⟩ | ⟨-, hstops⟩ |
      ⟨-, chunk, reader', count', hchunk, hlast, hmore, hlater, -⟩
    · exact ⟨1, readChunks_one (.inl ⟨error, hchunk⟩)⟩
    · exact ⟨1, readChunks_one hstops⟩
    · obtain ⟨fuel, hfuel⟩ := ih _ (by omega) hlater rfl
      exact ⟨fuel + 1, by rwa [readChunks_succ hchunk hlast, Option.isSome_map]⟩

/-- A file without the bytes of its manifest whose reads all succeed is read forever. -/
theorem readChunks_endless (hreads : ¬ Failing stored.reads)
    (htruncated : stored.data.length < stored.manifest.sizeBytes.toNat)
    (h : Underway stored count reader)
    (hposition : reader.position.toNat < stored.manifest.sizeBytes.toNat) (fuel : ℕ) :
    Worker.readChunks fuel reader = none := by
  have hfile : stored.data.length < 2 ^ 64 := htruncated.trans stored.manifest.sizeBytes.toNat_lt
  induction fuel generalizing reader count with
  | zero => rfl
  | succ fuel ih =>
    have hbelow : stored.behind reader.position.toNat < stored.manifest.sizeBytes.toNat := by
      rw [StoredArtifact.behind]
      omega
    rcases nextChunk_underway hfile h with ⟨hfailing, -⟩ | ⟨hreached, -⟩ |
      ⟨-, chunk, reader', count', hchunk, hlast, -, hlater, hnext⟩
    · exact absurd hfailing hreads
    · exact absurd hreached (not_le.2 hbelow)
    · rw [readChunks_succ hchunk hlast, ih hlater (by rw [hnext]; exact hbelow)]
      rfl

end Worker

/-- A delivery of an output ends, for every offset below the size of its manifest, exactly if the
    file has all the bytes of the manifest, one of its reads fails, or it refuses to seek there. (The
    length of a file is a 64-bit number.) -/
theorem delivery_ends_iff [Sha256] [UuidText] {artifacts : LocalArtifactStore}
    (hfiles : ∀ id stored, artifacts id = .ok stored → stored.data.length < 2 ^ 64)
    (request : DeliverRequest) :
    (∃ fuel, (Worker.deliverArtifact fuel artifacts request).isSome) ↔
      ∀ id stored, UuidText.parse request.deliveryToken = .ok id → artifacts id = .ok stored →
        request.offset < stored.manifest.sizeBytes →
        stored.manifest.sizeBytes.toNat ≤ stored.data.length ∨ Failing stored.reads ∨
          ∃ error, stored.seek request.offset = .error error := by
  constructor
  · rintro ⟨fuel, hends⟩ id stored htoken hstored hoffset
    by_contra hneither
    obtain ⟨htruncated, hneither⟩ := not_or.1 hneither
    obtain ⟨hreads, hrefused⟩ := not_or.1 hneither
    have hseek : stored.seek request.offset = .ok () := by
      cases hanswer : stored.seek request.offset with
      | ok => rfl
      | error error => exact absurd ⟨error, hanswer⟩ hrefused
    obtain ⟨reader, hopen, hposition, hunderway⟩ :=
      underway_of_openForRead htoken hstored hseek (UInt64.le_of_lt hoffset)
    have hendless := readChunks_endless hreads (not_le.1 htruncated) hunderway
      (hposition ▸ UInt64.lt_iff_toNat_lt.1 hoffset) fuel
    rw [Worker.deliverArtifact, hopen] at hends
    dsimp only at hends
    rw [hendless] at hends
    cases hends
  · intro hends
    cases hopen : artifacts.openForRead request.deliveryToken request.offset with
    | error error => exact ⟨0, by rw [Worker.deliverArtifact, hopen]; rfl⟩
    | ok reader =>
      obtain ⟨id, stored, htoken, hstored, hseek, hoffset⟩ := openForRead_inv hopen
      obtain ⟨reader', hopen', hposition, hunderway⟩ :=
        underway_of_openForRead htoken hstored hseek hoffset
      obtain rfl := Except.ok.inj (hopen.symm.trans hopen')
      have hfile := hfiles id stored hstored
      have hread : ∃ fuel, (Worker.readChunks fuel reader).isSome := by
        rcases UInt64.lt_or_eq_of_le hoffset with hbelow | hend
        · rcases hends id stored htoken hstored hbelow with hcomplete | hfailing | ⟨error, hrefused⟩
          · exact readChunks_ends_of_complete hfile hcomplete hunderway
          · exact readChunks_ends_of_failing hfile hfailing hunderway
          · cases hseek.symm.trans hrefused
        · -- at the size of the manifest, the first chunk is the last one
          rcases nextChunk_underway hfile hunderway with ⟨-, error, hchunk⟩ | ⟨-, hstops⟩ |
            ⟨hbelow, -⟩
          · exact ⟨1, readChunks_one (.inl ⟨error, hchunk⟩)⟩
          · exact ⟨1, readChunks_one hstops⟩
          · rw [hposition, hend, StoredArtifact.behind] at hbelow
            omega
      obtain ⟨fuel, hfuel⟩ := hread
      refine ⟨fuel, ?_⟩
      rw [Worker.deliverArtifact, hopen]
      dsimp only
      rwa [Option.isSome_map]

namespace Sample

/-- An output of one byte whose file is empty, as a crash may leave it behind. -/
def truncated : StoredArtifact where
  manifest := onePixel
  data := []
  reads _ := .ok 0

end Sample

/-- The whole output is delivered. -/
theorem delivery_ends_iff_published :
    ∃ fuel, (@Worker.deliverArtifact Sample.oneByte ⟨fun _ => .ok 5⟩ fuel
    (fun _ => .ok Sample.published) ⟨5, displayUuid 5, 0⟩).isSome := by
  let _ := Sample.oneByte
  let _ : UuidText := ⟨fun _ => .ok 5⟩
  refine (@delivery_ends_iff _ _ (fun _ => .ok Sample.published) ?_ _).2 ?_
  · rintro _ _ ⟨⟩
    exact (by decide : 1 < 2 ^ 64)
  · rintro _ _ - ⟨⟩ -
    exact .inl le_rfl

/-- The delivery of the truncated output does not end. -/
theorem truncated_delivery_endless :
    ¬ ∃ fuel, (@Worker.deliverArtifact Sample.oneByte ⟨fun _ => .ok 5⟩ fuel
    (fun _ => .ok Sample.truncated) ⟨5, displayUuid 5, 0⟩).isSome := by
  let _ := Sample.oneByte
  let _ : UuidText := ⟨fun _ => .ok 5⟩
  rintro ⟨fuel, hends⟩
  obtain ⟨reader, hopen, hposition, hunderway⟩ :=
    @underway_of_openForRead _ (fun _ => .ok Sample.truncated)
      (displayUuid 5) 5 Sample.truncated 0 rfl rfl rfl (by decide)
  have hreads : ¬ Failing Sample.truncated.reads := by
    rintro ⟨_, _, ⟨⟩⟩
  have hendless := readChunks_endless hreads (by decide) hunderway (by rw [hposition]; decide) fuel
  rw [Worker.deliverArtifact, hopen] at hends
  dsimp only at hends
  rw [hendless] at hends
  cases hends

end Gpq
