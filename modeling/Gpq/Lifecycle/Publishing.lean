import Gpq.Lifecycle.Uploads
import Gpq.Worker.Publish

/-!
# What a failed publish leaves behind

A publish creates the directory of its output first, and no step behind that removes it again. So
a publish that fails leaves a directory, unless that directory could not be created.

* `publish_ok_iff`: when a publish succeeds;
* `publish_keeps_dir`: a directory that was created stays;
* `publish_traceless_iff`: when a publish that fails leaves no trace.
-/

namespace Gpq

open Effects

/-- A file is read in so many chunks, up to its end. -/
inductive DataFile.ReadsIn : DataFile → List Bytes → Prop
  | nil {file file' : DataFile} : file.read transferChunkBytes = .ok ([], file') → ReadsIn file []
  | cons {file file' : DataFile} {byte : UInt8} {data : Bytes} {chunks : List Bytes} :
      file.read transferChunkBytes = .ok (byte :: data, file') → ReadsIn file' chunks →
      ReadsIn file ((byte :: data) :: chunks)

/-- The chunks are the rest of the file. -/
theorem DataFile.ReadsIn.flatten {file : DataFile} {chunks : List Bytes} (h : file.ReadsIn chunks) :
    chunks.flatten = file.bytes.drop file.position := by
  induction h with
  | nil hread =>
    obtain ⟨-, -, -, hend⟩ := DataFile.read_ok hread
    exact (hend (by decide) rfl).symm
  | cons hread _ ih =>
    obtain ⟨hbytes, hposition, hpre, -⟩ := DataFile.read_ok hread
    rw [List.flatten_cons, ih, hbytes, hposition, ← List.drop_drop]
    exact List.prefix_iff_eq_append.1 hpre

/-! ## Steps -/

section Steps

variable {io : Publishing} {id : Uuid} {src : DataFile} {writes : ℕ} {total : UInt64}
    {hasher : Hasher}
  {dirs : ArtifactDirs}

theorem run_orIo {α : Type} (r : Except String α) : run (orIo r) dirs = (r.mapError .io, dirs) := rfl

theorem orIo_fst_ok_iff {α : Type} {r : Except String α} {a : α} : (run (orIo r) dirs).1 = .ok a ↔
    r = .ok a := by
  rw [run_orIo]
  cases r with
  | error error => exact ⟨nofun, nofun⟩
  | ok b => exact ⟨fun h => congrArg _ (Except.ok.inj h), fun h => congrArg _ (Except.ok.inj h)⟩

/-- A write succeeds where all bytes are written. -/
theorem writeAll_fst_ok_iff {file : String} {bytes : Bytes} {written : Except (ℕ × String) Unit}
    {r : Unit} :
    (run (writeAll id file bytes written) dirs).1 = .ok r ↔ written = .ok () := by
  cases written with
  | error failure =>
    obtain ⟨count, error⟩ := failure
    exact ⟨nofun, nofun⟩
  | ok => exact ⟨fun _ => rfl, fun _ => rfl⟩

/-- What is kept by each change of a file in the directory is kept by a write. -/
theorem keeps_writeAll {P : ArtifactDirs → Prop} (hP : ∀ dirs f, P dirs → P (dirs.alterDir id f))
    (file : String) (bytes : Bytes) (written : Except (ℕ × String) Unit) :
    Keeps P (writeAll id file bytes written) := by
  cases written with
  | error failure => exact keeps_bind (keeps_alter fun dirs => hP dirs _) fun _ => keeps_throw _
  | ok => exact keeps_alter fun dirs => hP dirs _

/-- A copy only alters the directory of its output. -/
theorem keeps_copyData {P : ArtifactDirs → Prop} (hP : ∀ dirs f, P dirs → P (dirs.alterDir id f)) :
    Keeps P (copyData io id src writes total hasher) := by
  fun_induction copyData io id src writes total hasher with
  | case1 => exact keeps_throw _
  | case2 => exact keeps_pure _
  | case3 _ _ _ _ _ _ _ _ ih => exact keeps_bind (keeps_writeAll hP _ _ _) fun _ => ih

/-- The copy succeeds where the source is read to its end and each of its chunks is written. -/
theorem copyData_fst_ok_iff {total' : UInt64} {hasher' : Hasher} :
    (run (copyData io id src writes total hasher) dirs).1 = .ok (total', hasher') ↔
      ∃ chunks, src.ReadsIn chunks ∧ (∀ n < chunks.length, io.written (writes + n) = .ok ()) ∧
        total' = total + .ofNat chunks.flatten.length ∧ hasher' = hasher.update chunks.flatten := by
  fun_induction copyData io id src writes total hasher generalizing dirs with
  | case1 src writes total hasher error hread =>
    refine ⟨nofun, ?_⟩
    rintro ⟨chunks, hchunks, -⟩
    cases hchunks with
    | nil hread' => cases hread.symm.trans hread'
    | cons hread' => cases hread.symm.trans hread'
  | case2 src writes total hasher file hread =>
    constructor
    · rintro ⟨⟩
      refine ⟨[], .nil hread, fun n hn => absurd hn n.not_lt_zero, (UInt64.add_zero _).symm, ?_⟩
      rw [Hasher.update, List.flatten_nil, List.append_nil]
    · rintro ⟨chunks, hchunks, -, rfl, rfl⟩
      cases hchunks with
      | nil =>
        rw [List.flatten_nil, Hasher.update, List.append_nil]
        exact congrArg (fun n => Except.ok (n, hasher)) (UInt64.add_zero total).symm
      | cons hread' => cases hread.symm.trans hread'
  | case3 src writes total hasher byte data src' hread ih =>
    have htotal (chunks : List Bytes) : total + .ofNat (data.length + 1) +
        .ofNat chunks.flatten.length =
        total + .ofNat ((byte :: data) :: chunks).flatten.length := by
      rw [List.flatten_cons, List.length_append, List.length_cons, UInt64.ofNat_add (data.length + 1),
        UInt64.add_assoc]
    have hhasher (chunks : List Bytes) : (hasher.update (byte :: data)).update chunks.flatten =
        hasher.update ((byte :: data) :: chunks).flatten := by
      rw [List.flatten_cons, Hasher.update, Hasher.update, Hasher.update, List.append_assoc]
    rw [run_bind_fst_ok_iff]
    constructor
    · rintro ⟨⟨⟩, hwrite, hrest⟩
      obtain ⟨chunks, hchunks, hwritten, rfl, rfl⟩ := ih.1 hrest
      refine ⟨_, .cons hread hchunks, fun n hn => ?_, htotal chunks, hhasher chunks⟩
      rcases n with _ | n
      · exact writeAll_fst_ok_iff.1 hwrite
      · rw [Nat.add_comm n, ← Nat.add_assoc]
        exact hwritten n (Nat.lt_of_succ_lt_succ hn)
    · rintro ⟨chunks, hchunks, hwritten, rfl, rfl⟩
      cases hchunks with
      | nil hread' => cases hread.symm.trans hread'
      | cons hread' hrest =>
        cases hread.symm.trans hread'
        refine ⟨(), writeAll_fst_ok_iff.2 (hwritten 0 (Nat.succ_pos _)),
          ih.2 ⟨_, hrest, fun n hn => ?_, ?_, ?_⟩⟩
        · rw [Nat.add_assoc, Nat.add_comm 1]
          exact hwritten (n + 1) (Nat.succ_lt_succ hn)
        · exact (htotal _).symm
        · exact (hhasher _).symm

end Steps

/-! ## Publishes -/

section Publishes

variable [Sha256] {io : Publishing} {attempt : Uuid} {manifest : ArtifactManifest}
    {dirs : ArtifactDirs}

/-- No step behind the creation of the directory fails: the source is read in these chunks, and
    this is its manifest. -/
structure Publishing.Undisturbed (io : Publishing) (attempt : Uuid) (manifest : ArtifactManifest)
    (src : DataFile)
    (chunks : List Bytes) (bytes : Bytes) : Prop where
  source : io.source = .ok src
  partCreated : io.partCreated = .ok ()
  reads : src.ReadsIn chunks
  written : ∀ n < chunks.length, io.written n = .ok ()
  flushed : io.flushed = .ok ()
  size : manifest.sizeBytes = .ofNat (src.bytes.drop src.position).length
  digest : manifest.digest = Sha256.digest (src.bytes.drop src.position)
  renamed : io.renamed = .ok ()
  encoded : io.encoded { attemptId := attempt, manifest, completedAt := io.completedAt } = .ok bytes
  manifestCreated : io.manifestCreated = .ok ()
  manifestWritten : io.manifestWritten = .ok ()

omit [Sha256] in
/-- A copy is verified exactly if its size and its digest are those of the manifest. -/
theorem verify_mapError_ok_iff {total : UInt64} {digest : ContentHash} {r : Unit} :
    (manifest.verify total digest).mapError PublishError.mismatch = .ok r ↔
      manifest.sizeBytes = total ∧ manifest.digest = digest := by
  rw [ArtifactManifest.verify]
  split
  · rename_i hsize
    exact ⟨by rintro ⟨⟩, fun h => absurd h.1.symm hsize⟩
  · rename_i hsize
    split
    · rename_i hdigest
      exact ⟨by rintro ⟨⟩, fun h => absurd h.2.symm hdigest⟩
    · rename_i hdigest
      exact ⟨fun _ => ⟨(not_not.1 hsize).symm, (not_not.1 hdigest).symm⟩, fun _ => rfl⟩

/-- A publish succeeds where no step fails. -/
theorem publish_ok_iff {handle : ArtifactHandle} :
    (run (publish io attempt manifest) dirs).1 = .ok handle ↔
      io.dirCreated = .ok () ∧ handle = ⟨io.artifactId, manifest⟩ ∧
        ∃ src chunks bytes, io.Undisturbed attempt manifest src chunks bytes := by
  simp only [publish, run_bind_fst_ok_iff, orIo_fst_ok_iff, writeAll_fst_ok_iff,
    copyData_fst_ok_iff, run_alter,
    run_answer, run_pure, verify_mapError_ok_iff, Prod.exists, Except.ok.injEq, true_and,
      exists_const]
  constructor
  · rintro ⟨⟨⟩, hdir, src, hsource, ⟨⟩, hpart, total, hasher, ⟨chunks, hchunks, hwritten, rfl, rfl⟩,
      ⟨⟩, hflushed, ⟨hsize, hdigest⟩, ⟨⟩, hrenamed, bytes, hencoded, ⟨⟩, hcreated, hmanifest, rfl⟩
    rw [hchunks.flatten] at hsize hdigest
    refine ⟨hdir, rfl, src, chunks, bytes, hsource, hpart, hchunks, fun n hn => ?_, hflushed, ?_,
      hdigest, hrenamed, hencoded, hcreated, hmanifest⟩
    · rw [← Nat.zero_add n]
      exact hwritten n hn
    · exact hsize.trans (UInt64.zero_add _)
  · rintro ⟨hdir, rfl, src, chunks, bytes, h⟩
    refine ⟨(), hdir, src, h.source, (), h.partCreated, _, _,
      ⟨chunks, h.reads, fun n hn => ?_, rfl, rfl⟩, (),
      h.flushed, ⟨?_, ?_⟩, (), h.renamed, bytes, h.encoded, (), h.manifestCreated,
        h.manifestWritten, rfl⟩
    · rw [Nat.zero_add]
      exact h.written n hn
    · rw [h.reads.flatten]
      exact h.size.trans (UInt64.zero_add _).symm
    · rw [h.reads.flatten]
      exact h.digest

/-- A publish whose directory cannot be created does nothing. -/
theorem run_publish_error {error : String} (hdir : io.dirCreated = .error error) :
    run (publish io attempt manifest) dirs = (.error (.io error), dirs) := by
  rw [publish]
  exact run_bind_error (by rw [run_orIo, hdir]; rfl)

/-- Any other publish creates its directory, and only changes files in it from there on. -/
theorem run_publish_created (hdir : io.dirCreated = .ok ()) : ∃ rest : PublishM ArtifactHandle,
    run (publish io attempt manifest) dirs = run rest (dirs.createDirAll io.artifactId) ∧
      ∀ P : ArtifactDirs → Prop, (∀ dirs f, P dirs → P (dirs.alterDir io.artifactId f)) →
      Keeps P rest := by
  have hcreated : run (orIo io.dirCreated) dirs = (.ok (), dirs) := by
    rw [run_orIo, hdir]
    rfl
  rw [publish]
  refine ⟨_, (run_bind_ok hcreated).trans (run_bind_ok (run_alter _)), fun P hP => ?_⟩
  exact keeps_bind (keeps_answer _) fun _ => keeps_bind (keeps_answer _) fun _ =>
    keeps_bind (keeps_alter fun dirs => hP dirs _) fun _ => keeps_bind (keeps_copyData hP) fun _ =>
    keeps_bind (keeps_answer _) fun _ => keeps_bind (keeps_answer _) fun _ =>
    keeps_bind (keeps_answer _) fun _ => keeps_bind (keeps_alter fun dirs => hP dirs _) fun _ =>
    keeps_bind (keeps_answer _) fun _ => keeps_bind (keeps_answer _) fun _ =>
    keeps_bind (keeps_alter fun dirs => hP dirs _) fun _ =>
    keeps_bind (keeps_writeAll hP _ _ _) fun _ =>
    keeps_pure _

/-- However a publish ends, a directory that it created stays. -/
theorem publish_keeps_dir (hdir : io.dirCreated = .ok ()) :
    ((run (publish io attempt manifest) dirs).2 io.artifactId).isSome := by
  obtain ⟨rest, hrun, hkeeps⟩ := run_publish_created hdir
  rw [hrun]
  refine hkeeps (fun dirs' => (dirs' io.artifactId).isSome) (fun dirs' f h => ?_) _ ?_
  · rw [ArtifactDirs.alterDir, Function.update_self, Option.isSome_map]
    exact h
  · dsimp only
    rw [ArtifactDirs.createDirAll, Function.update_self]
    rfl

/-- A publish under a new id leaves no trace where it fails exactly if its directory cannot be
    created, or no step behind that fails. -/
theorem publish_traceless_iff (hfresh : dirs io.artifactId = none) :
    (∀ error, (run (publish io attempt manifest) dirs).1 = .error error →
      (run (publish io attempt manifest) dirs).2 = dirs) ↔
    (∃ error, io.dirCreated = .error error) ∨
      ∃ src chunks bytes, io.Undisturbed attempt manifest src chunks bytes := by
  cases hdir : io.dirCreated with
  | error error =>
    rw [run_publish_error hdir]
    exact ⟨fun _ => .inl ⟨error, rfl⟩, fun _ _ _ => rfl⟩
  | ok =>
    constructor
    · intro htraceless
      cases hended : (run (publish io attempt manifest) dirs).1 with
      | error error =>
        -- the directory is still there
        have hstays := @publish_keeps_dir _ io attempt manifest dirs hdir
        rw [htraceless error hended, hfresh] at hstays
        cases hstays
      | ok handle => exact .inr (publish_ok_iff.1 hended).2.2
    · rintro (⟨error, ⟨⟩⟩ | hundisturbed) error hended
      rw [publish_ok_iff.2 ⟨hdir, rfl, hundisturbed⟩] at hended
      cases hended

end Publishes

namespace Sample

/-- A publish of one byte. -/
def publishing : Publishing where
  artifactId := 5
  completedAt := 0
  source := .ok { bytes := [1], reads := fun _ => .ok 0 }
  encoded := fun _ => .ok []

/-- A publish whose directory cannot be created. -/
def refused : Publishing := { publishing with dirCreated := .error "permission denied" }

/-- The manifest of another byte. -/
def otherPixel : ArtifactManifest := { onePixel with digest := 0 }

end Sample

/-- The publish into no directory fails, and leaves no trace. -/
theorem publish_traceless_iff_refused :
    (run (@publish Sample.oneByte Sample.refused 7 Sample.onePixel) (fun _ => none)).1 =
        .error (.io "permission denied") ∧
      (run (@publish Sample.oneByte Sample.refused 7 Sample.onePixel) (fun _ => none)).2 =
        fun _ => none :=
  ⟨rfl, (@publish_traceless_iff Sample.oneByte Sample.refused 7 Sample.onePixel (fun _ => none) rfl).2
    (.inl ⟨_, rfl⟩) _ rfl⟩

/-- A publish whose source has another digest than its manifest fails, and leaves a directory. -/
theorem mismatched_publish_leaves_trace : ¬ ∀ error,
    (run (@publish Sample.oneByte Sample.publishing 7 Sample.otherPixel) (fun _ => none)).1 =
      .error error →
      (run (@publish Sample.oneByte Sample.publishing 7 Sample.otherPixel) (fun _ => none)).2 =
        fun _ => none := by
  let _ := Sample.oneByte
  intro htraceless
  cases hended : (run (publish Sample.publishing 7 Sample.otherPixel) (fun _ => none)).1 with
  | error error =>
    have hstays := @publish_keeps_dir _ Sample.publishing 7 Sample.otherPixel (fun _ => none) rfl
    rw [htraceless error hended] at hstays
    cases hstays
  | ok handle =>
    obtain ⟨-, -, src, chunks, bytes, h⟩ := publish_ok_iff.1 hended
    exact absurd h.digest (by decide : (0 : ContentHash) ≠ Sample.onePixel.digest)

end Gpq
