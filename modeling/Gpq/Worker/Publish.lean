import Gpq.Lib.Effects
import Gpq.Worker.Artifacts

/-!
# Publishing an output

The Worker keeps an output in a directory of its own: the data, copied to `data.part` and renamed
to `data`, and a `manifest.json` behind it (`publish`). The directories of the store are found
under the ids of their outputs, and the files in a directory under their names.

What the file system answers to the steps of one publish is given with it (`Publishing`). A write
may fail behind some of its bytes.
-/

namespace Gpq

open Effects

/-- The data of an output. -/
def dataFile : String := "data"

/-- The data of an output that is being copied. -/
def partFile : String := "data.part"

/-- The manifest of an output, written when the data is in place. -/
def manifestFile : String := "manifest.json"

/-- The files of an output. -/
abbrev ArtifactDir := String → Option Bytes

/-- The directories of the store. -/
abbrev ArtifactDirs := Uuid → Option ArtifactDir

/-- What `manifest.json` records. -/
structure StoredManifest where
  attemptId : Uuid
  manifest : ArtifactManifest
  completedAt : Time
  deriving DecidableEq

/-- A published output. -/
structure ArtifactHandle where
  artifactId : Uuid
  manifest : ArtifactManifest
  deriving DecidableEq

/-- Why a publish fails. -/
inductive PublishError
  | io (error : String)
  | mismatch (mismatch : ManifestMismatch)
  deriving DecidableEq

/-- A step of a publish. -/
abbrev PublishM := ExceptT PublishError (StateM ArtifactDirs)

/-- What the world answers to one publish. -/
structure Publishing where
  /-- A new id. -/
  artifactId : Uuid
  completedAt : Time
  dirCreated : Except String Unit := .ok ()
  /-- The source, open at its start. -/
  source : Except String DataFile
  partCreated : Except String Unit := .ok ()
  /-- How each write of the copy ends: it may fail behind so many bytes. -/
  written : ℕ → Except (ℕ × String) Unit := fun _ => .ok ()
  flushed : Except String Unit := .ok ()
  renamed : Except String Unit := .ok ()
  /-- The manifest as JSON. -/
  encoded : StoredManifest → Except String Bytes
  manifestCreated : Except String Unit := .ok ()
  manifestWritten : Except (ℕ × String) Unit := .ok ()

namespace ArtifactDirs

/-- Creates a directory, unless it is there. -/
def createDirAll (self : ArtifactDirs) (id : Uuid) : ArtifactDirs :=
  Function.update self id (some ((self id).getD fun _ => none))

/-- Changes the files of a directory. -/
def alterDir (self : ArtifactDirs) (id : Uuid) (f : ArtifactDir → ArtifactDir) : ArtifactDirs :=
  Function.update self id ((self id).map f)

end ArtifactDirs

namespace ArtifactDir

/-- Creates an empty file, or empties it. -/
def create (self : ArtifactDir) (file : String) : ArtifactDir := Function.update self file (some [])

/-- Appends bytes to a file. -/
def append (self : ArtifactDir) (file : String) (bytes : Bytes) : ArtifactDir :=
  Function.update self file ((self file).map (· ++ bytes))

/-- Renames a file. -/
def rename (self : ArtifactDir) (old new : String) : ArtifactDir :=
  Function.update (Function.update self new (self old)) old none

end ArtifactDir

/-- The answer of the file system. -/
def orIo {α : Type} (r : Except String α) : PublishM α := answer (r.mapError .io)

/-- Appends bytes to a file, as many as are written. -/
def writeAll (id : Uuid) (file : String) (bytes : Bytes) : Except (ℕ × String) Unit → PublishM Unit
  | .ok () => alter (·.alterDir id (·.append file bytes))
  | .error (count, error) => do
    alter (·.alterDir id (·.append file (bytes.take count)))
    throw (.io error)

/-- A read returns bytes that remain, and goes behind them. -/
theorem DataFile.read_ok {file file' : DataFile} {room : ℕ} {data : Bytes}
    (h : file.read room = .ok (data, file')) :
    file'.bytes = file.bytes ∧ file'.position = file.position + data.length ∧
      data <+: file.bytes.drop file.position ∧
      (0 < room → data = [] → file.bytes.drop file.position = []) := by
  rw [read] at h
  cases hfirst : file.reads 0 with
  | error error =>
    rw [hfirst] at h
    cases h
  | ok more =>
    rw [hfirst] at h
    cases h
    refine ⟨rfl, rfl, List.take_prefix .., fun hroom hnone => ?_⟩
    rcases List.take_eq_nil_iff.1 hnone with hzero | hend
    · omega
    · exact hend

/-- Copies the rest of the source behind so many writes: the length and the digest so far go
    along. -/
def copyData (io : Publishing) (id : Uuid) (src : DataFile) (writes : ℕ) (total : UInt64)
    (hasher : Hasher) :
    PublishM (UInt64 × Hasher) :=
  match _hread : src.read transferChunkBytes with
  | .error error => throw (.io error)
  | .ok ([], _) => return (total, hasher)
  | .ok (byte :: data, src') => do
    writeAll id partFile (byte :: data) (io.written writes)
    copyData io id src' (writes + 1) (total + .ofNat (data.length + 1)) (hasher.update (byte :: data))
termination_by src.bytes.length - src.position
decreasing_by
  obtain ⟨hbytes, hposition, hpre, -⟩ := DataFile.read_ok _hread
  have hlength := hpre.length_le
  rw [List.length_cons, List.length_drop] at hlength
  rw [hbytes, hposition, List.length_cons]
  omega

/-- Publishes a source as the output of an Attempt. -/
def publish [Sha256] (io : Publishing) (attempt : Uuid) (manifest : ArtifactManifest) :
    PublishM ArtifactHandle := do
  let id := io.artifactId
  orIo io.dirCreated
  alter (·.createDirAll id)
  let src ← orIo io.source
  orIo io.partCreated
  alter (·.alterDir id (·.create partFile))
  let (total, hasher) ← copyData io id src 0 0 {}
  orIo io.flushed
  answer ((manifest.verify total hasher.finish).mapError .mismatch)
  orIo io.renamed
  alter (·.alterDir id (·.rename partFile dataFile))
  let bytes ← orIo (io.encoded { attemptId := attempt, manifest, completedAt := io.completedAt })
  orIo io.manifestCreated
  alter (·.alterDir id (·.create manifestFile))
  writeAll id manifestFile bytes io.manifestWritten
  return { artifactId := id, manifest }

end Gpq
