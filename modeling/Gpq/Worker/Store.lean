import Gpq.Lib.Crew
import Gpq.Worker.Publish

/-!
# The store of outputs

The Worker's store of outputs (`artifacts.rs`) as the routines that it really runs: each call of the
file system is a step, and a copy, a write and a removal are many. They run side by side, any of them
may be dropped anywhere, and the process may crash between any two steps. What a crash leaves is
sorted out when the process boots (`reconcileOnStartup`).

The file system answers a call with a failure, or else does what is asked where that can be done;
calls of the boot may be given that do not fail for other reasons (`faults`).
-/

namespace Gpq

open Routine

/-- Why a call of the file system fails. -/
structure IoError where
  notFound : Bool
  message : String

/-- The JSON of a manifest (`serde_json`): it is read back, and what is written of it before its end
    is not JSON. -/
class ManifestJson where
  encode : StoredManifest → Bytes
  parse : Bytes → Option StoredManifest
  parse_encode : ∀ stored, parse (encode stored) = some stored
  parse_part : ∀ stored part, part <+: encode stored → part ≠ encode stored → parse part = none

/-- The store on the file system, and what became of its outputs. -/
structure ArtifactDisk where
  dirs : ArtifactDirs
  /-- The ids that publishes were given. -/
  ids : List Uuid
  /-- What the publishes that returned have published. -/
  published : Uuid → Option (Bytes × StoredManifest)
  /-- The outputs whose removal was asked for, or begun by a scan that the file system may have
      failed. -/
  discarded : List Uuid

/-- A routine of the store that may fail. -/
abbrev Io (α : Type) : Type 1 := ExceptT IoError (Routine ArtifactDisk) α

namespace ArtifactDisk

/-- The files of an output. -/
def alterDir (id : Uuid) (f : ArtifactDir → ArtifactDir) (disk : ArtifactDisk) : ArtifactDisk :=
  { disk with dirs := disk.dirs.alterDir id f }

/-- The directories that are there. -/
def entries (disk : ArtifactDisk) : List Uuid := disk.ids.filter fun id => (disk.dirs id).isSome

/-- The removal of an output begins. -/
def discard (id : Uuid)
    (disk : ArtifactDisk) : ArtifactDisk := { disk with discarded := id :: disk.discarded }

/-- A publish returns. -/
def record (id : Uuid) (bytes : Bytes) (stored : StoredManifest) (disk : ArtifactDisk) :
    ArtifactDisk :=
  { disk with published := Function.update disk.published id (some (bytes, stored)) }

end ArtifactDisk

namespace ArtifactDir

/-- The files that the store keeps in a directory. -/
def names : List String := [partFile, dataFile, manifestFile]

/-- The files that are there. -/
def entries (files : ArtifactDir) : List String := names.filter fun name => (files name).isSome

/-- Removes a file. -/
def unlink (files : ArtifactDir) (name : String) : ArtifactDir := Function.update files name none

end ArtifactDir

namespace ArtifactStore

/-! ## Calls -/

/-- An answer of the file system. -/
def answered (faults : Bool) : Io Unit :=
  ExceptT.mk (if faults then answer (Except IoError Unit) else pure (.ok ()))

/-- A call of the file system. -/
def call {α : Type} (faults : Bool) (effect : ArtifactDisk → Except IoError α × ArtifactDisk) :
    Io α := do
  answered faults
  ExceptT.mk (locked effect)

/-- What a failing call answers. -/
def attempt {α : Type} (x : Io α) : Io (Except IoError α) := ExceptT.lift x.run

/-- What is asked for is not there. -/
def missing {α : Type} : Except IoError α := .error ⟨true, "No such file or directory (os error 2)"⟩

/-- Some order of the entries, as a directory is read. -/
def ordered {α : Type} [DecidableEq α] (order entries : List α) : List α :=
  if order.Perm entries then order else entries

/-- `create_dir_all`, for the directory of an output. -/
def createDirAll (id : Uuid) : Io Unit :=
  call true fun disk => (.ok (), { disk with dirs := disk.dirs.createDirAll id })

/-- `File::create`. -/
def createFile (id : Uuid) (file : String) : Io Unit :=
  call true fun disk =>
    if (disk.dirs id).isNone then (missing, disk) else (.ok (), disk.alterDir id (·.create file))

/-- One `write`. A file that was removed takes the bytes with it. -/
def append (id : Uuid) (file : String) (bytes : Bytes) : Io Unit :=
  call true fun disk => (.ok (), disk.alterDir id (·.append file bytes))

/-- `write_all`: the bytes are written in parts of these lengths. -/
def writeParts (id : Uuid) (file : String) : Bytes → List ℕ → Io Unit
  | bytes, [] => append id file bytes
  | bytes, n :: lengths => do
    append id file (bytes.take n)
    writeParts id file (bytes.drop n) lengths

/-- `write_all`: the bytes are written in parts. -/
def writeAll (id : Uuid) (file : String) (bytes : Bytes) : Io Unit := do
  writeParts id file bytes (← ExceptT.lift (chosen (List ℕ)))

/-- `rename`, within the directory of an output. -/
def rename (id : Uuid) (old new : String) : Io Unit :=
  call true fun disk =>
    if ((disk.dirs id).bind (· old)).isNone then (missing, disk)
      else (.ok (), disk.alterDir id (·.rename old new))

/-- Reads the manifest of an output and parses it. -/
def readManifest [ManifestJson] (faults : Bool) (id : Uuid) : Io StoredManifest :=
  call faults fun disk =>
    match (disk.dirs id).bind (· manifestFile) with
    | none => (missing, disk)
    | some bytes => ((ManifestJson.parse bytes).elim (.error ⟨false, "invalid data"⟩) .ok, disk)

/-! ## Removal -/

/-- Removes files one by one. -/
def unlinkAll (faults : Bool) (id : Uuid) : List String → Io Unit
  | [] => return
  | name :: names => do
    call faults fun disk => (.ok (), disk.alterDir id (·.unlink name))
    unlinkAll faults id names

/-- `remove_dir_all`: the files that are found are removed one by one, and then the directory. -/
def removeDirAll (faults : Bool) (id : Uuid) : Io Unit := do
  let order ← ExceptT.lift (chosen (List String))
  let names ← call faults fun disk =>
    match disk.dirs id with
    | none => (missing, disk)
    | some files => (.ok (ordered order files.entries), disk)
  unlinkAll faults id names
  call faults fun disk =>
    match disk.dirs id with
    | none => (.ok (), disk)
    | some files =>
      if files.entries.isEmpty then (.ok (), { disk with dirs := Function.update disk.dirs id none })
      else (.error ⟨false, "Directory not empty (os error 39)"⟩, disk)

/-! ## Operations -/

/-- What a source gives: chunks, up to its end or a failure. -/
structure SourceReads where
  chunks : List Bytes
  error : Option IoError

/-- Copies the source to `data.part`: no bytes are its end. -/
def copyData (id : Uuid) (error : Option IoError) (total : UInt64) (hasher : Hasher) :
    List Bytes → Io (UInt64 × Hasher)
  | [] =>
    match error with
    | none => return (total, hasher)
    | some error => throw error
  | [] :: _ => return (total, hasher)
  | chunk :: chunks => do
    writeAll id partFile chunk
    copyData id error (total + .ofNat chunk.length) (hasher.update chunk) chunks

/-- A publish fails with the error of its call. -/
def fromIo {α : Type} (x : Io α) : ExceptT PublishError (Routine ArtifactDisk) α :=
  ExceptT.adapt (fun error => .io error.message) x

/-- Copies the source of a publish into a new directory. -/
def copySource (id : Uuid) : Io (UInt64 × Hasher) := do
  createDirAll id
  let source ← ExceptT.mk (answer (Except IoError SourceReads))
  createFile id partFile
  let copied ← copyData id source.error 0 {} source.chunks
  answered true
  return copied

/-- Publishes a source under a new id. -/
def publish [Sha256] [ManifestJson] (id attempt : Uuid) (manifest : ArtifactManifest) :
    ExceptT PublishError (Routine ArtifactDisk) ArtifactHandle := do
  let (total, hasher) ← fromIo (copySource id)
  ExceptT.mk (pure ((manifest.verify total hasher.finish).mapError .mismatch))
  fromIo (rename id partFile dataFile)
  let completedAt ← ExceptT.lift (chosen Time)
  let stored : StoredManifest := { attemptId := attempt, manifest, completedAt }
  fromIo (answered true)
  fromIo (createFile id manifestFile)
  fromIo (writeAll id manifestFile (ManifestJson.encode stored))
  ExceptT.lift (alter (ArtifactDisk.record id hasher.bytes stored))
  return { artifactId := id, manifest }

/-- Deletes an output; one that is gone is deleted. -/
def delete [UuidText] (token : String) : Io Unit := do
  match UuidText.parse token with
  | .error error => throw ⟨false, error⟩
  | .ok id =>
    ExceptT.lift (alter (ArtifactDisk.discard id))
    match ← attempt (removeDirAll true id) with
    | .ok () => return
    | .error error => if error.notFound then return else throw error

/-- Removes the outputs of these entries that are due. -/
def expireEntries [ManifestJson] (now ttl : Time) : List Uuid → Io (List Uuid)
  | [] => do
    answered true
    return []
  | id :: ids => do
    answered true
    match ← attempt (answered true) with
    | .error _ => expireEntries now ttl ids
    | .ok () =>
      match ← attempt (readManifest true id) with
      | .error _ => expireEntries now ttl ids
      | .ok stored =>
        if stored.completedAt + ttl ≤ now then
          ExceptT.lift (alter (ArtifactDisk.discard id))
          removeDirAll true id
          return id :: (← expireEntries now ttl ids)
        else expireEntries now ttl ids

/-- Removes the outputs that were completed so long ago, among the entries that are read. -/
def expire [ManifestJson] (now ttl : Time) : Io (List Uuid) := do
  expireEntries now ttl (← ExceptT.mk (answer (Except IoError (List Uuid))))

/-- What a scan of the store finds. -/
structure ReconcileReport where
  available : List ArtifactHandle
  incompleteRemoved : List Uuid
  lost : List Uuid

/-- Removes what the scan found unfit. A call that failed may have hidden what is there. -/
def scrap (faults : Bool) (id : Uuid) : Io Unit := do
  ExceptT.lift (alter fun disk => if faults then disk.discard id else disk)
  removeDirAll faults id

/-- One directory of the scan. -/
def reconcileEntry [ManifestJson] (faults : Bool) (report : ReconcileReport) (id : Uuid) :
    Io ReconcileReport := do
  match ← attempt (answered faults) with
  | .error _ => return report
  | .ok () =>
    let dataExists ← attempt
      (call faults fun disk => (.ok ((disk.dirs id).bind (· dataFile)).isSome, disk))
    let manifest ← attempt (readManifest faults id)
    match dataExists.toOption.getD false, manifest with
    | true, .ok stored =>
      return { report with available := report.available ++ [⟨id, stored.manifest⟩] }
    | false, .ok _ =>
      scrap faults id
      return { report with lost := report.lost ++ [id] }
    | _, .error _ =>
      scrap faults id
      return { report with incompleteRemoved := report.incompleteRemoved ++ [id] }

/-- Sorts out the directories that are listed, one by one. -/
def reconcileEntries [ManifestJson] (faults : Bool) : ReconcileReport → List Uuid → Io ReconcileReport
  | report, [] => do
    answered faults
    return report
  | report, id :: ids => do
    answered faults
    reconcileEntries faults (← reconcileEntry faults report id) ids

/-- Scans the store when the process boots. -/
def reconcileOnStartup [ManifestJson] (faults : Bool) : Io ReconcileReport := do
  let order ← ExceptT.lift (chosen (List Uuid))
  let entries ← call faults fun disk => (.ok (ordered order disk.entries), disk)
  reconcileEntries faults ⟨[], [], []⟩ entries

end ArtifactStore

end Gpq
