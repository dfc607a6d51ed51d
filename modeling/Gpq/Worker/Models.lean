import Mathlib.Data.Finmap
import Mathlib.Data.List.Lex
import Mathlib.Data.List.Sort
import Gpq.Domain.Manifest
import Gpq.Lib.Traverse
import Gpq.Lib.Utf8
import Gpq.Remote.Schema

/-!
# The hashes of models

A model is a file or a directory. Its hash is the digest of the file, or of all files below the
directory with their relative paths (`digestDirectory`). A Pool keeps the hashes in a cache file:
`hashModel` returns the hash that was cached for a path, if the metadata of the model and of every
member is still the same, and hashes the model anew otherwise.

What is found at a path is a tree, in which links are followed. A path is its text, and an error the
text of its outermost context; hashing is not cancelled. The digest of bytes and the JSON of the
cache file are parameters.
-/

namespace Gpq

open Traverse (ensure)

/-! ## Files -/

/-- What the file system says of a file: its length, when it was modified, in nanoseconds since the
    epoch, and its device and inode. -/
structure Metadata where
  len : ℕ
  modified : ℤ
  dev : ℕ
  ino : ℕ

mutual

/-- What is found at a path. -/
inductive FileNode
  | file (metadata : Metadata) (readable : Bool) (bytes : Bytes)
  | directory (metadata : Metadata) (readable : Bool) (entries : DirEntries)
  | special (metadata : Metadata)

/-- What a directory lists, in any order: names, whether they are links, and what is found there. -/
inductive DirEntries
  | nil
  | cons (name : Bytes) (symlink : Bool) (node : FileNode) (rest : DirEntries)

end

namespace FileNode

/-- The metadata of what is found. -/
def metadata : FileNode → Metadata
  | file metadata _ _ => metadata
  | directory metadata _ _ => metadata
  | special metadata => metadata

/-- Whether a directory is found. -/
def isDir : FileNode → Bool
  | directory _ _ _ => true
  | _ => false

end FileNode

/-! ## Cache keys -/

/-- What must stay the same for a cached hash to remain valid. -/
structure CacheKey where
  size : ℕ
  mtimeUnixNanos : ℤ
  fileId : String
  directory : Bool
  deriving DecidableEq

/-- The device and the inode of a file, as a text. -/
def fileIdentity (metadata : Metadata) : String := toString metadata.dev ++ ":" ++
    toString metadata.ino

/-- The key of what is found; nothing is older than the epoch. -/
def cacheKey (node : FileNode) : Except String CacheKey := do
  ensure (0 ≤ node.metadata.modified) "file modification time is before the Unix epoch"
  return {
    size := node.metadata.len
    mtimeUnixNanos := min node.metadata.modified (2 ^ 127 - 1)
    fileId := fileIdentity node.metadata
    directory := node.isDir }

/-! ## The members of a directory -/

/-- A file to be hashed. -/
structure ModelFile where
  size : ℕ
  readable : Bool
  bytes : Bytes

/-- A member of a model: the components of its path below the model, their text, its metadata, and
    the file, if it is one. -/
structure ModelMember where
  components : List Bytes
  relative : String
  key : CacheKey
  file : Option ModelFile

/-- The text of a path below a model. -/
def relativeModelPath (components : List Bytes) : Except String String :=
  ((components.mapM Utf8.decode).map ("/".intercalate ·)).elim
    (.error "model paths must be valid UTF-8") .ok

/-- Names are ordered by their bytes. -/
def nameKey (name : Bytes) : List ℕ := name.map UInt8.toNat

/-- Collects an entry of a directory, with what was collected below it. -/
def collectEntry (path : String) (components : List Bytes) (symlink : Bool) (node : FileNode)
    (below : Except String (List ModelMember)) : Except String (List ModelMember) := do
  let relative ← relativeModelPath components
  let key ← cacheKey node
  match node with
  | .directory _ _ _ =>
    ensure (¬ symlink) ("model directory symlink " ++ path ++ " is not supported")
    return { components, relative, key, file := none } :: (← below)
  | .file metadata readable bytes =>
    return [{ components, relative, key, file := some { size := metadata.len, readable, bytes } }]
  | .special _ => throw ("model entry " ++ path ++ " is not a file or directory")

mutual

/-- Collects the members of a directory, in the order of their names. -/
def collectModelFiles (path : String) (components : List Bytes) :
    FileNode → Except String (List ModelMember)
  | .directory _ readable entries => do
    ensure readable ("reading model directory " ++ path)
    let collected := (collectEntries path components entries).insertionSort
      fun a b => nameKey a.1 ≤ nameKey b.1
    let members ← collected.mapM (·.2)
    return members.flatten
  | _ => return []

/-- What is collected of each entry. -/
def collectEntries (path : String) (components : List Bytes) :
    DirEntries → List (Bytes × Except String (List ModelMember))
  | .nil => []
  | .cons name symlink node rest =>
    let entryPath := path ++ "/" ++ (Utf8.decode name).getD ""
    let entryComponents := components ++ [name]
    (name, collectEntry entryPath entryComponents symlink node
      (collectModelFiles entryPath entryComponents node)) ::
      collectEntries path components rest

end

/-- The members of a model; a file has none. -/
def modelFiles (path : String) (node : FileNode) : Except String (List ModelMember) :=
  match node with
  | .directory _ _ _ => collectModelFiles path [] node
  | .file _ _ _ => .ok []
  | .special _ => .error ("model " ++ path ++ " is not a file or directory")

/-- The metadata of the members, by relative path. -/
def memberKeys (members : List ModelMember) : Finmap fun _ : String => CacheKey :=
  members.foldl (fun keys member => keys.insert member.relative member.key) ∅

/-! ## Digests -/

section Digest

variable (sha256 : Bytes → ContentHash)

/-- A number in eight bytes, the highest one first. -/
def beBytes (n : ℕ) : Bytes := (List.range 8).map fun i => UInt8.ofNat (n / 256 ^ (7 - i))

/-- What is hashed of a file below a directory. -/
def fileBytes (relative : String) (file : ModelFile) : Bytes :=
  beBytes (Utf8.bytes relative).length ++ Utf8.bytes relative ++ beBytes file.size ++ file.bytes

/-- What is hashed of a directory. -/
def directoryBytes (files : List (String × ModelFile)) : Bytes :=
  Utf8.bytes "gpq-model-directory-v1" ++ [0] ++
    files.flatMap fun (relative, file) => fileBytes relative file

/-- The files among the members. -/
def memberFiles (members : List ModelMember) : List (String × ModelFile) :=
  members.filterMap fun member => member.file.map (member.relative, ·)

/-- The digest of a directory, whose files must all be readable. -/
def digestDirectory (path : String) (members : List ModelMember) : Except String ContentHash := do
  (memberFiles members).forM fun (relative, file) =>
    ensure file.readable ("opening model " ++ path ++ "/" ++ relative)
  return sha256 (directoryBytes (memberFiles members))

/-- The digest of a file. -/
def digestFile (path : String) (readable : Bool) (bytes : Bytes) : Except String ContentHash := do
  ensure readable ("opening model " ++ path)
  return sha256 bytes

/-- Hashes a model with its members. -/
def digestModel (path : String) (node : FileNode) (members : List ModelMember) :
    Except String ContentHash :=
  match node with
  | .file _ readable bytes => digestFile sha256 path readable bytes
  | _ => digestDirectory sha256 path members

end Digest

/-! ## The cache -/

/-- The hash of a path, and what it is of. -/
structure CacheEntry where
  key : CacheKey
  members : Finmap fun _ : String => CacheKey
  hash : ContentHash

/-- The hashes of paths. -/
abbrev CacheFile := Finmap fun _ : String => CacheEntry

/-- The JSON text of a cache file. -/
class CacheJson where
  write : CacheFile → Bytes
  read : Bytes → Option CacheFile

/-- What is found at paths. -/
abbrev Files := String → Option FileNode

/-- The metadata of a model and its members, and what they are of. -/
def readModel (label : String) (files : Files) (path : String) :
    Except String (CacheKey × List ModelMember × FileNode) := do
  let node ← (files path).elim (.error ("reading metadata for " ++ label ++ " " ++ path)) .ok
  let key ← cacheKey node
  let members ← modelFiles path node
  return (key, members, node)

/-- The hashes in a cache file; there are none without a file. -/
def loadCache [CacheJson] : Option Bytes → Except String CacheFile
  | none => .ok ∅
  | some bytes => (CacheJson.read bytes).elim (.error "parsing model hash cache") .ok

/-- The cached hash of a path, if it is of what is found there. -/
def cachedHash (cache : CacheFile) (path : String) (key : CacheKey) (members : List ModelMember) :
    Option ContentHash :=
  match cache.lookup path with
  | none => none
  | some entry =>
    if entry.key = key ∧ entry.members = memberKeys members then some entry.hash else none

/-- The hash of the model at a path, and the cache file afterwards; the cache file may fail to be
    written. What one call reads, it reads at one time: files do not change while they are hashed. -/
def hashModel [CacheJson] (sha256 : Bytes → ContentHash) (files : Files) (cacheFile : Option Bytes)
    (saves : Bool)
    (path : String) : Except String ContentHash × Option Bytes :=
  match readModel "model" files path, loadCache cacheFile with
  | .error err, _ => (.error err, cacheFile)
  | .ok _, .error err => (.error err, cacheFile)
  | .ok (key, members, node), .ok cache =>
    match cachedHash cache path key members with
    | some hash => (.ok hash, cacheFile)
    | none =>
      match digestModel sha256 path node members with
      | .error err => (.error err, cacheFile)
      | .ok hash =>
        if saves then (.ok hash,
          some (CacheJson.write (cache.insert path ⟨key, memberKeys members, hash⟩)))
        else (.error "writing model hash cache", cacheFile)

/-! ## Snapshots -/

/-- The metadata of a model. -/
structure ModelSnapshot where
  key : CacheKey
  members : Finmap fun _ : String => CacheKey
  deriving DecidableEq

/-- The metadata of what is at a path now. -/
def ModelSnapshot.read (files : Files) (path : String) : Except String ModelSnapshot := do
  let (key, members, _) ← readModel "model asset" files path
  return { key, members := memberKeys members }

/-- The metadata of an asset when it was hashed. -/
structure AssetSnapshot where
  path : String
  snapshot : ModelSnapshot

/-- The metadata of an asset is what it was. -/
def AssetSnapshot.verify (files : Files) (asset : AssetSnapshot) : Except String Unit := do
  let current ← ModelSnapshot.read files asset.path
  ensure (current = asset.snapshot)
    ("configured model asset " ++ asset.path ++ " changed after its manifest was hashed")

/-- A model of a pool, with what its assets were when it was hashed. -/
structure ConfiguredModel where
  manifestHash : ContentHash
  snapshots : List AssetSnapshot

/-- So is that of every asset of a model. -/
def ConfiguredModel.verifyAssets (files : Files) (model : ConfiguredModel) : Except String Unit :=
  model.snapshots.forM (AssetSnapshot.verify files)

end Gpq
