import Mathlib.Data.Set.Countable
import Gpq.Lib.Machine
import Gpq.Lifecycle.ModelTrees

/-!
# The cache of model hashes

While files are added, removed, replaced and modified, Pools hash models, each with the cache file
of its state directory. A cache file is put in place after it was made, so that those of other
calls may come in between, and some never are.

It is assumed that the content of a path is the same whenever its metadata and that of its members
is (`Stable`). Then every hash in a cache file is that of the content for its metadata
(`Disk.Sound`, in every reachable state), whatever has happened to the files since.

* `hash_cache_transparent`: a hash is that of the content that is there now, with or without a
  cache, and an asset that is verified has the content that its metadata was read of.
-/

namespace Gpq

/-! ## File systems -/

/-- What is found at paths: the names in a directory are different, and have no slash. -/
structure FileState where
  files : Files
  wellFormed : ∀ path, ∀ node ∈ files path, node.WellFormed

/-- The content of a path is the same, if its metadata and that of its members is. -/
def Stable (S : Set FileState) : Prop :=
  ∀ system ∈ S, ∀ system' ∈ S, ∀ path snapshot, ModelSnapshot.read system.files path = .ok snapshot →
    ModelSnapshot.read system'.files path = .ok snapshot →
    (system.files path).map FileNode.content = (system'.files path).map FileNode.content

section Hash

variable (sha256 : Bytes → ContentHash)

/-- The hash of what is found at a path now, whether it can be read or not. -/
def currentHash (files : Files) (path : String) : Option ContentHash :=
  (readModel "model" files path).toOption.map fun (_, members, node) =>
    contentHash sha256 node members

/-- Hashes the model at a path without a cache. -/
def hashWithoutCache (files : Files) (path : String) : Except String ContentHash := do
  let (_, members, node) ← readModel "model" files path
  digestModel sha256 path node members

theorem hashWithoutCache_eq_ok {files : Files} {path : String} {hash : ContentHash}
    (h : hashWithoutCache sha256 files path = .ok hash) :
    currentHash sha256 files path = some hash := by
  obtain ⟨⟨key, members, node⟩, hread, hdigest⟩ := Traverse.bind_eq_ok_iff.1 h
  rw [currentHash, hread, digestModel_eq_ok sha256 hdigest]
  rfl

/-- What is read of a model does not depend on what it is called in errors. -/
theorem readModel_label {label label' path : String} {files : Files}
    {read : CacheKey × List ModelMember × FileNode}
    (h : readModel label files path = .ok read) : readModel label' files path = .ok read := by
  obtain ⟨node, hnode, h⟩ := Traverse.bind_eq_ok_iff.1 h
  refine Traverse.bind_eq_ok_iff.2 ⟨node, ?_, h⟩
  cases hfiles : files path with
  | none =>
    rw [hfiles] at hnode
    cases hnode
  | some found =>
    rw [hfiles] at hnode
    exact hnode

theorem snapshot_of_readModel {files : Files} {path : String} {key : CacheKey}
    {members : List ModelMember} {node : FileNode}
    (h : readModel "model" files path = .ok (key, members, node)) :
    ModelSnapshot.read files path = .ok ⟨key, memberKeys members⟩ :=
  Traverse.bind_eq_ok_iff.2 ⟨_, readModel_label h, rfl⟩

/-- While the metadata of a path and its members is the same, so is the hash. -/
theorem Stable.contentHash_eq {S : Set FileState} (hstable : Stable S) {system system' : FileState}
    (hsystem : system ∈ S) (hsystem' : system' ∈ S) {path : String} {key : CacheKey}
    {members members' : List ModelMember} {node node' : FileNode}
    (h : readModel "model" system.files path = .ok (key, members, node))
    (h' : readModel "model" system'.files path = .ok (key, members', node'))
    (hkeys : memberKeys members = memberKeys members') :
    contentHash sha256 node members = contentHash sha256 node' members' := by
  have hcontent := hstable system hsystem system' hsystem' path _ (snapshot_of_readModel h)
    (hkeys ▸ snapshot_of_readModel h')
  obtain ⟨hnode, hread⟩ := readModel_eq_ok (system.wellFormed path) h
  obtain ⟨hnode', hread'⟩ := readModel_eq_ok (system'.wellFormed path) h'
  rw [hnode, hnode'] at hcontent
  exact Gpq.contentHash_eq sha256 (system.wellFormed path node hnode)
    (system'.wellFormed path node' hnode') hread hread'
    hkeys (Option.some.inj hcontent)

/-- A snapshot has the keys of what was read. -/
theorem ModelSnapshot.read_eq_ok {files : Files} {path : String} {snapshot : ModelSnapshot}
    (h : ModelSnapshot.read files path = .ok snapshot) : ∃ members node,
      readModel "model" files path = .ok (snapshot.key, members, node) ∧
      snapshot.members = memberKeys members := by
  obtain ⟨⟨key, members, node⟩, hread, h⟩ := Traverse.bind_eq_ok_iff.1 h
  cases h
  exact ⟨members, node, readModel_label hread, rfl⟩

/-- Where the keys are the same, so is the hash. -/
theorem Stable.currentHash_eq {S : Set FileState} (hstable : Stable S) {system system' : FileState}
    (hsystem : system ∈ S) (hsystem' : system' ∈ S) {path : String} {snapshot : ModelSnapshot}
    (h : ModelSnapshot.read system.files path = .ok snapshot)
    (h' : ModelSnapshot.read system'.files path = .ok snapshot) :
    currentHash sha256 system.files path = currentHash sha256 system'.files path := by
  obtain ⟨members, node, hread, hmembers⟩ := ModelSnapshot.read_eq_ok h
  obtain ⟨members', node', hread', hmembers'⟩ := ModelSnapshot.read_eq_ok h'
  rw [currentHash, currentHash, hread, hread']
  exact congrArg some
    (hstable.contentHash_eq sha256 hsystem hsystem' hread hread' (hmembers.symm.trans hmembers'))

end Hash

/-! ## Cache files -/

section Cache

variable [CacheJson] (sha256 : Bytes → ContentHash) (S : Set FileState)

/-- An entry of a cache file is of what was found at its path at some time. -/
def CacheEntry.Sound (path : String) (entry : CacheEntry) : Prop :=
  ∃ system ∈ S, ∃ members node, readModel "model" system.files path = .ok (entry.key, members, node) ∧
    entry.members = memberKeys members ∧ entry.hash = contentHash sha256 node members

/-- A cache file is read, and its entries are of what was found at some time. -/
def SoundCache (bytes : Bytes) : Prop :=
  ∃ cache : CacheFile, CacheJson.read bytes = some cache ∧
    ∀ path entry, cache.lookup path = some entry → entry.Sound sha256 S path

variable {sha256 S} {system : FileState} {cacheFile : Option Bytes} {saves : Bool} {path : String}
    {hash : ContentHash}

/-- A cache that is loaded is sound if its file is; without a file there is nothing in it. -/
theorem loadCache_sound (h : ∀ bytes ∈ cacheFile, SoundCache sha256 S bytes) :
    ∃ cache, loadCache cacheFile = .ok cache ∧
    ∀ path entry, cache.lookup path = some entry → entry.Sound sha256 S path := by
  cases cacheFile with
  | none => exact ⟨∅, rfl, fun path entry hentry => by simp at hentry⟩
  | some bytes =>
    obtain ⟨cache, hread, hsound⟩ := h bytes rfl
    exact ⟨cache, by rw [loadCache, hread]; rfl, hsound⟩

omit [CacheJson] in
/-- A hash that is found in the cache is that of the content. -/
theorem cachedHash_eq_some (hstable : Stable S) (hsystem : system ∈ S) {cache : CacheFile}
    (hsound : ∀ path entry, cache.lookup path = some entry → entry.Sound sha256 S path)
    {key : CacheKey} {members : List ModelMember} {node : FileNode}
    (hread : readModel "model" system.files path = .ok (key, members, node))
    (h : cachedHash cache path key members = some hash) : hash = contentHash sha256 node members := by
  rw [cachedHash] at h
  split at h
  · cases h
  · rename_i entry hentry
    split at h
    · rename_i hsame
      cases h
      obtain ⟨system', hsystem', members', node', hread', hmembers, hhash⟩ := hsound path entry hentry
      rw [hsame.1] at hread'
      rw [hhash]
      exact hstable.contentHash_eq sha256 hsystem' hsystem hread' hread (hmembers.symm.trans hsame.2)
    · cases h

section Call

variable (hstable : Stable S) (hsystem : system ∈ S)
    (hsound : ∀ bytes ∈ cacheFile, SoundCache sha256 S bytes)

include hstable hsystem hsound

/-- What a call does: it fails, finds the hash of the content in the cache, or hashes the content and
    adds the hash to the cache. -/
theorem hashModel_cases :
    (∃ err, hashModel sha256 system.files cacheFile saves path = (.error err, cacheFile)) ∨
    ∃ key members node, readModel "model" system.files path = .ok (key, members, node) ∧
      (hashModel sha256 system.files cacheFile saves path =
        (.ok (contentHash sha256 node members), cacheFile) ∨
        ∃ cache : CacheFile, (∀ path entry, cache.lookup path = some entry →
          entry.Sound sha256 S path) ∧
          hashModel sha256 system.files cacheFile saves path = (.ok (contentHash sha256 node members),
            some (CacheJson.write
              (cache.insert path ⟨key, memberKeys members,
                contentHash sha256 node members⟩)))) := by
  obtain ⟨cache, hload, hcache⟩ := loadCache_sound hsound
  rw [hashModel, hload]
  cases hread : readModel "model" system.files path with
  | error err => exact .inl ⟨err, rfl⟩
  | ok read =>
    obtain ⟨key, members, node⟩ := read
    dsimp only
    cases hhit : cachedHash cache path key members with
    | some found =>
      refine .inr ⟨key, members, node, rfl, .inl ?_⟩
      rw [cachedHash_eq_some hstable hsystem hcache hread hhit]
    | none =>
      cases hdigest : digestModel sha256 path node members with
      | error err => exact .inl ⟨err, rfl⟩
      | ok digest =>
        cases saves with
        | false => exact .inl ⟨_, rfl⟩
        | true =>
          refine .inr ⟨key, members, node, rfl, .inr ⟨cache, hcache, ?_⟩⟩
          rw [← digestModel_eq_ok sha256 hdigest]
          rfl

/-- The hash of a call is that of the content. -/
theorem hashModel_eq_ok (h : (hashModel sha256 system.files cacheFile saves path).1 = .ok hash) :
    currentHash sha256 system.files path = some hash := by
  rw [currentHash]
  obtain ⟨err, heq⟩ | ⟨key, members, node, hread, heq | ⟨cache, _, heq⟩⟩ :=
    @hashModel_cases _ sha256 S system cacheFile saves path hstable hsystem hsound
  · rw [heq] at h
    cases h
  · rw [heq] at h
    cases h
    rw [hread]
    rfl
  · rw [heq] at h
    cases h
    rw [hread]
    rfl

/-- Where hashing without a cache gives a hash, a call that can write the cache gives the same. -/
theorem hashModel_of_hashWithoutCache (h : hashWithoutCache sha256 system.files path = .ok hash) :
    (hashModel sha256 system.files cacheFile true path).1 = .ok hash := by
  obtain ⟨cache, hload, hcache⟩ := loadCache_sound hsound
  obtain ⟨⟨key, members, node⟩, hread, hdigest⟩ := Traverse.bind_eq_ok_iff.1 h
  rw [hashModel, hload, hread]
  dsimp only
  cases hhit : cachedHash cache path key members with
  | some found =>
    rw [digestModel_eq_ok sha256 hdigest, ← cachedHash_eq_some hstable hsystem hcache hread hhit]
  | none =>
    dsimp only at hdigest ⊢
    rw [hdigest]
    rfl

/-- A call leaves a cache file whose entries are of what was found. -/
theorem hashModel_cache (hjson : ∀ cache, CacheJson.read (CacheJson.write cache) = some cache)
    {bytes : Bytes} (h : (hashModel sha256 system.files cacheFile saves path).2 = some bytes) :
    SoundCache sha256 S bytes := by
  obtain ⟨err, heq⟩ | ⟨key, members, node, hread, heq | ⟨cache, hcache, heq⟩⟩ :=
    @hashModel_cases _ sha256 S system cacheFile saves path hstable hsystem hsound
  · rw [heq] at h
    exact hsound bytes h
  · rw [heq] at h
    exact hsound bytes h
  · rw [heq] at h
    cases h
    refine ⟨_, hjson _, fun path' entry hentry => ?_⟩
    by_cases hpath : path' = path
    · subst hpath
      rw [Finmap.lookup_insert] at hentry
      cases hentry
      exact ⟨system, hsystem, members, node, hread, rfl, rfl⟩
    · rw [Finmap.lookup_insert_of_ne _ hpath] at hentry
      exact hcache path' entry hentry

end Call

/-! ## Runs -/

/-- The files, the cache files of state directories, and those that are being written. -/
structure Disk where
  system : FileState
  caches : String → Option Bytes
  writes : List (String × Bytes)

variable (sha256 S)

/-- No model was hashed yet. -/
def Disk.Init (disk : Disk) : Prop := disk.system ∈ S ∧ (∀ dir, disk.caches dir = none) ∧
    disk.writes = []

/-- What may happen to the files and the caches. -/
inductive DiskStep : Disk → Disk → Prop
  /-- Files are added, removed, replaced or modified. -/
  | change (disk : Disk) {system : FileState} (h : system ∈ S) : DiskStep disk { disk with system }
  /-- A model is hashed, which makes a new cache file. -/
  | hash (disk : Disk) (dir path : String) {bytes : Bytes}
      (h : (hashModel sha256 disk.system.files (disk.caches dir) true path).2 = some bytes)
      (hnew : disk.caches dir ≠ some bytes) : DiskStep disk
        { disk with writes := (dir, bytes) :: disk.writes }
  /-- A new cache file is put in place. -/
  | save (disk : Disk) {dir : String} {bytes : Bytes} (h : (dir, bytes) ∈ disk.writes) :
      DiskStep disk { disk with
        caches := Function.update disk.caches dir (some bytes)
        writes := disk.writes.erase (dir, bytes) }
  /-- A new cache file is lost. -/
  | lose (disk : Disk) {dir : String} {bytes : Bytes} (h : (dir, bytes) ∈ disk.writes) :
      DiskStep disk { disk with writes := disk.writes.erase (dir, bytes) }

/-- Every cache file has entries of what was found at some time. -/
structure Disk.Sound (disk : Disk) : Prop where
  system : disk.system ∈ S
  caches : ∀ dir, ∀ bytes ∈ disk.caches dir, SoundCache sha256 S bytes
  writes : ∀ write ∈ disk.writes, SoundCache sha256 S write.2

variable {sha256 S}

/-- What happens to files and caches keeps all caches sound. -/
theorem Disk.Sound.step (hjson : ∀ cache, CacheJson.read (CacheJson.write cache) = some cache)
    (hstable : Stable S) {disk disk' : Disk} (h : disk.Sound sha256 S)
    (hstep : DiskStep sha256 S disk disk') :
    disk'.Sound sha256 S := by
  cases hstep with
  | change hsystem => exact { h with system := hsystem }
  | hash dir path hbytes _ =>
    have hcache := hashModel_cache hstable h.system (h.caches dir) hjson hbytes
    exact { h with writes := List.forall_mem_cons.2 ⟨hcache, h.writes⟩ }
  | @save dir bytes hwrite =>
    refine ⟨h.system, fun dir' (bytes' : Bytes) hbytes' => ?_,
      fun write hmem => h.writes write (List.mem_of_mem_erase hmem)⟩
    dsimp only at hbytes'
    -- the cache that is saved was written by a hash before
    by_cases hdir : dir' = dir
    · subst hdir
      rw [Function.update_self] at hbytes'
      cases hbytes'
      exact h.writes _ hwrite
    · rw [Function.update_of_ne hdir] at hbytes'
      exact h.caches dir' bytes' hbytes'
  | lose hwrite =>
    exact { h with writes := fun write hmem => h.writes write (List.mem_of_mem_erase hmem) }

/-- Every cache that may be read is sound. -/
theorem Disk.sound (hjson : ∀ cache, CacheJson.read (CacheJson.write cache) = some cache)
    (hstable : Stable S) {disk : Disk}
    (hreach : Machine.Reachable (Disk.Init S) (DiskStep sha256 S) disk) :
    disk.Sound sha256 S := by
  refine Machine.Reachable.invariant ?_ (fun _ _ _ h hstep => h.step hjson hstable hstep) hreach
  rintro disk ⟨hsystem, hcaches, hwrites⟩
  refine ⟨hsystem, fun dir bytes hbytes => ?_, hwrites ▸ nofun⟩
  rw [hcaches] at hbytes
  cases hbytes

omit [CacheJson] in
theorem AssetSnapshot.verify_eq_ok {files : Files} {asset : AssetSnapshot}
    (h : asset.verify files = .ok ()) :
    ModelSnapshot.read files asset.path = .ok asset.snapshot := by
  obtain ⟨current, hcurrent, h⟩ := Traverse.bind_eq_ok_iff.1 h
  rw [hcurrent, Traverse.ensure_eq_ok_iff.1 h]

/-- Whatever has happened to the files, a call gives the hash of the content that is there now, as
    without a cache, and an asset that is verified has the content that its metadata was read of. -/
theorem hash_cache_transparent (hjson : ∀ cache, CacheJson.read (CacheJson.write cache) = some cache)
    (hstable : Stable S) {disk : Disk}
    (hreach : Machine.Reachable (Disk.Init S) (DiskStep sha256 S) disk) :
    (∀ dir saves path hash, (hashModel sha256 disk.system.files (disk.caches dir) saves path).1 =
      .ok hash →
      currentHash sha256 disk.system.files path = some hash) ∧
    (∀ dir path hash, hashWithoutCache sha256 disk.system.files path = .ok hash →
      currentHash sha256 disk.system.files path = some hash ∧
      (hashModel sha256 disk.system.files (disk.caches dir) true path).1 = .ok hash) ∧
    ∀ earlier ∈ S, ∀ asset : AssetSnapshot, ModelSnapshot.read earlier.files asset.path =
      .ok asset.snapshot →
      asset.verify disk.system.files = .ok () →
      (earlier.files asset.path).map FileNode.content =
        (disk.system.files asset.path).map FileNode.content ∧
      currentHash sha256 earlier.files asset.path =
        currentHash sha256 disk.system.files asset.path := by
  have hsound := Disk.sound hjson hstable hreach
  refine ⟨fun dir saves path hash h => hashModel_eq_ok hstable hsound.system (hsound.caches dir) h,
    fun dir path hash h => ⟨hashWithoutCache_eq_ok sha256 h, ?_⟩,
      fun earlier hearlier asset hread hverify => ?_⟩
  · exact hashModel_of_hashWithoutCache hstable hsound.system (hsound.caches dir) h
  · have hcurrent := AssetSnapshot.verify_eq_ok hverify
    exact ⟨hstable earlier hearlier disk.system hsound.system asset.path asset.snapshot hread
      hcurrent, hstable.currentHash_eq sha256 hearlier hsound.system hread hcurrent⟩

end Cache

/-! ## A replaced model -/

namespace Sample

/-- The metadata of a file or directory. -/
def metadataOf (len : ℕ) (modified : ℤ) (ino : ℕ) : Metadata := ⟨len, modified, 1, ino⟩

/-- A model of two files, of which the second one is written anew. -/
def modelNode (modified : ℤ) (second : Bytes) : FileNode :=
  .directory (metadataOf 4096 1 2) true <|
    .cons (Utf8.bytes "b.gguf") false (.file (metadataOf 2 modified 4) true second) <|
    .cons (Utf8.bytes "a.gguf") false (.file (metadataOf 4 1 3) true [1, 2, 3, 4]) .nil

/-- The model, at `/models/m`. -/
def modelAt (modified : ℤ) (second : Bytes) : FileState where
  files path := if path = "/models/m" then some (modelNode modified second) else none
  wellFormed path node hnode := by
    split at hnode
    · cases hnode
      have hnames : [Utf8.bytes "b.gguf", Utf8.bytes "a.gguf"].Nodup ∧ 47 ∉ Utf8.bytes "b.gguf" ∧
          47 ∉ Utf8.bytes "a.gguf" := by decide +kernel
      exact ⟨hnames.1, hnames.2.1, trivial, hnames.2.2, trivial, trivial⟩
    · cases hnode

/-- The model as it was hashed first. -/
def firstModel : FileState := modelAt 1 [5, 6]

/-- The model after its second file was written anew. -/
def secondModel : FileState := modelAt 2 [7, 8]

/-- The hash of the first model. -/
def firstHash : ContentHash := 0xa0f67151bc9b8f880b70d595a435b33fcb5f82f1a600cc605fb1b401453a059b

/-- The hash of the second model. -/
def secondHash : ContentHash := 0x0a08ba01f241c39327593bfcd077ac2d493747849d029af96a7011aeda2f97d5

/-- What is hashed of the model. -/
def modelBytes (second : Bytes) : Bytes :=
  directoryBytes [("a.gguf", ⟨4, true, [1, 2, 3, 4]⟩), ("b.gguf", ⟨2, true, second⟩)]

/-- The digest, on what is hashed of the two models. -/
def hashOf (bytes : Bytes) : ContentHash :=
  if bytes = modelBytes [5, 6] then firstHash else secondHash

/-- The key of the directory, which stays the same. -/
def directoryKey : CacheKey := ⟨4096, 1, "1:2", true⟩

/-- The keys of its files at first. -/
def firstKeys : Finmap fun _ : String => CacheKey :=
  ((∅ : Finmap fun _ : String => CacheKey).insert "a.gguf" ⟨4, 1, "1:3", false⟩).insert "b.gguf"
    ⟨2, 1, "1:4", false⟩

/-- The keys of its files after the second one was written anew. -/
def secondKeys : Finmap fun _ : String => CacheKey :=
  ((∅ : Finmap fun _ : String => CacheKey).insert "a.gguf" ⟨4, 1, "1:3", false⟩).insert "b.gguf"
    ⟨2, 2, "1:4", false⟩

/-- The models are told apart by when the second file was modified. -/
theorem stable_models : Stable {firstModel, secondModel} := by
  have hne : ∀ path snapshot, ModelSnapshot.read firstModel.files path = .ok snapshot →
      ModelSnapshot.read secondModel.files path ≠ .ok snapshot := by
    intro path snapshot h h'
    by_cases hpath : path = "/models/m"
    · subst hpath
      have hfirst : ModelSnapshot.read firstModel.files "/models/m" =
          .ok ⟨directoryKey, firstKeys⟩ := rfl
      have hsecond : ModelSnapshot.read secondModel.files "/models/m" =
          .ok ⟨directoryKey, secondKeys⟩ := rfl
      have heq := Except.ok.inj ((hsecond.symm.trans h').trans (h.symm.trans hfirst))
      have hkey := congrArg (Finmap.lookup "b.gguf") (congrArg ModelSnapshot.members heq)
      rw [secondKeys, firstKeys, Finmap.lookup_insert, Finmap.lookup_insert] at hkey
      exact absurd hkey (by decide)
    · have hnone : firstModel.files path = none := if_neg hpath
      rw [ModelSnapshot.read, readModel, hnone] at h
      cases h
  rintro system (rfl | rfl) system' (rfl | rfl) path snapshot h h'
  · rfl
  · exact absurd h' (hne path snapshot h)
  · exact absurd h (hne path snapshot h')
  · rfl

/-- The cache file after the first model was hashed. -/
def firstCache : CacheFile := Finmap.insert "/models/m" ⟨directoryKey, firstKeys, firstHash⟩ ∅

/-- The text of that cache file. -/
def firstCacheText : String :=
  "\x7b\n" ++
  "  \"/models/m\": \x7b\n" ++
  "    \"key\": \x7b\n" ++
  "      \"size\": 4096,\n" ++
  "      \"mtime_unix_nanos\": 1,\n" ++
  "      \"file_id\": \"1:2\",\n" ++
  "      \"directory\": true\n" ++
  "    \x7d,\n" ++
  "    \"members\": \x7b\n" ++
  "      \"a.gguf\": \x7b\n" ++
  "        \"size\": 4,\n" ++
  "        \"mtime_unix_nanos\": 1,\n" ++
  "        \"file_id\": \"1:3\",\n" ++
  "        \"directory\": false\n" ++
  "      \x7d,\n" ++
  "      \"b.gguf\": \x7b\n" ++
  "        \"size\": 2,\n" ++
  "        \"mtime_unix_nanos\": 1,\n" ++
  "        \"file_id\": \"1:4\",\n" ++
  "        \"directory\": false\n" ++
  "      \x7d\n" ++
  "    \x7d,\n" ++
  "    \"hash\": \"a0f67151bc9b8f880b70d595a435b33fcb5f82f1a600cc605fb1b401453a059b\"\n" ++
  "  \x7d\n" ++
  "\x7d"

instance countableString : Countable String := by
  have hchar : Countable Char :=
    Function.Injective.countable (f := Char.toNat) fun a b h => Char.toNat_inj.1 h
  exact Function.Injective.countable (f := String.toList) fun a b h => String.toList_inj.1 h

instance countableHash : Countable ContentHash :=
  Function.Injective.countable (f := BitVec.toNat) fun _ _ => BitVec.eq_of_toNat_eq

instance countableKey : Countable CacheKey :=
  Function.Injective.countable
      (f := fun key => (key.size, key.mtimeUnixNanos, key.fileId, key.directory)) fun a b h => by
    cases a
    cases b
    cases h
    rfl

instance countableFinmap {α : Type} [Countable α] : Countable (Finmap fun _ : String => α) :=
  Function.Injective.countable (f := Finmap.entries) fun _ _ => Finmap.ext

instance countableEntry : Countable CacheEntry :=
  Function.Injective.countable
      (f := fun entry => (entry.key, entry.members, entry.hash)) fun a b h => by
    cases a
    cases b
    cases h
    rfl

/-- The JSON of the cache file after the first model; that of others is only told apart. -/
noncomputable def cacheText (cache : CacheFile) : Bytes :=
  open Classical in
  if cache = firstCache then Utf8.bytes firstCacheText
  else List.replicate (Classical.choose (exists_injective_nat CacheFile) cache) 32

/-- Caches are told apart by their texts. -/
theorem cacheText_injective : Function.Injective cacheText := by
  -- the text of the first cache is not blank, as those of the others are
  have hspaces : ∀ n, Utf8.bytes firstCacheText ≠ List.replicate n 32 := by
    intro n heq
    have hbrace : '\x7d' ∈ firstCacheText.toList := Utf8.mem_toList_append (by decide)
    have hmem : 125 ∈ Utf8.bytes firstCacheText := Utf8.mem_bytes_of_mem (by decide) hbrace
    rw [heq] at hmem
    exact absurd (List.eq_of_mem_replicate hmem) (by decide)
  intro cache cache' h
  by_cases hfirst : cache = firstCache <;> by_cases hfirst' : cache' = firstCache
  · rw [hfirst, hfirst']
  · rw [cacheText, cacheText, if_pos hfirst, if_neg hfirst'] at h
    exact absurd h (hspaces _)
  · rw [cacheText, cacheText, if_neg hfirst, if_pos hfirst'] at h
    exact absurd h.symm (hspaces _)
  · rw [cacheText, cacheText, if_neg hfirst, if_neg hfirst'] at h
    have hlength := congrArg List.length h
    rw [List.length_replicate, List.length_replicate] at hlength
    exact Classical.choose_spec (exists_injective_nat CacheFile) hlength

/-- Cache files as texts that are told apart. -/
@[reducible] noncomputable def cacheJson : CacheJson := ⟨cacheText, Function.partialInv cacheText⟩

end Sample

/-- The first model was hashed, and its hash was cached; then its second file was written anew. -/
theorem hash_cache_transparent_replaced :
    (@hashModel Sample.cacheJson Sample.hashOf Sample.secondModel.files
      (some (Utf8.bytes Sample.firstCacheText)) true
      "/models/m").1 = .ok Sample.secondHash := by
  let _ := Sample.cacheJson
  have htext : CacheJson.write Sample.firstCache = Utf8.bytes Sample.firstCacheText := if_pos rfl
  let disk : Disk := ⟨Sample.firstModel, fun _ => none, []⟩
  have hinit : Machine.Reachable (Disk.Init {Sample.firstModel, Sample.secondModel})
      (DiskStep Sample.hashOf {Sample.firstModel, Sample.secondModel}) disk :=
        .init ⟨.inl rfl, fun _ => rfl, rfl⟩
  have hhash :=
    hinit.step (@DiskStep.hash _ _ _ disk "/state" "/models/m"
      (CacheJson.write Sample.firstCache) rfl nofun)
  have hsave := hhash.step (.save _ List.mem_cons_self)
  have hchange := hsave.step (@DiskStep.change _ _ _ _ Sample.secondModel (.inr rfl))
  rw [← htext]
  exact ((hash_cache_transparent
    (Function.partialInv_left Sample.cacheText_injective) Sample.stable_models hchange).2.1
    "/state" "/models/m" Sample.secondHash rfl).2

end Gpq
