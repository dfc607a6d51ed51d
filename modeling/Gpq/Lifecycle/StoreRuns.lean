import Gpq.Worker.Store

/-!
# The store of outputs across crashes

Publishes, deletions and expiries run side by side on the store, each is dropped anywhere, and the
process crashes between any two calls of the file system, in the middle of a copy, of a write or of a
removal. Each of these routines is shown here to keep what holds of the store between any two steps
(`ArtifactDisk.Ok`), and to disturb the others no more than they expect.

A publish is followed by the files that it would have made undisturbed (`Held`): others only take
from them, and only once the output is discarded (`Spares`).
-/

namespace Gpq

open Routine
open Relation (ReflTransGen)

/-! ## Directories -/

/-- Of these files, so many are left, or the directory is gone. -/
def LeftOf (want left : Option ArtifactDir) : Prop :=
  ∀ files, left = some files → ∃ dir, want = some dir ∧ ∀ name, files name = none ∨
    files name = dir name

namespace LeftOf

variable {want left left' : Option ArtifactDir} {dir files : ArtifactDir}

theorem refl (want : Option ArtifactDir) : LeftOf want want :=
  fun files h => ⟨files, h, fun _ => .inr rfl⟩

theorem gone (want : Option ArtifactDir) : LeftOf want none :=
  fun files h => absurd h.symm (Option.some_ne_none files)

/-- What is left of what is left. -/
theorem trans (h : LeftOf want left) (h' : LeftOf left left') : LeftOf want left' := by
  intro files hfiles
  obtain ⟨mid, hmid, hsame⟩ := h' files hfiles
  obtain ⟨dir, hdir, hsame'⟩ := h mid hmid
  refine ⟨dir, hdir, fun name => ?_⟩
  rcases hsame name with hnone | heq
  · exact .inl hnone
  · rw [heq]
    exact hsame' name

theorem some (h : LeftOf (some dir) (some files)) (name : String) :
    files name = none ∨ files name = dir name := by
  obtain ⟨dir', hdir, hsame⟩ := h files rfl
  rw [Option.some.inj hdir]
  exact hsame name

/-- A file that is left is what it was. -/
theorem file {name : String} {bytes : Bytes} (h : LeftOf want (.some files))
    (hfile : files name = .some bytes) :
    ∃ dir, want = .some dir ∧ dir name = .some bytes := by
  obtain ⟨dir, hdir, hsame⟩ := h files rfl
  rcases hsame name with hnone | heq
  · exact absurd (hfile.symm.trans hnone) (Option.some_ne_none bytes)
  · exact ⟨dir, hdir, heq.symm.trans hfile⟩

theorem of_none (h : LeftOf none left) : left = none := by
  cases left with
  | none => rfl
  | some files =>
    obtain ⟨dir, hdir, -⟩ := h files rfl
    exact absurd hdir.symm (Option.some_ne_none dir)

theorem isSome (h : LeftOf want left) (hleft : left.isSome) : want.isSome := by
  obtain ⟨files, hfiles⟩ := Option.isSome_iff_exists.1 hleft
  obtain ⟨dir, hdir, -⟩ := h files hfiles
  rw [hdir]
  rfl

/-- A file that is removed. -/
theorem unlink (files : ArtifactDir) (name : String) :
    LeftOf (.some files) (.some (files.unlink name)) := by
  rintro _ ⟨⟩
  refine ⟨files, rfl, fun other => ?_⟩
  by_cases h : other = name
  · rw [h]
    exact .inl (Function.update_self ..)
  · exact .inr (Function.update_of_ne h ..)

/-- A step on the files does the same to those that are left, file by file. -/
def Filewise (f : ArtifactDir → ArtifactDir) : Prop :=
  ∀ dir files : ArtifactDir, (∀ name, files name = none ∨ files name = dir name) →
    ∀ name, f files name = none ∨ f files name = f dir name

theorem map {f : ArtifactDir → ArtifactDir} (hf : Filewise f) (h : LeftOf want left) :
    LeftOf (want.map f) (left.map f) := by
  intro files hfiles
  obtain ⟨mid, hmid, rfl⟩ := Option.map_eq_some_iff.1 hfiles
  obtain ⟨dir, rfl, hsame⟩ := h mid hmid
  exact ⟨f dir, rfl, hf dir mid hsame⟩

/-- A file that is created is empty, whatever is left of the others. -/
theorem filewise_create (file : String) : Filewise (·.create file) := by
  intro dir files h name
  dsimp only [ArtifactDir.create]
  by_cases hname : name = file
  · rw [hname, Function.update_self, Function.update_self]
    exact .inr rfl
  · rw [Function.update_of_ne hname, Function.update_of_ne hname]
    exact h name

/-- A file grows where it is still there. -/
theorem filewise_append (file : String) (bytes : Bytes) : Filewise (·.append file bytes) := by
  intro dir files h name
  dsimp only [ArtifactDir.append]
  by_cases hname : name = file
  · rw [hname, Function.update_self, Function.update_self]
    -- a file that was removed stays away
    rcases h file with hnone | heq
    · rw [hnone]
      exact .inl rfl
    · rw [heq]
      exact .inr rfl
  · rw [Function.update_of_ne hname, Function.update_of_ne hname]
    exact h name

/-- A file is found under its new name, if it is still there. -/
theorem filewise_rename (old new : String) : Filewise (·.rename old new) := by
  intro dir files h name
  dsimp only [ArtifactDir.rename]
  by_cases hold : name = old
  · rw [hold]
    exact .inl (Function.update_self ..)
  · rw [Function.update_of_ne hold, Function.update_of_ne hold]
    by_cases hnew : name = new
    · rw [hnew, Function.update_self, Function.update_self]
      exact h old
    · rw [Function.update_of_ne hnew, Function.update_of_ne hnew]
      exact h name

end LeftOf

namespace ArtifactDir

theorem append_append (files : ArtifactDir) (file : String) (bytes bytes' : Bytes) :
    (files.append file bytes).append file bytes' = files.append file (bytes ++ bytes') := by
  rw [append, append, append, Function.update_idem, Function.update_self, Option.map_map]
  congr 1
  exact congrArg (Option.map · (files file)) (funext fun b => List.append_assoc b bytes bytes')

/-- These bytes, and this of a manifest. -/
structure Holds (files : ArtifactDir) (bytes part : Bytes) : Prop where
  data : files dataFile = some bytes
  manifest : files manifestFile = some part

theorem Holds.create {files : ArtifactDir} {bytes : Bytes} (h : files dataFile = some bytes) :
    (files.create manifestFile).Holds bytes [] := by
  refine ⟨?_, Function.update_self ..⟩
  rw [ArtifactDir.create, Function.update_of_ne (by decide)]
  exact h

/-- More of the manifest is written. -/
theorem Holds.append {files : ArtifactDir} {bytes part : Bytes} (h : files.Holds bytes part)
    (more : Bytes) :
    (files.append manifestFile more).Holds bytes (part ++ more) := by
  constructor
  · rw [ArtifactDir.append, Function.update_of_ne (by decide)]
    exact h.data
  · rw [ArtifactDir.append, Function.update_self, h.manifest]
    rfl

/-- An output whose source is copied. -/
structure Copied (files : ArtifactDir) (copied : UInt64 × Hasher) : Prop where
  part : files partFile = some copied.2.bytes
  manifest : files manifestFile = none
  total : copied.1 = .ofNat copied.2.bytes.length

/-- Where the copy goes under the name of the data, there is no manifest yet. -/
theorem Copied.rename {files : ArtifactDir} {copied : UInt64 × Hasher} (h : files.Copied copied) :
    (files.rename partFile dataFile) dataFile = some copied.2.bytes ∧
      (files.rename partFile dataFile) manifestFile = none := by
  constructor
  · rw [ArtifactDir.rename, Function.update_of_ne (by decide), Function.update_self]
    exact h.part
  · rw [ArtifactDir.rename, Function.update_of_ne (by decide), Function.update_of_ne (by decide)]
    exact h.manifest

variable [ManifestJson]

/-- The manifest, where it parses. -/
def stored (files : ArtifactDir) : Option StoredManifest :=
  (files manifestFile).bind ManifestJson.parse

/-- Data with a manifest that parses is what the manifest says. -/
def Sound [Sha256] (files : ArtifactDir) : Prop :=
  ∀ bytes stored, files dataFile = some bytes → files.stored = some stored →
    stored.manifest.verify (.ofNat bytes.length) (Sha256.digest bytes) = .ok ()

theorem Holds.stored {files : ArtifactDir} {bytes : Bytes} {stored : StoredManifest}
    (h : files.Holds bytes (ManifestJson.encode stored)) : files.stored = some stored := by
  rw [ArtifactDir.stored, h.manifest]
  exact ManifestJson.parse_encode stored

variable [Sha256] {dir files : ArtifactDir}

theorem sound_of_data (h : files dataFile = none) : files.Sound := fun bytes _ hdata _ =>
  absurd (hdata.symm.trans h) (Option.some_ne_none bytes)

theorem sound_of_manifest (h : files manifestFile = none) : files.Sound := by
  intro bytes stored _ hstored
  rw [ArtifactDir.stored, h] at hstored
  exact absurd hstored.symm (Option.some_ne_none stored)

/-- What is left of sound files is sound. -/
theorem Sound.left (h : dir.Sound) (hleft : LeftOf (some dir) (some files)) : files.Sound := by
  intro bytes stored hdata hstored
  obtain ⟨part, hpart, hparse⟩ := Option.bind_eq_some_iff.1 hstored
  obtain ⟨_, ⟨⟩, hdata'⟩ := hleft.file hdata
  obtain ⟨_, ⟨⟩, hpart'⟩ := hleft.file hpart
  refine h bytes stored hdata' ?_
  rw [ArtifactDir.stored, hpart']
  exact hparse

/-- Data that was verified, and a manifest as far as it is written. -/
theorem Holds.sound {bytes part : Bytes} {stored : StoredManifest} (h : files.Holds bytes part)
    (hverify : stored.manifest.verify (.ofNat bytes.length) (Sha256.digest bytes) = .ok ())
    (hpart : part <+: ManifestJson.encode stored) : files.Sound := by
  intro bytes' stored' hdata' hstored
  obtain rfl := Option.some.inj (h.data.symm.trans hdata')
  rw [ArtifactDir.stored, h.manifest, Option.bind_some] at hstored
  by_cases hwhole : part = ManifestJson.encode stored
  · rw [hwhole, ManifestJson.parse_encode] at hstored
    rw [← Option.some.inj hstored]
    exact hverify
  · rw [ManifestJson.parse_part stored part hpart hwhole] at hstored
    exact absurd hstored.symm (Option.some_ne_none stored')

end ArtifactDir

/-! ## The regime of the store -/

namespace ArtifactDisk

/-- The store with other files of one output. -/
def put (id : Uuid) (files : Option ArtifactDir) (disk : ArtifactDisk) : ArtifactDisk :=
  { disk with dirs := Function.update disk.dirs id files }

theorem alterDir_eq_put (id : Uuid) (f : ArtifactDir → ArtifactDir) (disk : ArtifactDisk) :
    disk.alterDir id f = disk.put id ((disk.dirs id).map f) := rfl

@[simp] theorem put_self (id : Uuid) (files : Option ArtifactDir) (disk : ArtifactDisk) :
    (disk.put id files).dirs id = files := Function.update_self ..

theorem put_of_ne {id id' : Uuid} (h : id' ≠ id) (files : Option ArtifactDir) (disk : ArtifactDisk) :
    (disk.put id files).dirs id' = disk.dirs id' := Function.update_of_ne h ..

theorem put_put (id : Uuid) (files files' : Option ArtifactDir) (disk : ArtifactDisk) :
    (disk.put id files).put id files' = disk.put id files' :=
  congrArg (fun dirs => { disk with dirs }) (Function.update_idem ..)

variable [Sha256] [ManifestJson]

/-- What holds of the store at any moment. -/
structure Ok (disk : ArtifactDisk) : Prop where
  nodup : disk.ids.Nodup
  listed : ∀ id, (disk.dirs id).isSome → id ∈ disk.ids
  issued : ∀ id, (disk.published id).isSome → id ∈ disk.ids
  sound : ∀ id files, disk.dirs id = some files → files.Sound
  kept : ∀ id bytes stored, disk.published id = some (bytes, stored) → id ∉ disk.discarded →
    ∃ files, disk.dirs id = some files ∧ files.Holds bytes (ManifestJson.encode stored)

/-- Other files of one output are as good, where that is nothing that has to be kept. -/
theorem Ok.put {disk : ArtifactDisk} {id : Uuid} {files : Option ArtifactDir} (h : disk.Ok)
    (hlisted : files.isSome → id ∈ disk.ids) (hsound : ∀ dir, files = some dir → dir.Sound)
    (hkept : ∀ output, disk.published id = some output → id ∈ disk.discarded) :
    (disk.put id files).Ok := by
  refine ⟨h.nodup, fun id' hid' => ?_, h.issued, fun id' files' hid' => ?_,
    fun id' bytes stored hpublished hdiscarded => ?_⟩
  · by_cases heq : id' = id
    · subst heq
      rw [put_self] at hid'
      exact hlisted hid'
    · rw [put_of_ne heq] at hid'
      exact h.listed id' hid'
  · by_cases heq : id' = id
    · subst heq
      rw [put_self] at hid'
      exact hsound files' hid'
    · rw [put_of_ne heq] at hid'
      exact h.sound id' files' hid'
  · have heq : id' ≠ id := fun heq => hdiscarded (heq ▸ hkept _ (heq ▸ hpublished))
    rw [put_of_ne heq]
    exact h.kept id' bytes stored hpublished hdiscarded

/-- Files that are left are as good. -/
theorem Ok.shrink {disk : ArtifactDisk} {id : Uuid} {left : Option ArtifactDir} (h : disk.Ok)
    (hleft : LeftOf (disk.dirs id) left)
    (hkept : ∀ output, disk.published id = some output → id ∈ disk.discarded) :
    (disk.put id left).Ok := by
  refine h.put (fun hsome => h.listed id (hleft.isSome hsome)) (fun files hfiles => ?_) hkept
  obtain ⟨dir, hdir, -⟩ := hleft files hfiles
  rw [hdir, hfiles] at hleft
  exact (h.sound id dir hdir).left hleft

theorem Ok.discard {disk : ArtifactDisk} (h : disk.Ok) (id : Uuid) : (disk.discard id).Ok :=
  ⟨h.nodup, h.listed, h.issued, h.sound, fun id' bytes stored hpublished hdiscarded =>
    h.kept id' bytes stored hpublished fun hmem => hdiscarded (List.mem_cons_of_mem _ hmem)⟩

end ArtifactDisk

/-- What is under way on the store: the publish of an output, or a removal. -/
inductive StoreTask
  | publishing (id : Uuid)
  | removing

/-- What others leave of an output: all of it, unless it is discarded. -/
structure Spares (id : Uuid) (disk disk' : ArtifactDisk) : Prop where
  listed : id ∈ disk.ids → id ∈ disk'.ids
  discarded : disk.discarded ⊆ disk'.discarded
  published : disk'.published id = disk.published id
  left : LeftOf (disk.dirs id) (disk'.dirs id)
  whole : id ∉ disk.discarded → disk'.dirs id = disk.dirs id

/-- A publish changes its own output only. -/
structure Publishes (id : Uuid) (disk disk' : ArtifactDisk) : Prop where
  ids : disk'.ids = disk.ids
  discarded : disk'.discarded = disk.discarded
  published : ∀ other, other ≠ id → disk'.published other = disk.published other
  dirs : ∀ other, other ≠ id → disk'.dirs other = disk.dirs other

/-- A removal takes away from outputs that are discarded. -/
structure Removes (disk disk' : ArtifactDisk) : Prop where
  ids : disk'.ids = disk.ids
  discarded : disk.discarded ⊆ disk'.discarded
  published : disk'.published = disk.published
  left : ∀ id, LeftOf (disk.dirs id) (disk'.dirs id)
  whole : ∀ id, id ∉ disk.discarded → disk'.dirs id = disk.dirs id

theorem Publishes.refl (id : Uuid) (disk : ArtifactDisk) : Publishes id disk disk :=
  ⟨rfl, rfl, fun _ _ => rfl, fun _ _ => rfl⟩

theorem Publishes.put (id : Uuid) (files : Option ArtifactDir) (disk : ArtifactDisk) :
    Publishes id disk (disk.put id files) :=
  ⟨rfl, rfl, fun _ _ => rfl, fun _ hother => Function.update_of_ne hother ..⟩

theorem Removes.refl (disk : ArtifactDisk) : Removes disk disk :=
  ⟨rfl, fun _ h => h, rfl, fun _ => .refl _, fun _ _ => rfl⟩

theorem Removes.discard (id : Uuid) (disk : ArtifactDisk) : Removes disk (disk.discard id) :=
  ⟨rfl, fun _ h => List.mem_cons_of_mem _ h, rfl, fun _ => .refl _, fun _ _ => rfl⟩

/-- To leave less of an output that is discarded is a removal. -/
theorem Removes.put {id : Uuid} {left : Option ArtifactDir} {disk : ArtifactDisk}
    (hdiscarded : id ∈ disk.discarded)
    (hleft : LeftOf (disk.dirs id) left) : Removes disk (disk.put id left) := by
  refine ⟨rfl, fun _ h => h, rfl, fun other => ?_, fun other hother => ?_⟩
  · by_cases heq : other = id
    · subst heq
      rw [ArtifactDisk.put_self]
      exact hleft
    · rw [ArtifactDisk.put_of_ne heq]
      exact .refl _
  · have heq : other ≠ id := fun heq => hother (heq ▸ hdiscarded)
    exact Function.update_of_ne heq ..

namespace StoreTask

/-- What is known of the store while a task is under way. -/
def Known : StoreTask → ArtifactDisk → Prop
  | publishing id, disk => id ∈ disk.ids
  | removing, _ => True

/-- What a task expects of the others. -/
def Rely : StoreTask → ArtifactDisk → ArtifactDisk → Prop
  | publishing id, disk, disk' => Spares id disk disk'
  | removing, disk, disk' => disk.discarded ⊆ disk'.discarded

/-- What a task does to the store. -/
def Guar : StoreTask → ArtifactDisk → ArtifactDisk → Prop
  | publishing id, disk, disk' => Publishes id disk disk'
  | removing, disk, disk' => Removes disk disk'

/-- No two publishes are of one output. -/
def Apart : StoreTask → StoreTask → Prop
  | publishing id, publishing id' => id ≠ id'
  | _, _ => True

/-- Tasks are apart from each other. -/
theorem Apart.symm {i j : StoreTask} (h : i.Apart j) : j.Apart i := by
  cases i with
  | publishing id =>
    cases j with
    | publishing id' => exact Ne.symm h
    | removing => trivial
  | removing => cases j <;> trivial

/-- What a task does is what the tasks apart from it expect. -/
theorem rely_of_guar {i j : StoreTask} {disk disk' : ArtifactDisk} (h : i.Apart j)
    (hguar : i.Guar disk disk') :
    j.Rely disk disk' := by
  cases i with
  | publishing id =>
    cases j with
    | publishing id' =>
      have hne : id' ≠ id := Ne.symm h
      refine ⟨fun hmem => ?_, ?_, hguar.published id' hne, ?_, fun _ => hguar.dirs id' hne⟩
      · rw [hguar.ids]
        exact hmem
      · rw [hguar.discarded]
        exact fun _ h => h
      · rw [hguar.dirs id' hne]
        exact .refl _
    | removing =>
      rw [Rely, hguar.discarded]
      exact fun _ h => h
  | removing =>
    cases j with
    | publishing id' =>
      refine ⟨fun hmem => ?_, hguar.discarded, congrFun hguar.published id', hguar.left id',
        hguar.whole id'⟩
      rw [hguar.ids]
      exact hmem
    | removing => exact hguar.discarded

theorem Guar.ids {i : StoreTask} {disk disk' : ArtifactDisk} (h : i.Guar disk disk') :
    disk'.ids = disk.ids := by
  cases i with
  | publishing id => exact Publishes.ids h
  | removing => exact Removes.ids h

/-- An id that was taken stays so. -/
theorem Guar.known {i j : StoreTask} {disk disk' : ArtifactDisk} (h : i.Guar disk disk')
    (hj : j.Known disk) :
    j.Known disk' := by
  cases j with
  | publishing id =>
    rw [Known, h.ids]
    exact hj
  | removing => trivial

end StoreTask

/-- Publishes and removals on the store. -/
def storeRegime [Sha256] [ManifestJson] : Regime ArtifactDisk StoreTask where
  inv := ArtifactDisk.Ok
  known := StoreTask.Known
  rely := StoreTask.Rely
  guar := StoreTask.Guar
  apart := StoreTask.Apart
  symm := StoreTask.Apart.symm
  rely_guar := StoreTask.rely_of_guar
  known_guar := StoreTask.Guar.known

/-! ## Publishes -/

namespace ArtifactStore

/-- A call of the file system does what it does, from an assertion that others keep. -/
theorem wpOr_locked {α : Type} {rely guar : ArtifactDisk → ArtifactDisk → Prop}
    {dropped : ArtifactDisk → Prop} {P : ArtifactDisk → Prop} {Q : α → ArtifactDisk → Prop}
    {E : IoError → ArtifactDisk → Prop}
    {effect : ArtifactDisk → Except IoError α × ArtifactDisk} {disk : ArtifactDisk}
    (hP : ∀ s s', P s → rely s s' → P s') (hs : P disk)
    (h : ∀ s, P s → guar s (effect s).2 ∧ Outcome Q E (effect s).1 (effect s).2) :
    WpOr rely guar dropped (call false effect) Q E disk :=
  wpOr_bind (x := answered false) (wp_locked hP hs (fun s hs => (h s hs).1) fun s hs => (h s hs).2)

/-- A call of the file system fails, or does what it does, from an assertion that others keep. -/
theorem wpOr_call {α : Type} {rely guar : ArtifactDisk → ArtifactDisk → Prop}
    {dropped : ArtifactDisk → Prop} {P : ArtifactDisk → Prop} {Q : α → ArtifactDisk → Prop}
    {E : IoError → ArtifactDisk → Prop}
    {faults : Bool} {effect : ArtifactDisk → Except IoError α × ArtifactDisk} {disk : ArtifactDisk}
    (hP : ∀ s s', P s → rely s s' → P s') (hs : P disk) (hguar : ∀ s, P s → guar s s)
    (hdrop : ∀ s, P s → dropped s) (herror : ∀ error s, P s → E error s)
    (h : ∀ s, P s → guar s (effect s).2 ∧ Outcome Q E (effect s).1 (effect s).2) :
    WpOr rely guar dropped (call faults effect) Q E disk := by
  cases faults with
  | false => exact wpOr_locked hP hs h
  | true =>
    refine wpOr_bind (wp_answer hP hs hguar hdrop fun answer s hs => ?_)
    cases answer with
    | ok => exact wp_locked hP hs (fun s hs => (h s hs).1) fun s hs => (h s hs).2
    | error error => exact herror error s hs

end ArtifactStore

/-- These files would be there, had nobody taken any. -/
structure Held (id : Uuid) (want : Option ArtifactDir) (disk : ArtifactDisk) : Prop where
  listed : id ∈ disk.ids
  fresh : disk.published id = none
  left : LeftOf want (disk.dirs id)
  whole : id ∉ disk.discarded → disk.dirs id = want

namespace Held

variable {id : Uuid} {disk disk' : ArtifactDisk} {want want' left : Option ArtifactDir}
    {dir : ArtifactDir}

theorem spares (h : Held id want disk) (hspares : Spares id disk disk') : Held id want disk' := by
  refine ⟨hspares.listed h.listed, hspares.published.trans h.fresh, h.left.trans hspares.left,
    fun hdiscarded => ?_⟩
  have hmem : id ∉ disk.discarded := fun hmem => hdiscarded (hspares.discarded hmem)
  rw [hspares.whole hmem]
  exact h.whole hmem

variable [Sha256] [ManifestJson]

/-- A step on its own files keeps to the regime, where it would leave sound ones. -/
theorem put (h : Held id want disk) (hleft : LeftOf want' left)
    (hwhole : id ∉ disk.discarded → left = want') (hsound : ∀ dir, want' = some dir → dir.Sound) :
    storeRegime.Lawful (.publishing id) disk (disk.put id left) ∧
    Held id want' (disk.put id left) := by
  refine ⟨⟨.put id left disk, fun hok => ?_⟩, ⟨h.listed, h.fresh, ?_, fun hdiscarded => ?_⟩⟩
  · refine hok.put (fun _ => h.listed) (fun files hfiles => ?_) fun output houtput => ?_
    · obtain ⟨dir, hdir, -⟩ := hleft files hfiles
      rw [hdir, hfiles] at hleft
      exact (hsound dir hdir).left hleft
    · exact absurd (houtput.symm.trans h.fresh) (Option.some_ne_none output)
  · rw [ArtifactDisk.put_self]
    exact hleft
  · rw [ArtifactDisk.put_self]
    exact hwhole hdiscarded

theorem lawful (_ : Held id want disk) : storeRegime.Lawful (.publishing id) disk disk :=
  ⟨.refl id disk, fun hok => hok⟩

/-- A publish that goes on from here fails, or brings this about. -/
abbrev Runs {α ε : Type} (id : Uuid) (x : ExceptT ε (Routine ArtifactDisk) α)
    (P : α → ArtifactDisk → Prop) : ArtifactDisk → Prop :=
  WpOr (storeRegime.rely (.publishing id)) (storeRegime.Lawful (.publishing id)) (fun _ => True) x P
    fun _ _ => True

/-- A call that fails or changes the files. -/
theorem call {faults : Bool} {effect : ArtifactDisk → Except IoError Unit × ArtifactDisk}
    {f : ArtifactDir → ArtifactDir} (hf : LeftOf.Filewise f)
    (heffect : ∀ disk, effect disk = (.ok (), disk.alterDir id f) ∨
      ∃ error, effect disk = (.error error, disk))
    (hsound : (f dir).Sound) (h : Held id (some dir) disk) :
    Runs id (ArtifactStore.call faults effect) (fun _ => Held id (some (f dir))) disk := by
  refine ArtifactStore.wpOr_call (P := Held id (some dir)) (fun _ _ => spares) h (fun _ => lawful)
    (fun _ _ => trivial) (fun _ _ _ => trivial) fun s hs => ?_
  rcases heffect s with heq | ⟨error, heq⟩
  · rw [heq]
    refine hs.put (hs.left.map hf) (fun hdiscarded => ?_) fun dir' hdir' => ?_
    · rw [hs.whole hdiscarded]
      rfl
    · rw [← Option.some.inj hdir']
      exact hsound
  · rw [heq]
    exact ⟨hs.lawful, trivial⟩

/-- The directory of a new output is empty. -/
theorem createDirAll (h : Held id none disk) :
    Runs id (ArtifactStore.createDirAll id) (fun _ => Held id (some fun _ => none)) disk := by
  refine ArtifactStore.wpOr_call (P := Held id none) (fun _ _ => spares) h (fun _ => lawful)
    (fun _ _ => trivial) (fun _ _ _ => trivial) fun s hs => ?_
  have hdirs : s.dirs.createDirAll id = Function.update s.dirs id (some fun _ => none) := by
    rw [ArtifactDirs.createDirAll, hs.left.of_none, Option.getD_none]
  rw [hdirs]
  refine hs.put (.refl _) (fun _ => rfl) fun dir hdir => ?_
  rw [← Option.some.inj hdir]
  exact ArtifactDir.sound_of_data rfl

theorem createFile {file : String} (hsound : (dir.create file).Sound) (h : Held id (some dir) disk) :
    Runs id (ArtifactStore.createFile id file) (fun _ => Held id (some (dir.create file))) disk := by
  refine call (LeftOf.filewise_create file) (fun s => ?_) hsound h
  by_cases hnone : (s.dirs id).isNone
  · exact .inr ⟨_, if_pos hnone⟩
  · exact .inl (if_neg hnone)

theorem rename {old new : String} (hsound : (dir.rename old new).Sound)
    (h : Held id (some dir) disk) :
    Runs id (ArtifactStore.rename id old new)
      (fun _ => Held id (some (dir.rename old new))) disk := by
  refine call (LeftOf.filewise_rename old new) (fun s => ?_) hsound h
  by_cases hnone : ((s.dirs id).bind (· old)).isNone
  · exact .inr ⟨_, if_pos hnone⟩
  · exact .inl (if_neg hnone)

theorem append {file : String} {bytes : Bytes} (hsound : (dir.append file bytes).Sound)
    (h : Held id (some dir) disk) :
    Runs id (ArtifactStore.append id file bytes)
      (fun _ => Held id (some (dir.append file bytes))) disk :=
  call (LeftOf.filewise_append file bytes) (fun _ => .inl rfl) hsound h

/-- A write leaves what was written of it sound. -/
theorem writeParts {file : String} (lengths : List ℕ) :
    ∀ {dir : ArtifactDir} {bytes : Bytes} {disk : ArtifactDisk},
    (∀ part, part <+: bytes → (dir.append file part).Sound) → Held id (some dir) disk →
    Runs id (ArtifactStore.writeParts id file bytes lengths)
      (fun _ => Held id (some (dir.append file bytes))) disk := by
  induction lengths with
  | nil => exact fun hsound h => append (hsound _ List.prefix_rfl) h
  | cons n lengths ih =>
    intro dir bytes disk hsound h
    refine wpOr_seq (append (hsound _ (List.take_prefix n bytes)) h) fun _ s hs => ?_
    have hparts : ∀ part, part <+: bytes.drop n →
        ((dir.append file (bytes.take n)).append file part).Sound := by
      rintro part ⟨rest, hrest⟩
      rw [ArtifactDir.append_append]
      exact hsound _ ⟨rest, by rw [List.append_assoc, hrest, List.take_append_drop]⟩
    have hrest := ih hparts hs
    rw [ArtifactDir.append_append, List.take_append_drop] at hrest
    exact hrest

theorem writeAll {file : String} {bytes : Bytes}
    (hsound : ∀ part, part <+: bytes → (dir.append file part).Sound) (h : Held id (some dir) disk) :
    Runs id (ArtifactStore.writeAll id file bytes)
      (fun _ => Held id (some (dir.append file bytes))) disk :=
  wpOr_bind (wpOr_lift (wp_chosen (P := Held id (some dir)) (fun _ _ => spares) h (fun _ => lawful)
    fun lengths _ hs => writeParts lengths hsound hs))

/-- An answer that changes nothing. -/
theorem answered {ε α : Type} (h : Held id want disk) :
    Runs id (ExceptT.mk (answer (Except ε α))) (fun _ => Held id want) disk := by
  refine wp_answer (P := Held id want) (fun _ _ => spares) h (fun _ => lawful) (fun _ _ => trivial)
    fun r s hs => ?_
  cases r with
  | ok a => exact hs
  | error error => trivial

/-- The copy appends what it reads. -/
theorem copyData {error : Option IoError} (chunks : List Bytes) :
    ∀ {dir : ArtifactDir} {total : UInt64} {hasher : Hasher}
    {disk : ArtifactDisk}, dir manifestFile = none → Held id (some dir) disk →
    Runs id (ArtifactStore.copyData id error total hasher chunks) (fun copied s => ∃ bytes,
      Held id (some (dir.append partFile bytes)) s ∧ copied.1 = total + .ofNat bytes.length ∧
        copied.2.bytes = hasher.bytes ++ bytes) disk := by
  have hnone : ∀ {dir : ArtifactDir} {bytes : Bytes}, dir manifestFile = none →
      (dir.append partFile bytes) manifestFile = none := by
    intro dir bytes hdir
    rw [ArtifactDir.append, Function.update_of_ne (by decide)]
    exact hdir
  have hend : ∀ {dir : ArtifactDir} {total : UInt64} {hasher : Hasher} {disk : ArtifactDisk},
      Held id (some dir) disk → ∃ bytes, Held id (some (dir.append partFile bytes)) disk ∧
        total = total + .ofNat bytes.length ∧ hasher.bytes = hasher.bytes ++ bytes := by
    intro dir total hasher disk h
    refine ⟨[], ?_, (UInt64.add_zero total).symm, (List.append_nil _).symm⟩
    have hid : (dir partFile).map (· ++ []) = dir partFile := by
      cases dir partFile with
      | none => rfl
      | some bytes => exact congrArg some (List.append_nil bytes)
    rw [ArtifactDir.append, hid, Function.update_eq_self]
    exact h
  induction chunks with
  | nil =>
    intro dir total hasher disk _ h
    cases error with
    | none => exact hend h
    | some error => trivial
  | cons chunk chunks ih =>
    intro dir total hasher disk hdir h
    cases chunk with
    | nil => exact hend h
    | cons byte data =>
      refine wpOr_seq (writeAll (fun part _ => ArtifactDir.sound_of_manifest (hnone hdir)) h)
        fun _ s hs => ?_
      refine wpOr_mono ?_ (fun _ _ _ => trivial) (ih (hnone hdir) hs)
      rintro copied s ⟨bytes, hheld, htotal, hbytes⟩
      refine ⟨byte :: data ++ bytes, ?_, ?_, ?_⟩
      · rw [ArtifactDir.append_append] at hheld
        exact hheld
      · rw [htotal, List.length_append, UInt64.ofNat_add, UInt64.add_assoc]
      · rw [hbytes, Hasher.update, List.append_assoc]

/-- What a publish records is what it left in its directory. -/
theorem record {bytes : Bytes} {stored : StoredManifest}
    (hdir : dir.Holds bytes (ManifestJson.encode stored)) (h : Held id (some dir) disk) :
    Wp (storeRegime.rely (.publishing id)) (storeRegime.Lawful (.publishing id)) (fun _ => True)
      (alter (ArtifactDisk.record id bytes stored)) (fun _ _ => True) disk := by
  refine wp_alter (P := Held id (some dir)) (fun _ _ => spares) h (fun s hs => ⟨?_, fun hok => ?_⟩)
    fun _ _ => trivial
  · exact ⟨rfl, rfl, fun other hother => Function.update_of_ne hother .., fun _ _ => rfl⟩
  · refine ⟨hok.nodup, hok.listed, fun id' hpublished => ?_, hok.sound,
      fun id' bytes' stored' hpublished hdiscarded => ?_⟩
    · by_cases heq : id' = id
      · exact heq ▸ hs.listed
      · dsimp only [ArtifactDisk.record] at hpublished
        rw [Function.update_of_ne heq] at hpublished
        exact hok.issued id' hpublished
    by_cases heq : id' = id
    · subst heq
      dsimp only [ArtifactDisk.record] at hpublished
      rw [Function.update_self] at hpublished
      obtain ⟨rfl, rfl⟩ := Prod.mk.inj (Option.some.inj hpublished)
      exact ⟨dir, hs.whole hdiscarded, hdir⟩
    · dsimp only [ArtifactDisk.record] at hpublished
      rw [Function.update_of_ne heq] at hpublished
      exact hok.kept id' bytes' stored' hpublished hdiscarded

theorem fromIo {α : Type} {x : Io α} {P : α → ArtifactDisk → Prop} (h : Runs id x P disk) :
    Runs id (ArtifactStore.fromIo x) P disk :=
  wpOr_adapt h

/-- A copy has the bytes of its source, as far as they came. -/
theorem copySource (h : Held id none disk) :
    Runs id (ArtifactStore.copySource id)
      (fun copied s => ∃ dir, Held id (some dir) s ∧ dir.Copied copied) disk := by
  refine wpOr_seq (createDirAll h) fun _ s hs => ?_
  refine wpOr_seq (answered hs) fun source s hs => ?_
  refine wpOr_seq (createFile (ArtifactDir.sound_of_data rfl) hs) fun _ s hs => ?_
  have hnone : ArtifactDir.create (fun _ => none) partFile manifestFile = none := rfl
  refine wpOr_seq (copyData source.chunks hnone hs) ?_
  rintro ⟨total, hasher⟩ s ⟨bytes, hheld, htotal, hbytes⟩
  refine wpOr_seq (answered hheld) fun _ s hs => ?_
  -- the hasher has seen what the file holds
  obtain rfl : hasher.bytes = bytes := hbytes
  exact ⟨_, hs, rfl, rfl, htotal.trans (UInt64.zero_add _)⟩

/-- A publish keeps to the regime. -/
theorem publish {attempt : Uuid} {manifest : ArtifactManifest} (h : Held id none disk) :
    Runs id (ArtifactStore.publish id attempt manifest) (fun _ _ => True) disk := by
  refine wpOr_seq (fromIo (copySource h)) ?_
  rintro ⟨total, hasher⟩ s ⟨dir, hheld, hcopied⟩
  obtain rfl : total = .ofNat hasher.bytes.length := hcopied.total
  refine wpOr_bind ?_
  cases hverify : manifest.verify (.ofNat hasher.bytes.length) hasher.finish with
  | error mismatch => trivial
  | ok =>
    refine wpOr_seq (fromIo (rename (ArtifactDir.sound_of_manifest hcopied.rename.2) hheld))
      fun _ s hs => ?_
    refine wpOr_seq (wpOr_lift (wp_chosen (fun _ _ => spares) hs (fun _ => lawful) fun _ _ hs => hs))
      fun completedAt s hs => ?_
    refine wpOr_seq (fromIo (answered hs)) fun _ s hs => ?_
    -- the data is verified, and a manifest that is written in part does not parse
    have hsound {files : ArtifactDir} {part : Bytes} (hfiles : files.Holds hasher.bytes part)
        (hpart : part <+: ManifestJson.encode ⟨attempt, manifest, completedAt⟩) : files.Sound :=
      hfiles.sound hverify hpart
    have hempty : ((dir.rename partFile dataFile).create manifestFile).Holds hasher.bytes [] :=
      .create hcopied.rename.1
    refine wpOr_seq (fromIo (createFile (hsound hempty List.nil_prefix) hs)) fun _ s hs => ?_
    refine wpOr_seq (fromIo (writeAll (fun part hpart => hsound (hempty.append part) hpart) hs))
      fun _ s hs => ?_
    exact wpOr_bind (wpOr_lift (record (hempty.append _) hs))

end Held

/-! ## Removals -/

/-- To take from an output keeps to `guar`, and to `P`, as others do. -/
structure Removable (rely guar : ArtifactDisk → ArtifactDisk → Prop) (id : Uuid)
    (P : ArtifactDisk → Prop) : Prop where
  stable : ∀ s s', P s → rely s s' → P s'
  refl : ∀ s, P s → guar s s
  step : ∀ s left, P s → LeftOf (s.dirs id) left → guar s (s.put id left) ∧ P (s.put id left)

namespace Removable

variable {rely guar : ArtifactDisk → ArtifactDisk → Prop} {id : Uuid} {P : ArtifactDisk → Prop}
    {faults : Bool}
  {disk : ArtifactDisk}

/-- A call that takes from the output, or changes nothing. -/
theorem call {α : Type} {effect : ArtifactDisk → Except IoError α × ArtifactDisk}
    (h : Removable rely guar id P) (heffect : ∀ s, P s → guar s (effect s).2 ∧ P (effect s).2)
    (hs : P disk) :
    WpOr rely guar (fun _ => True) (ArtifactStore.call faults effect) (fun _ => P)
      (fun _ => P) disk := by
  refine ArtifactStore.wpOr_call h.stable hs h.refl (fun _ _ => trivial) (fun _ _ hs => hs)
    fun s hs => ?_
  obtain ⟨hguar, hP⟩ := heffect s hs
  refine ⟨hguar, ?_⟩
  cases (effect s).1 with
  | ok a => exact hP
  | error error => exact hP

/-- Files are removed one by one. -/
theorem unlinkAll (h : Removable rely guar id P) (names : List String) : ∀ {disk}, P disk →
    WpOr rely guar (fun _ => True) (ArtifactStore.unlinkAll faults id names) (fun _ => P)
      (fun _ => P) disk := by
  induction names with
  | nil => exact fun hs => hs
  | cons name names ih =>
    intro disk hs
    refine wpOr_seq (h.call (fun s hs => h.step s _ hs fun files hfiles => ?_) hs) fun _ s hs => ih hs
    obtain ⟨dir, hdir, rfl⟩ := Option.map_eq_some_iff.1 hfiles
    exact ⟨dir, hdir, (LeftOf.unlink dir name).some⟩

/-- A removal lists the files, removes them, and then the directory. -/
theorem removeDirAll (h : Removable rely guar id P) (hs : P disk) :
    WpOr rely guar (fun _ => True) (ArtifactStore.removeDirAll faults id) (fun _ => P)
      (fun _ => P) disk := by
  refine wpOr_bind (wpOr_lift (wp_chosen h.stable hs h.refl fun order s hs => ?_))
  refine wpOr_seq (h.call (fun s hs => ?_) hs) fun names s hs =>
    wpOr_seq (h.unlinkAll names hs) fun _ s hs =>
    h.call (fun s hs => ?_) hs
  · cases s.dirs id with
    | none => exact ⟨h.refl s hs, hs⟩
    | some files => exact ⟨h.refl s hs, hs⟩
  · cases s.dirs id with
    | none => exact ⟨h.refl s hs, hs⟩
    | some files =>
      dsimp only
      -- a file that came meanwhile keeps the directory
      by_cases hempty : files.entries.isEmpty
      · rw [if_pos hempty]
        exact h.step s none hs (.gone _)
      · rw [if_neg hempty]
        exact ⟨h.refl s hs, hs⟩

variable [Sha256] [ManifestJson]

/-- A discarded output may be taken from, beside all others. -/
theorem discarded (id : Uuid) :
    Removable (storeRegime.rely .removing) (storeRegime.Lawful .removing) id
      (fun s => id ∈ s.discarded) where
  stable _ _ hs h := h hs
  refl s _ := ⟨.refl s, fun hok => hok⟩
  step _ _ hs hleft := ⟨⟨.put hs hleft, fun hok => hok.shrink hleft fun _ _ => hs⟩, hs⟩

/-- A boot may take from an output that need not be kept. -/
theorem unfit (id : Uuid) :
    Removable (fun _ _ => False) (fun s s' => storeRegime.inv s → storeRegime.inv s') id
    (fun s => s.Ok ∧ ∀ output, s.published id = some output → id ∈ s.discarded) where
  stable _ _ _ h := h.elim
  refl _ _ := fun hok => hok
  step _ _ hs hleft := ⟨fun hok => hok.shrink hleft hs.2, hs.1.shrink hleft hs.2, hs.2⟩

end Removable

section Removals

variable [Sha256] [ManifestJson] {disk : ArtifactDisk}

/-- A removal keeps to the regime, however it ends. -/
abbrev RemovalRuns {α ε : Type} (x : ExceptT ε (Routine ArtifactDisk) α) : ArtifactDisk → Prop :=
  WpOr (storeRegime.rely .removing) (storeRegime.Lawful .removing) (fun _ => True) x
    (fun _ _ => True) fun _ _ => True

theorem removalRuns_discard (id : Uuid) (disk : ArtifactDisk) :
    WpOr (storeRegime.rely .removing) (storeRegime.Lawful .removing) (fun _ => True)
      (ExceptT.lift (alter (ArtifactDisk.discard id)) : Io Unit) (fun _ s => id ∈ s.discarded)
        (fun _ _ => True) disk :=
  wpOr_lift (wp_alter (P := fun _ => True) (fun _ _ _ _ => trivial) trivial
    (fun s _ => ⟨.discard id s, fun hok => hok.discard id⟩) fun _ _ => List.mem_cons_self ..)

theorem removalRuns_removeDirAll {faults : Bool} {id : Uuid} (h : id ∈ disk.discarded) :
    RemovalRuns (ArtifactStore.removeDirAll faults id) disk :=
  wpOr_mono (fun _ _ _ => trivial) (fun _ _ _ => trivial) ((Removable.discarded id).removeDirAll h)

/-- A call that changes nothing. -/
theorem removalRuns_call {α : Type} {faults : Bool}
    {effect : ArtifactDisk → Except IoError α × ArtifactDisk} (heffect : ∀ s, (effect s).2 = s)
    (disk : ArtifactDisk) :
    RemovalRuns (ArtifactStore.call faults effect) disk := by
  refine ArtifactStore.wpOr_call (P := fun _ => True) (fun _ _ _ _ => trivial) trivial
    (fun s _ => ⟨.refl s, fun hok => hok⟩) (fun _ _ => trivial) (fun _ _ _ => trivial) fun s _ => ?_
  rw [heffect s]
  refine ⟨⟨.refl s, fun hok => hok⟩, ?_⟩
  cases (effect s).1 with
  | ok a => trivial
  | error error => trivial

/-- An answer removes nothing. -/
theorem removalRuns_answered {ε α : Type} (disk : ArtifactDisk) :
    RemovalRuns (ExceptT.mk (answer (Except ε α))) disk := by
  refine wp_answer (P := fun _ => True) (fun _ _ _ _ => trivial) trivial
    (fun s _ => ⟨.refl s, fun hok => hok⟩)
    (fun _ _ => trivial) fun r s _ => ?_
  cases r with
  | ok a => trivial
  | error error => trivial

theorem removalRuns_readManifest {faults : Bool} (id : Uuid) (disk : ArtifactDisk) :
    RemovalRuns (ArtifactStore.readManifest faults id) disk := by
  refine removalRuns_call (fun s => ?_) disk
  cases (s.dirs id).bind (· manifestFile) with
  | none => rfl
  | some bytes => rfl

/-- A discard removes what its token names. -/
theorem removalRuns_delete [UuidText] (token : String) (disk : ArtifactDisk) :
    RemovalRuns (ArtifactStore.delete token) disk := by
  rw [ArtifactStore.delete]
  cases UuidText.parse token with
  | error error => trivial
  | ok id =>
    refine wpOr_seq (removalRuns_discard id disk) fun _ s hs => ?_
    refine wpOr_bind (wpOr_lift (wp_mono (fun r s _ => ?_) (removalRuns_removeDirAll hs)))
    cases r with
    | ok => trivial
    | error error =>
      dsimp only
      by_cases h : error.notFound
      · rw [if_pos h]
        trivial
      · rw [if_neg h]
        trivial

/-- An expiry pass removes what is due, and goes on over every error. -/
theorem removalRuns_expireEntries (now ttl : Time) (ids : List Uuid) : ∀ disk,
    RemovalRuns (ArtifactStore.expireEntries now ttl ids) disk := by
  induction ids with
  | nil => exact fun disk => wpOr_seq (removalRuns_answered disk) fun _ _ _ => trivial
  | cons id ids ih =>
    intro disk
    refine wpOr_seq (removalRuns_answered disk) fun _ s _ => ?_
    refine wpOr_bind (wpOr_lift (wp_mono (fun r s _ => ?_) (removalRuns_answered s)))
    cases r with
    | error error => exact ih s
    | ok =>
      refine wpOr_bind (wpOr_lift (wp_mono (fun r s _ => ?_) (removalRuns_readManifest id s)))
      cases r with
      | error error => exact ih s
      | ok stored =>
        dsimp only
        -- only what is due is removed
        by_cases hdue : stored.completedAt + ttl ≤ now
        · rw [if_pos hdue]
          refine wpOr_seq (removalRuns_discard id s) fun _ s hs => ?_
          refine wpOr_seq (removalRuns_removeDirAll hs) fun _ s _ => ?_
          exact wpOr_seq (ih s) fun _ _ _ => trivial
        · rw [if_neg hdue]
          exact ih s

theorem removalRuns_expire (now ttl : Time) (disk : ArtifactDisk) :
    RemovalRuns (ArtifactStore.expire now ttl) disk :=
  wpOr_seq (removalRuns_answered disk) fun ids s _ => removalRuns_expireEntries now ttl ids s

end Removals

end Gpq
