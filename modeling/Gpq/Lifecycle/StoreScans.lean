import Gpq.Lifecycle.StoreRuns

/-!
# Scans of the store

When the process boots it scans the store (`reconcileOnStartup`). Whatever its calls answer, the scan
keeps what holds of the store, and where none of them fails it does what it is for:

* `data_verified`: data with a manifest that parses is what the manifest says, in every state reached;
* `outputs_kept`: what was published stays byte for byte, up to its removal;
* `reconciled`: a scan whose calls do not fail leaves the complete outputs only, reports each
  directory for what it was, and a scan behind it changes nothing.

A directory is complete if it has data and a manifest that parses.
-/

namespace Gpq

open Routine ArtifactStore
open Relation (ReflTransGen)

/-! ## What a scan finds -/

/-- Directories may be listed in any order. -/
theorem ArtifactStore.ordered_perm {α : Type} [DecidableEq α] (order entries : List α) :
    (ordered order entries).Perm entries := by
  rw [ordered]
  split
  · rename_i h
    exact h
  · exact .refl _

section Found

variable [ManifestJson]

/-- Data, and a manifest that parses. -/
def ArtifactDir.complete (files : ArtifactDir) : Bool :=
  (files dataFile).isSome && files.stored.isSome

/-- What a scan of these directories leaves of the store. -/
def ArtifactDisk.sweep (ids : List Uuid) (disk : ArtifactDisk) : ArtifactDisk :=
  { disk with dirs := fun id =>
      if id ∈ ids then (disk.dirs id).filter ArtifactDir.complete else disk.dirs id }

/-- What a scan reports of these directories. -/
def ArtifactStore.ReconcileReport.of (disk : ArtifactDisk) (ids : List Uuid) : ReconcileReport where
  available := ids.filterMap fun id => ((disk.dirs id).filter ArtifactDir.complete).bind fun files =>
    files.stored.map fun stored => ⟨id, stored.manifest⟩
  incompleteRemoved := ids.filter fun id => (disk.dirs id).any (·.stored.isNone)
  lost := ids.filter fun id => (disk.dirs id).any fun files =>
    files.stored.isSome && (files dataFile).isNone

/-- One report behind another. -/
def ArtifactStore.ReconcileReport.append (report more : ReconcileReport) : ReconcileReport where
  available := report.available ++ more.available
  incompleteRemoved := report.incompleteRemoved ++ more.incompleteRemoved
  lost := report.lost ++ more.lost

namespace ArtifactDisk

variable {disk : ArtifactDisk} {id : Uuid} {files : ArtifactDir}

/-- A complete directory is kept. -/
theorem sweep_of_complete (hfiles : disk.dirs id = some files) (h : files.complete) :
    disk.sweep [id] = disk := by
  have hdirs : (disk.sweep [id]).dirs = disk.dirs := by
    funext id'
    dsimp only [sweep]
    split
    · rename_i hid
      rw [List.mem_singleton.1 hid, hfiles, Option.filter_some, if_pos h]
    · rfl
  exact congrArg (fun dirs => { disk with dirs }) hdirs

/-- Any other goes. -/
theorem sweep_of_unfit (hfiles : disk.dirs id = some files) (h : ¬files.complete) :
    disk.sweep [id] = disk.put id none := by
  have hdirs : (disk.sweep [id]).dirs = (disk.put id none).dirs := by
    funext id'
    dsimp only [sweep]
    split
    · rename_i hid
      rw [List.mem_singleton.1 hid, put_self, hfiles, Option.filter_some, if_neg h]
    · rename_i hid
      exact (put_of_ne (fun heq => hid (List.mem_singleton.2 heq)) none disk).symm
  exact congrArg (fun dirs => { disk with dirs }) hdirs

theorem sweep_nil (disk : ArtifactDisk) : disk.sweep [] = disk := by
  have hdirs : (disk.sweep []).dirs = disk.dirs := by
    funext id
    simp only [sweep, List.not_mem_nil, if_false]
  exact congrArg (fun dirs => { disk with dirs }) hdirs

/-- Directories are swept one by one. -/
theorem sweep_cons (id : Uuid) (ids : List Uuid) (disk : ArtifactDisk) :
    (disk.sweep [id]).sweep ids = disk.sweep (id :: ids) := by
  have hdirs : ((disk.sweep [id]).sweep ids).dirs = (disk.sweep (id :: ids)).dirs := by
    funext id'
    dsimp only [sweep]
    by_cases hid : id' = id
    · subst hid
      rw [if_pos (List.mem_singleton_self id'), if_pos List.mem_cons_self]
      split
      · rw [Option.filter_filter]
        simp only [Bool.and_self]
      · rfl
    · simp only [List.mem_cons, List.not_mem_nil, hid, false_or, if_false]
  exact congrArg (fun dirs => { disk with dirs }) hdirs

theorem sweep_dirs_of_not_mem {ids : List Uuid} (h : id ∉ ids) :
    (disk.sweep ids).dirs id = disk.dirs id :=
  if_neg h

end ArtifactDisk

namespace ArtifactStore.ReconcileReport

theorem of_cons (disk : ArtifactDisk) (id : Uuid) (ids : List Uuid) :
    of disk (id :: ids) = (of disk [id]).append (of disk ids) := by
  rw [← List.singleton_append]
  simp only [of, append, List.filterMap_append, List.filter_append]

omit [ManifestJson] in
theorem append_assoc (report more rest : ReconcileReport) :
    (report.append more).append rest = report.append (more.append rest) := by
  simp only [append, List.append_assoc]

theorem append_nil (report : ReconcileReport) (disk : ArtifactDisk) :
    report.append (of disk []) = report := by
  simp only [append, of, List.filterMap_nil, List.filter_nil, List.append_nil]

section Single

variable {disk : ArtifactDisk} {id : Uuid} {files : ArtifactDir} {stored : StoredManifest}

/-- A directory with its data and a manifest that parses is available. -/
theorem of_available (hfiles : disk.dirs id = some files) (hdata : (files dataFile).isSome)
    (hstored : files.stored = some stored) : of disk [id] = ⟨[⟨id, stored.manifest⟩], [], []⟩ := by
  have hcomplete : files.complete := by
    rw [ArtifactDir.complete, hdata, hstored]
    rfl
  have hthere : (files dataFile).isNone = false := by
    rw [← Option.not_isSome, hdata]
    rfl
  simp [of, Option.filter_some, hfiles, hcomplete, hstored, hthere]

theorem of_lost (hfiles : disk.dirs id = some files) (hdata : files dataFile = none)
    (hstored : files.stored = some stored) : of disk [id] = ⟨[], [], [id]⟩ := by
  have hcomplete : files.complete = false := by
    rw [ArtifactDir.complete, hdata]
    rfl
  simp [of, hfiles, hcomplete, hstored, hdata]

theorem of_incomplete (hfiles : disk.dirs id = some files) (hstored : files.stored = none) :
    of disk [id] = ⟨[], [id], []⟩ := by
  have hcomplete : files.complete = false := by
    rw [ArtifactDir.complete, hstored]
    exact Bool.and_false _
  simp [of, hfiles, hcomplete, hstored]

end Single

/-- What is reported of other directories does not change. -/
theorem of_sweep {disk : ArtifactDisk} {id : Uuid} {ids : List Uuid} (h : id ∉ ids) :
    of (disk.sweep [id]) ids = of disk ids := by
  have hdirs : ∀ id' ∈ ids, (disk.sweep [id]).dirs id' = disk.dirs id' := fun id' hid' =>
    ArtifactDisk.sweep_dirs_of_not_mem fun hmem => h (List.mem_singleton.1 hmem ▸ hid')
  rw [of, of]
  congr 1
  · exact List.filterMap_congr fun id' hid' => by rw [hdirs id' hid']
  · exact List.filter_congr fun id' hid' => by rw [hdirs id' hid']
  · exact List.filter_congr fun id' hid' => by rw [hdirs id' hid']

end ArtifactStore.ReconcileReport

end Found

/-! ## Removals that do not fail -/

section Removals

variable {disk : ArtifactDisk} {id : Uuid} {files : ArtifactDir}

/-- The files that are removed are gone, and no others. -/
theorem foldl_unlink (names : List String) (files : ArtifactDir) (name : String) :
    names.foldl ArtifactDir.unlink files name = if name ∈ names then none else files name := by
  induction names generalizing files with
  | nil => rfl
  | cons first names ih =>
    rw [List.foldl_cons, ih, ArtifactDir.unlink]
    by_cases hmem : name ∈ names
    · rw [if_pos hmem, if_pos (List.mem_cons_of_mem _ hmem)]
    · by_cases hname : name = first
      · rw [if_neg hmem, hname, Function.update_self, if_pos List.mem_cons_self]
      · rw [if_neg hmem, Function.update_of_ne hname,
          if_neg fun h => (List.mem_cons.1 h).elim hname hmem]

/-- Nothing is left of the files that are all removed. -/
theorem entries_foldl_unlink {names : List String} (h : names.Perm files.entries) :
    (names.foldl ArtifactDir.unlink files).entries = [] := by
  refine List.filter_eq_nil_iff.2 fun name hname hsome => ?_
  rw [foldl_unlink] at hsome
  split at hsome
  · cases hsome
  · rename_i hnot
    exact hnot (h.mem_iff.2 (List.mem_filter.2 ⟨hname, hsome⟩))

/-- Where no call fails, all files are removed. -/
theorem unlinkAll_exact (names : List String) : ∀ {disk : ArtifactDisk} {files : ArtifactDir},
    disk.dirs id = some files →
    WpOr (fun _ _ => False) (fun _ _ => True) (fun _ => True) (unlinkAll false id names)
      (fun _ s => s = disk.put id (some (names.foldl ArtifactDir.unlink files)))
        (fun _ _ => False) disk := by
  induction names with
  | nil =>
    intro disk files hfiles
    refine wpOr_pure ?_
    rw [List.foldl_nil, ← hfiles]
    exact congrArg (fun dirs => { disk with dirs }) (Function.update_eq_self id disk.dirs).symm
  | cons name names ih =>
    intro disk files hfiles
    refine wpOr_seq (P := fun _ s => s = disk.put id (some (files.unlink name))) ?_ ?_
    · refine wpOr_locked (P := (· = disk)) (fun _ _ _ h => h.elim) rfl ?_
      rintro s rfl
      rw [ArtifactDisk.alterDir_eq_put, hfiles]
      exact ⟨trivial, rfl⟩
    · rintro _ s rfl
      refine wpOr_mono ?_ (fun _ _ h => h) (ih (ArtifactDisk.put_self ..))
      rintro _ s rfl
      exact ArtifactDisk.put_put ..

/-- A removal whose calls do not fail leaves nothing. -/
theorem removeDirAll_exact (hfiles : disk.dirs id = some files) :
    WpOr (fun _ _ => False) (fun _ _ => True) (fun _ => True) (removeDirAll false id)
      (fun _ s => s = disk.put id none) (fun _ _ => False) disk := by
  refine wpOr_bind (wpOr_lift (wp_chosen (P := (· = disk)) (fun _ _ _ h => h.elim) rfl
    (fun _ _ => trivial) ?_))
  rintro order s rfl
  refine wpOr_seq (P := fun names s' => s' = s ∧ names.Perm files.entries) ?_ ?_
  · refine wpOr_locked (P := (· = s)) (fun _ _ _ h => h.elim) rfl ?_
    rintro s' rfl
    rw [hfiles]
    exact ⟨trivial, rfl, ordered_perm order files.entries⟩
  · rintro names s' ⟨rfl, hnames⟩
    refine wpOr_seq (unlinkAll_exact names hfiles) ?_
    rintro _ s rfl
    refine wpOr_locked (P := (· = s'.put id (some (names.foldl ArtifactDir.unlink files))))
      (fun _ _ _ h => h.elim) rfl ?_
    rintro s rfl
    rw [ArtifactDisk.put_self]
    dsimp only
    rw [entries_foldl_unlink hnames, List.isEmpty_nil, if_pos rfl]
    exact ⟨trivial, ArtifactDisk.put_put id _ none s'⟩

end Removals

/-! ## Boots -/

section Boots

variable [Sha256] [ManifestJson] {disk : ArtifactDisk} {id : Uuid} {files : ArtifactDir}
    {faults : Bool}

/-- A boot runs alone, and keeps what holds of the store. -/
abbrev BootRuns {α ε : Type} (x : ExceptT ε (Routine ArtifactDisk) α) (P : α → ArtifactDisk → Prop)
    (E : ε → ArtifactDisk → Prop) : ArtifactDisk → Prop :=
  WpOr (fun _ _ => False) (fun s s' => s.Ok → s'.Ok) (fun _ => True) x P E

/-- An output that is not complete need not be kept. -/
theorem ArtifactDisk.Ok.unfit (h : disk.Ok) (hfiles : disk.dirs id = some files)
    (hunfit : ¬files.complete) :
    ∀ output, disk.published id = some output → id ∈ disk.discarded := by
  rintro ⟨bytes, stored⟩ hpublished
  by_contra hdiscarded
  obtain ⟨files', hfiles', hholds⟩ := h.kept id bytes stored hpublished hdiscarded
  obtain rfl := Option.some.inj (hfiles.symm.trans hfiles')
  refine hunfit ?_
  rw [ArtifactDir.complete, hholds.data, hholds.stored]
  rfl

/-- A call that only reads answers what it reads, unless it fails. -/
theorem bootRuns_read {α : Type} {effect : ArtifactDisk → Except IoError α × ArtifactDisk}
    (heffect : (effect disk).2 = disk) :
    BootRuns (call faults effect) (fun a s => s = disk ∧ (faults = false → (effect disk).1 = .ok a))
      (fun error s => s = disk ∧ (faults = false → (effect disk).1 = .error error)) disk := by
  have houtcome : ∀ s, s = disk → (s.Ok → (effect s).2.Ok) ∧
      Outcome (fun a s => s = disk ∧ (faults = false → (effect disk).1 = .ok a))
        (fun error s => s = disk ∧ (faults = false → (effect disk).1 = .error error))
        (effect s).1 (effect s).2 := by
    rintro s rfl
    rw [heffect]
    refine ⟨id, ?_⟩
    cases (effect s).1 with
    | ok a => exact ⟨rfl, fun _ => rfl⟩
    | error error => exact ⟨rfl, fun _ => rfl⟩
  cases faults with
  | false => exact wpOr_locked (P := (· = disk)) (fun _ _ _ h => h.elim) rfl houtcome
  | true =>
    exact wpOr_call (P := (· = disk)) (fun _ _ _ h => h.elim) rfl (fun _ _ => id) (fun _ _ => trivial)
      (fun _ _ hs => ⟨hs, fun h => by cases h⟩) houtcome

/-- A call that only asks whether the file system fails. -/
theorem bootRuns_answered (hok : disk.Ok) : BootRuns (answered faults) (fun _ s => s = disk)
    (fun _ s => s.Ok ∧ faults = true) disk := by
  cases faults with
  | false => rfl
  | true =>
    refine wp_answer (P := (· = disk)) (fun _ _ _ h => h.elim) rfl (fun _ _ => id)
      (fun _ _ => trivial) ?_
    rintro answer s rfl
    cases answer with
    | ok => rfl
    | error error => exact ⟨hok, rfl⟩

/-- The answer to a call that only reads. -/
theorem bootRuns_attempt {α : Type} {E : IoError → ArtifactDisk → Prop}
    {effect : ArtifactDisk → Except IoError α × ArtifactDisk} (heffect : (effect disk).2 = disk) :
    BootRuns (attempt (call faults effect))
      (fun r s => s = disk ∧ (faults = false → r = (effect disk).1))
      E disk := by
  refine wpOr_lift (wp_mono (fun r s hr => ?_) (bootRuns_read heffect))
  cases r with
  | ok a => exact ⟨hr.1, fun h => (hr.2 h).symm⟩
  | error error => exact ⟨hr.1, fun h => (hr.2 h).symm⟩

/-- A manifest is read as it is, where no call fails. -/
theorem bootRuns_readManifest {E : IoError → ArtifactDisk → Prop} :
    BootRuns (attempt (readManifest faults id))
      (fun r s => s = disk ∧ (faults = false → r.toOption = (disk.dirs id).bind ArtifactDir.stored))
      E disk := by
  have hstored : (disk.dirs id).bind ArtifactDir.stored =
      ((disk.dirs id).bind (· manifestFile)).bind ManifestJson.parse := (Option.bind_assoc ..).symm
  rw [readManifest]
  refine wpOr_mono (fun r s hr => ⟨hr.1, fun h => ?_⟩) (fun _ _ h => h) (bootRuns_attempt ?_)
  · rw [hr.2 h, hstored]
    cases (disk.dirs id).bind (· manifestFile) with
    | none => rfl
    | some bytes =>
      dsimp only [Option.bind_some]
      cases ManifestJson.parse bytes with
      | none => rfl
      | some stored => rfl
  · cases (disk.dirs id).bind (· manifestFile) with
    | none => rfl
    | some bytes => rfl

/-- What the scan found unfit is removed. -/
theorem bootRuns_scrap (hok : disk.Ok)
    (hunfit : faults = false → ∃ files, disk.dirs id = some files ∧ ¬files.complete) :
    BootRuns (scrap faults id) (fun _ s => s.Ok ∧ (faults = false → s = disk.sweep [id]))
      (fun _ s => s.Ok ∧ faults = true) disk := by
  refine wpOr_seq (P := fun _ s => s = if faults then disk.discard id else disk) ?_ ?_
  · refine wpOr_lift (wp_alter (P := (· = disk)) (fun _ _ _ h => h.elim) rfl ?_ ?_)
    · rintro s rfl hs
      split
      · exact hs.discard id
      · exact hs
    · rintro s rfl
      rfl
  rintro _ s rfl
  cases faults with
  | true =>
    exact wpOr_mono (fun _ s hs => ⟨hs.1, fun h => by cases h⟩) (fun _ s hs => ⟨hs.1, rfl⟩)
      ((Removable.unfit id).removeDirAll ⟨hok.discard id, fun _ _ => List.mem_cons_self⟩)
  | false =>
    obtain ⟨files, hfiles, hnot⟩ := hunfit rfl
    -- it keeps what holds, as nothing that has to be kept is unfit, and leaves nothing
    refine wp_mono (fun r s hr => ?_)
      (((Removable.unfit id).removeDirAll ⟨hok, hok.unfit hfiles hnot⟩).and
      (removeDirAll_exact hfiles))
    cases r with
    | ok => exact ⟨hr.1.1, fun _ => hr.2.trans (ArtifactDisk.sweep_of_unfit hfiles hnot).symm⟩
    | error error => exact hr.2.elim

/-- A part of a scan keeps what holds of the store and, where its calls do not fail, reports these
    directories and leaves of them what is complete. -/
abbrev Scans (faults : Bool) (report : ReconcileReport) (ids : List Uuid) (x : Io ReconcileReport)
    (disk : ArtifactDisk) : Prop :=
  BootRuns x (fun report' s => s.Ok ∧ (faults = false →
    s = disk.sweep ids ∧ report' = report.append (.of disk ids)))
      (fun _ s => s.Ok ∧ faults = true) disk

/-- A directory is sorted out: it is kept and available, or goes and is lost or incomplete. -/
theorem scans_reconcileEntry {report : ReconcileReport} (hok : disk.Ok)
    (hdir : faults = false → (disk.dirs id).isSome) :
    Scans faults report [id] (reconcileEntry faults report id) disk := by
  refine wpOr_bind (wpOr_lift (wp_mono ?_ (bootRuns_answered hok)))
  rintro (error | _) s hs
  · obtain ⟨hs, rfl⟩ := hs
    exact ⟨hs, fun h => by cases h⟩
  obtain rfl := hs
  refine wpOr_seq (bootRuns_attempt rfl) ?_
  rintro found s' ⟨rfl, hfound⟩
  refine wpOr_seq bootRuns_readManifest ?_
  rintro manifest s ⟨rfl, hmanifest⟩
  -- where no call fails, this is what was found of the files that are there
  have hthere : faults = false → ∃ files, s.dirs id = some files ∧
      found.toOption.getD false = (files dataFile).isSome ∧
          manifest.toOption = files.stored := fun h => by
    obtain ⟨files, hfiles⟩ := Option.isSome_iff_exists.1 (hdir h)
    refine ⟨files, hfiles, ?_, ?_⟩
    · rw [hfound h, hfiles]
      rfl
    · rw [hmanifest h, hfiles]
      rfl
  cases manifest with
  | error error =>
    -- without a manifest that parses it is incomplete
    have hunfit : faults = false → ∃ files, s.dirs id = some files ∧ ¬files.complete := fun h => by
      obtain ⟨files, hfiles, -, hstored⟩ := hthere h
      refine ⟨files, hfiles, ?_⟩
      rw [ArtifactDir.complete, ← hstored]
      exact fun h => by simp [Except.toOption] at h
    have hreturn : Scans faults report [id] (do
        scrap faults id
        return { report with incompleteRemoved := report.incompleteRemoved ++ [id] }) s := by
      refine wpOr_seq (bootRuns_scrap hok hunfit) fun _ s' hs' => ⟨hs'.1, fun h => ⟨hs'.2 h, ?_⟩⟩
      obtain ⟨files, hfiles, -, hstored⟩ := hthere h
      rw [ReconcileReport.of_incomplete hfiles hstored.symm, ReconcileReport.append, List.append_nil,
        List.append_nil]
    cases found.toOption.getD false with
    | false => exact hreturn
    | true => exact hreturn
  | ok stored =>
    cases hdata : found.toOption.getD false with
    | true =>
      refine ⟨hok, fun h => ?_⟩
      obtain ⟨files, hfiles, hsome, hstored⟩ := hthere h
      -- with its data it is available
      have hcomplete : files.complete := by
        rw [ArtifactDir.complete, ← hsome, hdata, ← hstored]
        rfl
      refine ⟨(ArtifactDisk.sweep_of_complete hfiles hcomplete).symm, ?_⟩
      rw [ReconcileReport.of_available hfiles (hsome.symm.trans hdata) hstored.symm,
        ReconcileReport.append, List.append_nil, List.append_nil]
    | false =>
      have hunfit : faults = false → ∃ files, s.dirs id = some files ∧ ¬files.complete := fun h => by
        obtain ⟨files, hfiles, hsome, -⟩ := hthere h
        refine ⟨files, hfiles, ?_⟩
        rw [ArtifactDir.complete, ← hsome, hdata]
        exact Bool.false_ne_true
      refine wpOr_seq (bootRuns_scrap hok hunfit) fun _ s' hs' => ⟨hs'.1, fun h => ⟨hs'.2 h, ?_⟩⟩
      obtain ⟨files, hfiles, hsome, hstored⟩ := hthere h
      -- without its data it is lost
      have hnone : files dataFile = none := Option.not_isSome_iff_eq_none.1 fun h => by
        rw [← hsome, hdata] at h
        cases h
      rw [ReconcileReport.of_lost hfiles hnone hstored.symm, ReconcileReport.append, List.append_nil,
        List.append_nil]

/-- So are all that are listed, each once. -/
theorem scans_reconcileEntries (ids : List Uuid) : ∀ {disk : ArtifactDisk} {report : ReconcileReport},
    disk.Ok → ids.Nodup → (faults = false → ∀ id ∈ ids, (disk.dirs id).isSome) →
      Scans faults report ids (reconcileEntries faults report ids) disk := by
  induction ids with
  | nil =>
    intro disk report hok _ _
    refine wpOr_seq (bootRuns_answered hok) ?_
    rintro _ s rfl
    exact ⟨hok, fun _ => ⟨s.sweep_nil.symm, (report.append_nil s).symm⟩⟩
  | cons id ids ih =>
    intro disk report hok hnodup hdirs
    obtain ⟨hid, hnodup⟩ := List.nodup_cons.1 hnodup
    refine wpOr_seq (bootRuns_answered hok) ?_
    rintro _ s rfl
    refine wpOr_seq (scans_reconcileEntry hok fun h => hdirs h id List.mem_cons_self)
      fun report' s' hs' => ?_
    -- the other directories are there as before
    refine wpOr_mono (fun report'' s'' hs'' => ⟨hs''.1, fun h => ?_⟩) (fun _ _ h => h)
      (ih hs'.1 hnodup fun h id' hid' => ?_)
    · obtain ⟨rfl, rfl⟩ := hs'.2 h
      obtain ⟨rfl, rfl⟩ := hs''.2 h
      rw [ArtifactDisk.sweep_cons, ReconcileReport.of_sweep hid, ReconcileReport.append_assoc,
        ← ReconcileReport.of_cons]
      exact ⟨rfl, rfl⟩
    · have hne : id' ∉ [id] := fun hmem => hid (List.mem_singleton.1 hmem ▸ hid')
      rw [(hs'.2 h).1, ArtifactDisk.sweep_dirs_of_not_mem hne]
      exact hdirs h id' (List.mem_cons_of_mem _ hid')

/-- A scan of the store keeps what holds of it and, where its calls do not fail, reports some order of
    the directories that are there. -/
theorem bootRuns_reconcileOnStartup (hok : disk.Ok) :
    BootRuns (reconcileOnStartup faults) (fun report s => s.Ok ∧ (faults = false →
      ∃ ids, ids.Perm disk.entries ∧ s = disk.sweep ids ∧ report = .of disk ids))
      (fun _ s => s.Ok ∧ faults = true) disk := by
  refine wpOr_bind (wpOr_lift (wp_chosen (P := (· = disk)) (fun _ _ _ h => h.elim) rfl
    (fun _ _ => id) ?_))
  rintro order s rfl
  refine wpOr_seq (P := fun ids s' => s' = s ∧ ids.Perm s.entries) ?_ ?_
  · have hperm : ∀ s', s' = s → (s'.Ok → s'.Ok) ∧ s' = s ∧
        (ordered order s'.entries).Perm s.entries := by
      rintro s' rfl
      exact ⟨id, rfl, ordered_perm order s'.entries⟩
    cases faults with
    | false => exact wpOr_locked (P := (· = s)) (fun _ _ _ h => h.elim) rfl hperm
    | true =>
      exact wpOr_call (P := (· = s)) (fun _ _ _ h => h.elim) rfl (fun _ _ => id) (fun _ _ => trivial)
        (fun _ _ hs => ⟨hs ▸ hok, rfl⟩) hperm
  · rintro ids s' ⟨rfl, hids⟩
    have hnodup : ids.Nodup := hids.nodup_iff.2 (hok.nodup.filter _)
    refine wpOr_mono (fun report s hs => ⟨hs.1, fun h => ⟨ids, hids, hs.2 h⟩⟩) (fun _ _ h => h)
      (scans_reconcileEntries ids hok hnodup fun _ id hid => ?_)
    exact (List.mem_filter.1 (hids.mem_iff.1 hid)).2

end Boots

/-! ## Scans end -/

section Live

variable [ManifestJson] {faults : Bool}

omit [ManifestJson] in
theorem live_call {α : Type} {effect : ArtifactDisk → Except IoError α × ArtifactDisk} :
    (call faults effect).run.Live := by
  refine liveOr_bind ?_ fun _ => fun _ => trivial
  cases faults with
  | false => trivial
  | true => exact ⟨⟨.ok ()⟩, fun _ => trivial⟩

omit [ManifestJson] in
theorem live_answered : (answered faults).run.Live := by
  cases faults with
  | false => trivial
  | true => exact ⟨⟨.ok ()⟩, fun _ => trivial⟩

omit [ManifestJson] in
theorem live_lift {α : Type} {r : Routine ArtifactDisk α} (h : r.Live) :
    (ExceptT.lift r : Io α).run.Live :=
  live_bind h fun _ => trivial

omit [ManifestJson] in
theorem live_chosen {α : Type} [Inhabited α] : (ExceptT.lift (chosen α) : Io α).run.Live :=
  live_lift ⟨⟨default⟩, fun _ => trivial⟩

omit [ManifestJson] in
theorem live_unlinkAll (id : Uuid) (names : List String) : (unlinkAll faults id names).run.Live := by
  induction names with
  | nil => trivial
  | cons name names ih => exact liveOr_bind live_call fun _ => ih

omit [ManifestJson] in
theorem live_scrap (id : Uuid) : (scrap faults id).run.Live := by
  refine liveOr_bind (live_lift fun _ => trivial) fun _ => ?_
  exact liveOr_bind live_chosen fun order => liveOr_bind live_call fun names =>
    liveOr_bind (live_unlinkAll id names) fun _ => live_call

/-- A directory is sorted out whatever the calls answer. -/
theorem live_reconcileEntry (report : ReconcileReport) (id : Uuid) :
    (reconcileEntry faults report id).run.Live := by
  refine liveOr_bind (live_lift live_answered) fun r => ?_
  cases r with
  | error error => trivial
  | ok =>
    refine liveOr_bind (live_lift live_call) fun found => liveOr_bind (live_lift live_call)
      fun manifest => ?_
    cases manifest with
    | error error =>
      cases found.toOption.getD false with
      | false => exact liveOr_bind (live_scrap id) fun _ => trivial
      | true => exact liveOr_bind (live_scrap id) fun _ => trivial
    | ok stored =>
      cases found.toOption.getD false with
      | false => exact liveOr_bind (live_scrap id) fun _ => trivial
      | true => trivial

/-- So are all that are listed. -/
theorem live_reconcileEntries (ids : List Uuid) : ∀ report : ReconcileReport,
    (reconcileEntries faults report ids).run.Live := by
  induction ids with
  | nil => exact fun report => liveOr_bind live_answered fun _ => trivial
  | cons id ids ih =>
    exact fun report => liveOr_bind live_answered fun _ =>
      liveOr_bind (live_reconcileEntry report id) fun report' => ih report'

theorem live_reconcileOnStartup (faults : Bool) : (reconcileOnStartup faults).run.Live :=
  liveOr_bind live_chosen fun _ => liveOr_bind live_call fun ids => live_reconcileEntries ids _

end Live

/-! ## Publishes succeed -/

section Succeeds

variable {disk : ArtifactDisk} {id : Uuid} {dir : ArtifactDir}

theorem canOr_call {α : Type} {effect : ArtifactDisk → Except IoError α × ArtifactDisk}
    {P : α → ArtifactDisk → Prop} {E : IoError → ArtifactDisk → Prop}
    (h : Outcome P E (effect disk).1 (effect disk).2) : CanOr (call true effect) P E disk :=
  canOr_seq (P := fun _ s => s = disk) ⟨.ok (), rfl⟩ fun _ _ hs => hs ▸ h

theorem canOr_answered {E : IoError → ArtifactDisk → Prop} :
    CanOr (answered true) (fun _ s => s = disk) E disk := ⟨.ok (), rfl⟩

/-- A step on the files that are there. -/
theorem canOr_alterDir {f : ArtifactDir → ArtifactDir} {E : IoError → ArtifactDisk → Prop}
    (hdir : disk.dirs id = some dir) : Outcome (fun _ s => s = disk.put id (some (f dir))) E
      (.ok () : Except IoError Unit) (disk.alterDir id f) := by
  rw [ArtifactDisk.alterDir_eq_put, hdir]
  rfl

/-- A file may be created in a directory that is there. -/
theorem canOr_createFile {file : String} {E : IoError → ArtifactDisk → Prop}
    (hdir : disk.dirs id = some dir) :
    CanOr (createFile id file) (fun _ s => s = disk.put id (some (dir.create file))) E disk := by
  refine canOr_call ?_
  have hthere : ¬(disk.dirs id).isNone := by
    rw [hdir]
    exact Bool.false_ne_true
  rw [if_neg hthere]
  exact canOr_alterDir hdir

/-- A file that is there may be renamed. -/
theorem canOr_rename {old new : String} {E : IoError → ArtifactDisk → Prop}
    (hdir : disk.dirs id = some dir) (hold : (dir old).isSome) :
    CanOr (rename id old new) (fun _ s => s = disk.put id (some (dir.rename old new))) E disk := by
  refine canOr_call ?_
  have hthere : ¬((disk.dirs id).bind (· old)).isNone := by
    rw [hdir, Option.bind_some, ← Option.not_isSome, hold]
    exact Bool.false_ne_true
  rw [if_neg hthere]
  exact canOr_alterDir hdir

theorem canOr_writeAll {file : String} {bytes : Bytes} {E : IoError → ArtifactDisk → Prop}
    (hdir : disk.dirs id = some dir) :
    CanOr (ArtifactStore.writeAll id file bytes)
      (fun _ s => s = disk.put id (some (dir.append file bytes))) E disk := by
  refine canOr_seq (P := fun lengths s => lengths = [] ∧ s = disk) ⟨[], rfl, rfl⟩ ?_
  rintro _ s ⟨rfl, rfl⟩
  exact canOr_call (canOr_alterDir hdir)

/-- The files of a published output. -/
def publishedDir [ManifestJson] (bytes : Bytes) (stored : StoredManifest) : ArtifactDir :=
  ((((ArtifactDir.create (fun _ => none) partFile).append partFile bytes).rename partFile
    dataFile).create
    manifestFile).append manifestFile (ManifestJson.encode stored)

/-- A source of one chunk may be copied. -/
theorem canOr_copySource (byte : UInt8) (data : Bytes) {E : IoError → ArtifactDisk → Prop}
    (hdir : disk.dirs id = none) : CanOr (copySource id) (fun copied s =>
      copied = (.ofNat (byte :: data).length, ⟨byte :: data⟩) ∧ s = disk.put id (some
        ((ArtifactDir.create (fun _ => none) partFile).append partFile (byte :: data)))) E disk := by
  refine canOr_seq (P := fun _ s => s = disk.put id (some fun _ => none)) (canOr_call ?_) ?_
  · rw [ArtifactDirs.createDirAll, hdir, Option.getD_none]
    rfl
  rintro _ s rfl
  refine canOr_seq (P := fun source s => source = ⟨[byte :: data], none⟩ ∧
    s = disk.put id (some fun _ => none)) ⟨.ok ⟨[byte :: data], none⟩, rfl, rfl⟩ ?_
  rintro _ s ⟨rfl, rfl⟩
  -- the file is created, the bytes are written, and the copy is synced
  refine canOr_seq (canOr_createFile (ArtifactDisk.put_self ..)) ?_
  rintro _ s rfl
  rw [ArtifactDisk.put_put]
  refine canOr_seq (P := fun copied s => copied = (.ofNat (byte :: data).length, ⟨byte :: data⟩) ∧
    s = disk.put id
      (some ((ArtifactDir.create (fun _ => none) partFile).append partFile (byte :: data))))
    (canOr_seq (canOr_writeAll (ArtifactDisk.put_self ..)) ?_) ?_
  · rintro _ s rfl
    rw [ArtifactDisk.put_put]
    exact ⟨Prod.ext (UInt64.zero_add _) rfl, rfl⟩
  · rintro _ s ⟨rfl, rfl⟩
    refine canOr_seq canOr_answered ?_
    rintro _ s rfl
    exact ⟨rfl, rfl⟩

/-- A publish whose source is what the manifest says succeeds, where no call of the file system
    fails. -/
theorem canOr_publish [Sha256] [ManifestJson] {attempt : Uuid} {manifest : ArtifactManifest}
    (byte : UInt8) (data : Bytes) (completedAt : Time) (hdir : disk.dirs id = none)
    (hverify : manifest.verify (.ofNat (byte :: data).length) (Sha256.digest (byte :: data)) =
      .ok ()) :
    CanOr (ArtifactStore.publish id attempt manifest) (fun handle s => handle = ⟨id, manifest⟩ ∧
      s = (disk.put id (some (publishedDir (byte :: data) ⟨attempt, manifest, completedAt⟩))).record
        id
        (byte :: data) ⟨attempt, manifest, completedAt⟩) (fun _ _ => False) disk := by
  refine canOr_seq (canOr_adapt (canOr_copySource byte data hdir)) ?_
  rintro _ s ⟨rfl, rfl⟩
  refine canOr_seq (P := fun _ s => s = disk.put id (some
    ((ArtifactDir.create (fun _ => none) partFile).append partFile (byte :: data)))) ?_ ?_
  · rw [show (⟨byte :: data⟩ : Hasher).finish = Sha256.digest (byte :: data) from rfl, hverify]
    rfl
  rintro _ s rfl
  refine canOr_seq (canOr_adapt (canOr_rename (ArtifactDisk.put_self ..) rfl)) ?_
  rintro _ s rfl
  refine canOr_seq (P := fun time s => time = completedAt ∧ s = _) ⟨completedAt, rfl, rfl⟩ ?_
  rintro _ s ⟨rfl, rfl⟩
  refine canOr_seq (canOr_adapt canOr_answered) ?_
  rintro _ s rfl
  refine canOr_seq (canOr_adapt (canOr_createFile (ArtifactDisk.put_self ..))) ?_
  rintro _ s rfl
  refine canOr_seq (canOr_adapt (canOr_writeAll (ArtifactDisk.put_self ..))) ?_
  rintro _ s rfl
  simp only [ArtifactDisk.put_put]
  exact ⟨rfl, rfl⟩

end Succeeds

/-! ## The store in a process -/

section Process

/-- A publish is given a new id. -/
def ArtifactDisk.issue (id : Uuid)
    (disk : ArtifactDisk) : ArtifactDisk := { disk with ids := id :: disk.ids }

/-- A store with nothing in it. -/
def ArtifactDisk.empty : ArtifactDisk where
  dirs _ := none
  ids := []
  published _ := none
  discarded := []

variable [Sha256] [ManifestJson] [UuidText]

/-- What is started while the worker serves: the publish of an output under a new id, the discard
    that Remote asks for, and the expiry of a maintenance pass. -/
inductive StoreOperation : ArtifactDisk → StoreTask → Routine ArtifactDisk Unit → ArtifactDisk → Prop
  | publish {disk : ArtifactDisk} {id : Uuid} (attempt : Uuid) (manifest : ArtifactManifest)
    (h : id ∉ disk.ids) : StoreOperation disk (.publishing id)
      (discard (ArtifactStore.publish id attempt manifest).run) (disk.issue id)
  | delete {disk : ArtifactDisk} (token : String) :
    StoreOperation disk .removing (discard (ArtifactStore.delete token).run) disk
  | expire {disk : ArtifactDisk} (now ttl : Time) :
    StoreOperation disk .removing (discard (ArtifactStore.expire now ttl).run) disk

/-- A boot: the worker serves where the scan of its store succeeds. -/
def boot (faults : Bool) : Routine ArtifactDisk Bool :=
  (·.toOption.isSome) <$> (reconcileOnStartup faults).run

/-- A scan that boots the worker. -/
def IsBoot (r : Routine ArtifactDisk Bool) : Prop := ∃ faults, r = boot faults

/-- The worker boots for the first time. -/
def FirstBoot (c : Crew ArtifactDisk StoreTask) : Prop := ∃ faults, c =
    ⟨.empty, some (boot faults), []⟩

/-- What a worker's process reaches: its store, with what is under way on it. -/
abbrev StoreReachable : Crew ArtifactDisk StoreTask → Prop :=
  Crew.Reachable FirstBoot IsBoot StoreOperation

omit [UuidText] in
theorem ArtifactDisk.ok_empty : ArtifactDisk.empty.Ok where
  nodup := .nil
  listed _ h := absurd h Bool.false_ne_true
  issued _ h := absurd h Bool.false_ne_true
  sound _ files h := absurd h.symm (Option.some_ne_none files)
  kept _ bytes stored h := absurd h.symm (Option.some_ne_none (bytes, stored))

omit [UuidText] in
theorem alone_boot {faults : Bool} {disk : ArtifactDisk} (h : disk.Ok) :
    storeRegime.Alone (boot faults) (fun _ _ => True) disk :=
  wp_map (wp_mono (fun _ _ _ => trivial) (bootRuns_reconcileOnStartup h))

omit [Sha256] [ManifestJson] [UuidText] in
theorem StoreTask.apart_removing (j : StoreTask) : StoreTask.removing.Apart j := by
  cases j <;> trivial

omit [Sha256] [ManifestJson] [UuidText] in
theorem StoreTask.rely_refl (j : StoreTask) (disk : ArtifactDisk) : j.Rely disk disk := by
  cases j with
  | publishing _ => exact ⟨fun h => h, fun _ h => h, rfl, .refl _, fun _ => rfl⟩
  | removing => exact fun _ h => h

omit [UuidText] in
/-- A removal is started without a change of the store. -/
theorem admits_removal {ε α : Type} {x : ExceptT ε (Routine ArtifactDisk) α}
    (h : ∀ disk, RemovalRuns x disk) (disk : ArtifactDisk) :
    storeRegime.Admits disk .removing (discard x.run) disk where
  apart j _ := StoreTask.apart_removing j
  known := trivial
  knows _ h := h
  rely j _ := StoreTask.rely_refl j disk
  inv := id
  runs _ := wp_discard (wp_mono (fun _ _ _ => trivial) (h disk))

omit [UuidText] in
/-- A publish is started under an id that no other has. -/
theorem admits_publish {id attempt : Uuid} {manifest : ArtifactManifest} {disk : ArtifactDisk}
    (h : id ∉ disk.ids) : storeRegime.Admits disk (.publishing id)
      (discard (ArtifactStore.publish id attempt manifest).run) (disk.issue id) where
  apart j hj := by
    cases j with
    | publishing id' => exact fun heq => h (heq ▸ hj)
    | removing => trivial
  known := List.mem_cons_self
  knows j hj := by
    cases j with
    | publishing id' => exact List.mem_cons_of_mem _ hj
    | removing => trivial
  rely j _ := by
    cases j with
    | publishing id' => exact ⟨List.mem_cons_of_mem _, fun _ h => h, rfl, .refl _, fun _ => rfl⟩
    | removing => exact fun _ h => h
  inv hok := ⟨List.nodup_cons.2 ⟨h, hok.nodup⟩,
    fun id' h' => List.mem_cons_of_mem _ (hok.listed id' h'),
    fun id' h' => List.mem_cons_of_mem _ (hok.issued id' h'), hok.sound, hok.kept⟩
  runs hok := by
    have hdir : disk.dirs id = none :=
      Option.not_isSome_iff_eq_none.1 fun hsome => h (hok.listed id hsome)
    have hfresh : disk.published id = none :=
      Option.not_isSome_iff_eq_none.1 fun hsome => h (hok.issued id hsome)
    have hheld : Held id none (disk.issue id) :=
      ⟨List.mem_cons_self, hfresh, hdir ▸ .refl _, fun _ => hdir⟩
    exact wp_discard (wp_mono (fun _ _ _ => trivial) hheld.publish)

theorem admits_operation (disk : ArtifactDisk) (i : StoreTask) (r : Routine ArtifactDisk Unit)
    (disk' : ArtifactDisk) (h : StoreOperation disk i r disk') :
    storeRegime.Admits disk i r disk' := by
  cases h with
  | publish attempt manifest h => exact admits_publish h
  | delete token => exact admits_removal (removalRuns_delete token) disk
  | expire now ttl => exact admits_removal (removalRuns_expire now ttl) disk

/-- What holds of the store holds in every run of the process, across its crashes. -/
theorem StoreReachable.ok {c : Crew ArtifactDisk StoreTask} (hc : StoreReachable c) : c.state.Ok := by
  refine storeRegime.invariant ?_ ?_ admits_operation hc
  · rintro _ ⟨faults, rfl⟩
    exact ⟨ArtifactDisk.ok_empty, fun r hr => Option.some.inj hr ▸ alone_boot ArtifactDisk.ok_empty,
      List.forall_mem_nil _, List.forall_mem_nil _, .nil⟩
  · rintro disk _ hok ⟨faults, rfl⟩
    exact alone_boot hok

/-- A scan did what it is for. -/
structure Reconciled (disk : ArtifactDisk) (report : ReconcileReport) (disk' : ArtifactDisk) :
    Prop where
  /-- The complete outputs are left, as they were, and nothing else. -/
  dirs : ∀ id, disk'.dirs id = (disk.dirs id).filter ArtifactDir.complete
  available : ∀ handle, handle ∈ report.available ↔ ∃ files stored,
    disk.dirs handle.artifactId = some files ∧ (files dataFile).isSome ∧ files.stored = some stored ∧
      handle.manifest = stored.manifest
  lost : ∀ id, id ∈ report.lost ↔ ∃ files stored,
    disk.dirs id = some files ∧ files dataFile = none ∧ files.stored = some stored
  incompleteRemoved : ∀ id, id ∈ report.incompleteRemoved ↔ ∃ files,
    disk.dirs id = some files ∧ files.stored = none
  /-- Each of them is reported once. -/
  once : (report.available.map ArtifactHandle.artifactId ++
    (report.lost ++ report.incompleteRemoved)).Nodup

namespace Reconciled

variable {disk disk' disk'' : ArtifactDisk} {report report' : ReconcileReport}

omit [Sha256] [UuidText] in
/-- The outputs that are available: those with data and a manifest that parses. -/
theorem mem_available {ids : List Uuid} {handle : ArtifactHandle} :
    handle ∈ (ReconcileReport.of disk ids).available ↔ handle.artifactId ∈ ids ∧ ∃ files stored,
      disk.dirs handle.artifactId = some files ∧ (files dataFile).isSome ∧
      files.stored = some stored ∧ handle.manifest = stored.manifest := by
  simp only [ReconcileReport.of, List.mem_filterMap, Option.bind_eq_some_iff,
    Option.filter_eq_some_iff, Option.map_eq_some_iff]
  constructor
  · rintro ⟨id, hid, files, ⟨hfiles, hcomplete⟩, stored, hstored, rfl⟩
    exact ⟨hid, files, stored, hfiles, (Bool.and_eq_true_iff.1 hcomplete).1, hstored, rfl⟩
  · rintro ⟨hid, files, stored, hfiles, hdata, hstored, hmanifest⟩
    have hcomplete : files.complete := by
      rw [ArtifactDir.complete, hdata, hstored]
      rfl
    exact ⟨handle.artifactId, hid, files, ⟨hfiles, hcomplete⟩, stored, hstored, hmanifest ▸ rfl⟩

omit [Sha256] [UuidText] in
/-- The outputs that are lost: those with a manifest and no data. -/
theorem mem_lost {ids : List Uuid} {id : Uuid} : id ∈ (ReconcileReport.of disk ids).lost ↔
    id ∈ ids ∧ ∃ files stored, disk.dirs id = some files ∧ files dataFile = none ∧
      files.stored = some stored := by
  simp only [ReconcileReport.of, List.mem_filter, Option.any_eq_true, Bool.and_eq_true,
    Option.isNone_iff_eq_none, Option.isSome_iff_exists]
  refine and_congr_right fun _ => exists_congr fun files => ?_
  constructor
  · rintro ⟨hfiles, ⟨stored, hstored⟩, hdata⟩
    exact ⟨stored, hfiles, hdata, hstored⟩
  · rintro ⟨stored, hfiles, hdata, hstored⟩
    exact ⟨hfiles, ⟨stored, hstored⟩, hdata⟩

omit [Sha256] [UuidText] in
theorem mem_incompleteRemoved {ids : List Uuid} {id : Uuid} :
    id ∈ (ReconcileReport.of disk ids).incompleteRemoved ↔
      id ∈ ids ∧ ∃ files, disk.dirs id = some files ∧ files.stored = none := by
  simp only [ReconcileReport.of, List.mem_filter, Option.any_eq_true, Option.isNone_iff_eq_none]

omit [Sha256] [UuidText] in
/-- Each directory is reported in one of the lists. -/
theorem nodup_of {ids : List Uuid} (h : ids.Nodup) :
    ((ReconcileReport.of disk ids).available.map ArtifactHandle.artifactId ++
      ((ReconcileReport.of disk ids).lost ++
        (ReconcileReport.of disk ids).incompleteRemoved)).Nodup := by
  have havailable :
      ((ReconcileReport.of disk ids).available.map ArtifactHandle.artifactId).Nodup := by
    rw [ReconcileReport.of, List.map_filterMap]
    refine h.filterMap fun id id' id'' hid hid' => ?_
    simp only [Option.mem_def, Option.map_eq_some_iff, Option.bind_eq_some_iff] at hid hid'
    obtain ⟨_, ⟨_, _, _, _, rfl⟩, rfl⟩ := hid
    obtain ⟨_, ⟨_, _, _, _, rfl⟩, hid'⟩ := hid'
    exact hid'.symm
  refine List.nodup_append.2 ⟨havailable, List.nodup_append.2 ⟨h.filter _, h.filter _, ?_⟩, ?_⟩
  · rintro id hlost _ hincomplete rfl
    obtain ⟨-, files, stored, hfiles, -, hstored⟩ := mem_lost.1 hlost
    obtain ⟨-, files', hfiles', hnone⟩ := mem_incompleteRemoved.1 hincomplete
    obtain rfl := Option.some.inj (hfiles.symm.trans hfiles')
    exact absurd (hstored.symm.trans hnone) (Option.some_ne_none stored)
  · rintro id hid _ hother rfl
    obtain ⟨handle, hhandle, rfl⟩ := List.mem_map.1 hid
    obtain ⟨-, files, stored, hfiles, hdata, hstored, -⟩ := mem_available.1 hhandle
    rcases List.mem_append.1 hother with hlost | hincomplete
    · obtain ⟨-, files', _, hfiles', hnone, -⟩ := mem_lost.1 hlost
      obtain rfl := Option.some.inj (hfiles.symm.trans hfiles')
      rw [hnone] at hdata
      exact absurd hdata Bool.false_ne_true
    · obtain ⟨-, files', hfiles', hnone⟩ := mem_incompleteRemoved.1 hincomplete
      obtain rfl := Option.some.inj (hfiles.symm.trans hfiles')
      exact absurd (hstored.symm.trans hnone) (Option.some_ne_none stored)

omit [UuidText] in
/-- The scan of all entries, in some order. -/
theorem of_entries {ids : List Uuid} (hok : disk.Ok) (hids : ids.Perm disk.entries) :
    Reconciled disk (.of disk ids) (disk.sweep ids) := by
  have hmem : ∀ {id files}, disk.dirs id = some files → id ∈ ids := fun {id files} hfiles => by
    have hsome : (disk.dirs id).isSome := by
      rw [hfiles]
      rfl
    exact hids.mem_iff.2 (List.mem_filter.2 ⟨hok.listed id hsome, hsome⟩)
  refine ⟨fun id => ?_, fun handle => ?_, fun id => ?_, fun id => ?_,
    nodup_of (hids.nodup_iff.2 (hok.nodup.filter _))⟩
  · cases hfiles : disk.dirs id with
    | none =>
      dsimp only [ArtifactDisk.sweep]
      rw [hfiles, Option.filter_none, ite_self]
    | some files =>
      rw [← hfiles]
      exact if_pos (hmem hfiles)
  · rw [mem_available]
    exact and_iff_right_of_imp fun ⟨files, _, hfiles, _⟩ => hmem hfiles
  · rw [mem_lost]
    exact and_iff_right_of_imp fun ⟨files, _, hfiles, _⟩ => hmem hfiles
  · rw [mem_incompleteRemoved]
    exact and_iff_right_of_imp fun ⟨files, hfiles, _⟩ => hmem hfiles

omit [Sha256] [UuidText] in
/-- A scan behind another finds what that left. -/
theorem again (h : Reconciled disk report disk') (h' : Reconciled disk' report' disk'') :
    disk''.dirs = disk'.dirs ∧ report'.lost = [] ∧ report'.incompleteRemoved = [] ∧
      report'.available.Perm report.available := by
  have hcomplete : ∀ {id files}, disk'.dirs id = some files → disk.dirs id = some files ∧
      files.complete :=
    fun {id files} hfiles => Option.filter_eq_some_iff.1 ((h.dirs id).symm.trans hfiles)
  have hstored : ∀ {files : ArtifactDir}, files.complete → (files dataFile).isSome ∧
      files.stored.isSome :=
    fun hfiles => Bool.and_eq_true_iff.1 hfiles
  refine ⟨?_, ?_, ?_, ?_⟩
  · funext id
    rw [h'.dirs, h.dirs, Option.filter_filter]
    simp only [Bool.and_self]
  · refine List.eq_nil_iff_forall_not_mem.2 fun id hid => ?_
    obtain ⟨files, stored, hfiles, hnone, -⟩ := (h'.lost id).1 hid
    have hdata := (hstored (hcomplete hfiles).2).1
    rw [hnone] at hdata
    exact absurd hdata Bool.false_ne_true
  · refine List.eq_nil_iff_forall_not_mem.2 fun id hid => ?_
    obtain ⟨files, hfiles, hnone⟩ := (h'.incompleteRemoved id).1 hid
    have hsome := (hstored (hcomplete hfiles).2).2
    rw [hnone] at hsome
    exact absurd hsome Bool.false_ne_true
  · have hnodup : report.available.Nodup := (List.nodup_append.1 h.once).1.of_map
    have hnodup' : report'.available.Nodup := (List.nodup_append.1 h'.once).1.of_map
    refine (List.perm_ext_iff_of_nodup hnodup' hnodup).2 fun handle => ?_
    rw [h'.available, h.available]
    refine exists_congr fun files => exists_congr fun stored => and_congr_left fun hrest => ?_
    refine ⟨fun hfiles => (hcomplete hfiles).1, fun hfiles => ?_⟩
    rw [h.dirs, hfiles, Option.filter_some, if_pos]
    rw [ArtifactDir.complete, hrest.1, hrest.2.1]
    rfl

end Reconciled

omit [UuidText] in
/-- A scan whose calls do not fail succeeds, and does what it is for. -/
theorem ends_reconcileOnStartup {disk disk' : ArtifactDisk} {result : Except IoError ReconcileReport}
    (hok : disk.Ok) (h : Routine.Ends (reconcileOnStartup false).run disk result disk') :
    ∃ report, result = .ok report ∧ Reconciled disk report disk' ∧ disk'.Ok := by
  have hscan : BootRuns (reconcileOnStartup false) _ _ disk := bootRuns_reconcileOnStartup hok
  have hend := hscan.ends h
  cases result with
  | error error => exact absurd hend.2 Bool.false_ne_true
  | ok report =>
    obtain ⟨hok', hexact⟩ := hend
    obtain ⟨ids, hids, rfl, rfl⟩ := hexact rfl
    exact ⟨_, rfl, .of_entries hok hids, hok'⟩

end Process

/-! ## A crash between two publishes -/

namespace Sample

/-- Numbers as text: each in strokes with a comma behind it, and a closing brace. -/
def strokes : List ℕ → Bytes
  | [] => [0x7d]
  | n :: ns => List.replicate n 0x31 ++ 0x2c :: strokes ns

/-- Reads numbers, behind so many strokes. -/
def readStrokes (n : ℕ) : Bytes → Option (List ℕ)
  | [] => none
  | byte :: bytes =>
    if byte = 0x31 then readStrokes (n + 1) bytes
    else if byte = 0x2c then (readStrokes 0 bytes).map (n :: ·)
    else if bytes.isEmpty then some [] else none

theorem readStrokes_replicate (m n : ℕ) (bytes : Bytes) :
    readStrokes n (List.replicate m 0x31 ++ 0x2c :: bytes) =
      (readStrokes 0 bytes).map ((n + m) :: ·) := by
  induction m generalizing n with
  | zero => rfl
  | succ m ih =>
    rw [List.replicate_succ, List.cons_append, readStrokes, if_pos rfl, ih, Nat.succ_add_eq_add_succ]

theorem readStrokes_strokes (ns : List ℕ) : readStrokes 0 (strokes ns) = some ns := by
  induction ns with
  | nil => rfl
  | cons n ns ih => rw [strokes, readStrokes_replicate, ih, Option.map_some, Nat.zero_add]

/-- Without the brace there is nothing to read. -/
theorem readStrokes_open (n : ℕ) {bytes : Bytes} (h : ∀ byte ∈ bytes, byte = 0x31 ∨ byte = 0x2c) :
    readStrokes n bytes = none := by
  induction bytes generalizing n with
  | nil => rfl
  | cons byte bytes ih =>
    have hrest := fun n => ih n fun byte hbyte => h byte (List.mem_cons_of_mem _ hbyte)
    rw [readStrokes]
    rcases h byte List.mem_cons_self with rfl | rfl
    · rw [if_pos rfl, hrest]
    · rw [if_neg (by decide), if_pos rfl, hrest]
      rfl

/-- A text of strokes has one closing brace, at its end. -/
theorem exists_strokes (ns : List ℕ) : ∃ front, strokes ns = front ++ [0x7d] ∧
    ∀ byte ∈ front, byte = 0x31 ∨ byte = 0x2c := by
  induction ns with
  | nil => exact ⟨[], rfl, List.forall_mem_nil _⟩
  | cons n ns ih =>
    obtain ⟨front, hfront, hbytes⟩ := ih
    refine ⟨List.replicate n 0x31 ++ 0x2c :: front, ?_, fun byte hbyte => ?_⟩
    · rw [strokes, hfront, List.append_assoc, List.cons_append]
    · rcases List.mem_append.1 hbyte with hstroke | hbyte
      · exact .inl (List.eq_of_mem_replicate hstroke)
      · rcases List.mem_cons.1 hbyte with rfl | hbyte
        · exact .inr rfl
        · exact hbytes byte hbyte

theorem readStrokes_part {ns : List ℕ} {part : Bytes} (h : part <+: strokes ns)
    (hne : part ≠ strokes ns) :
    readStrokes 0 part = none := by
  obtain ⟨front, hfront, hbytes⟩ := exists_strokes ns
  rw [hfront] at h hne
  have hpart : part <+: front := (List.prefix_concat_iff.1 h).resolve_left hne
  exact readStrokes_open 0 fun byte hbyte => hbytes byte (hpart.subset hbyte)

/-- The kinds of media, in the order of their numbers. -/
def mediaKinds : List MediaKind := [.image, .video, .audio, .text, .binary]

/-- A manifest as numbers. -/
def numbers (stored : StoredManifest) : List ℕ :=
  stored.attemptId :: stored.manifest.sizeBytes.toNat :: stored.manifest.digest.toNat ::
    mediaKinds.idxOf stored.manifest.kind :: Equiv.intEquivNat stored.completedAt ::
    stored.manifest.mimeType.toList.map Char.toNat

/-- The manifest that is written as these numbers. -/
def ofNumbers : List ℕ → Option StoredManifest
  | attempt :: size :: digest :: kind :: time :: mime => mediaKinds[kind]?.map fun kind =>
      ⟨attempt, ⟨.ofNat size, .ofNat 256 digest, kind, String.ofList (mime.map Char.ofNat)⟩,
        Equiv.intEquivNat.symm time⟩
  | _ => none

/-- A manifest is read from its numbers. -/
theorem ofNumbers_numbers (stored : StoredManifest) : ofNumbers (numbers stored) = some stored := by
  obtain ⟨attempt, ⟨size, digest, kind, mime⟩, time⟩ := stored
  have hkind : mediaKinds[mediaKinds.idxOf kind]? = some kind := by cases kind <;> rfl
  have hmime : (mime.toList.map Char.toNat).map Char.ofNat = mime.toList := by
    rw [List.map_map]
    exact (List.map_congr_left fun c _ => Char.ofNat_toNat c).trans (List.map_id _)
  simp only [numbers, ofNumbers, hkind, hmime, Option.map_some, UInt64.ofNat_toNat,
    BitVec.ofNat_toNat, BitVec.setWidth_eq, String.ofList_toList, Equiv.symm_apply_apply]

/-- A manifest in strokes. -/
@[reducible] def strokeJson : ManifestJson where
  encode stored := strokes (numbers stored)
  parse bytes := (readStrokes 0 bytes).bind ofNumbers
  parse_encode stored := by
    rw [readStrokes_strokes, Option.bind_some, ofNumbers_numbers]
  parse_part stored part hpart hne := by
    rw [readStrokes_part hpart hne]
    rfl

/-- SHA-256 of three bytes. -/
@[reducible] def threeBytes : Sha256 :=
  ⟨fun _ => 0x039058c6f2c0cb492c533b0a4d14ef77cc0f78abccced5287d84a1a2011cfb81⟩

/-- No text is an identifier. -/
@[reducible] def noTokens : UuidText := ⟨fun _ => .error "invalid character"⟩

/-- The manifest of the three bytes. -/
def clip : ArtifactManifest where
  sizeBytes := 3
  digest := 0x039058c6f2c0cb492c533b0a4d14ef77cc0f78abccced5287d84a1a2011cfb81
  kind := .video
  mimeType := "video/mp4"

/-- Attempt 41 has published the three bytes as output 61. -/
def onePublished : ArtifactDisk :=
  ((ArtifactDisk.empty.issue 61).put 61 (some (@publishedDir strokeJson [1, 2, 3]
    ⟨41, clip, 1000000⟩))).record 61 [1, 2, 3] ⟨41, clip, 1000000⟩

/-- Then a publish was given the identifier 62, and came as far as its directory. -/
def halfPublished : ArtifactDisk := (onePublished.issue 62).put 62 (some fun _ => none)

/-- The worker has booted and made the two publishes. -/
theorem exists_reachable : ∃ tasks,
    @StoreReachable threeBytes strokeJson noTokens ⟨halfPublished, none, tasks⟩ := by
  let _ := threeBytes
  let _ := strokeJson
  let _ := noTokens
  -- the boot
  have hboot : Can (boot false) (fun b s => b = true ∧ s = .empty) .empty :=
    .intro ([] : List Uuid) ⟨rfl, rfl⟩
  obtain ⟨_, _, hends, rfl, rfl⟩ := exists_ends hboot
  have hserves : StoreReachable ⟨.empty, none, []⟩ :=
    .step (.trans (.init ⟨false, rfl⟩) (Crew.run_boot IsBoot StoreOperation hends)) .serve
  -- the first publish, which succeeds
  have hverify : clip.verify (.ofNat [1, 2, 3].length) (Sha256.digest [1, 2, 3]) = .ok () := by decide
  have hpublish : CanOr (ArtifactStore.publish 61 41 clip) _ _ (ArtifactDisk.empty.issue 61) :=
    canOr_publish 1 [2, 3] 1000000 rfl hverify
  have hpublished : Can (discard (ArtifactStore.publish 61 41 clip).run) (fun _ s => s = onePublished)
      (ArtifactDisk.empty.issue 61) := can_discard (can_mono (fun r s hr => by
    cases r with
    | ok handle => exact hr.2
    | error error => exact hr.elim) hpublish)
  obtain ⟨_, s, hends, hs⟩ := exists_ends hpublished
  obtain rfl := hs
  have hfirst := hserves.trans (Crew.run_task IsBoot
    (StoreOperation.publish 41 clip List.not_mem_nil) hends [])
  -- the second one, whose source cannot be opened
  have hrefused : Can (discard (ArtifactStore.publish 62 42 clip).run) (fun _ s => s = halfPublished)
      (onePublished.issue 62) :=
    .intro (.ok ()) (.intro (.error ⟨true, "No such file or directory (os error 2)"⟩) rfl)
  obtain ⟨_, s, hends, hs⟩ := exists_ends hrefused
  obtain rfl := hs
  exact ⟨_, hfirst.trans (Crew.run_task IsBoot (StoreOperation.publish 42 clip (by decide)) hends _)⟩

end Sample

/-! ## Across crashes -/

section Crashes

variable [Sha256] [ManifestJson] [UuidText]

/-- Data with a manifest that parses is what the manifest says, in whatever state publishes, removals
    and crashes leave the store. -/
theorem data_verified {c : Crew ArtifactDisk StoreTask} (hc : StoreReachable c) {id : Uuid}
    {files : ArtifactDir} {bytes : Bytes} {stored : StoredManifest}
    (hfiles : c.state.dirs id = some files) (hdata : files dataFile = some bytes)
    (hstored : files.stored = some stored) :
    stored.manifest.verify (.ofNat bytes.length) (Sha256.digest bytes) = .ok () :=
  (StoreReachable.ok hc).sound id files hfiles bytes stored hdata hstored

omit [Sha256] [ManifestJson] [UuidText] in
/-- The clip that was published has the size and the digest of its manifest. -/
theorem data_verified_clip : @ArtifactManifest.verify Sample.clip (.ofNat [1, 2, 3].length)
    (Sample.threeBytes.digest [1, 2, 3]) = .ok () := by
  let _ := Sample.threeBytes
  let _ := Sample.strokeJson
  let _ := Sample.noTokens
  obtain ⟨tasks, hreach⟩ := Sample.exists_reachable
  have hholds : (publishedDir [1, 2, 3] ⟨41, Sample.clip, 1000000⟩).Holds [1, 2, 3]
      (ManifestJson.encode ⟨41, Sample.clip, 1000000⟩) := ⟨rfl, rfl⟩
  have hfiles : Sample.halfPublished.dirs 61 =
      some (publishedDir [1, 2, 3] ⟨41, Sample.clip, 1000000⟩) := rfl
  exact data_verified hreach hfiles hholds.data hholds.stored

/-- What a publish has returned stays, byte for byte, with its manifest, across crashes and whatever
    else is under way, up to its removal. -/
theorem outputs_kept {c : Crew ArtifactDisk StoreTask} (hc : StoreReachable c) {id : Uuid}
    {bytes : Bytes} {stored : StoredManifest}
    (hpublished : c.state.published id = some (bytes, stored))
    (hkept : id ∉ c.state.discarded) :
    ∃ files, c.state.dirs id = some files ∧ files dataFile = some bytes ∧
      files.stored = some stored := by
  obtain ⟨files, hfiles, hholds⟩ := (StoreReachable.ok hc).kept id bytes stored hpublished hkept
  exact ⟨files, hfiles, hholds.data, hholds.stored⟩

omit [Sha256] [ManifestJson] [UuidText] in
/-- The clip that was published is kept. -/
theorem outputs_kept_clip : ∃ files, Sample.halfPublished.dirs 61 = some files ∧
    files dataFile = some [1, 2, 3] ∧
    @ArtifactDir.stored Sample.strokeJson files = some ⟨41, Sample.clip, 1000000⟩ := by
  let _ := Sample.threeBytes
  let _ := Sample.strokeJson
  let _ := Sample.noTokens
  obtain ⟨tasks, hreach⟩ := Sample.exists_reachable
  exact outputs_kept hreach rfl List.not_mem_nil

/-- Wherever the process crashes, a scan whose calls do not fail ends. It leaves the complete outputs
    only, as they were, among them all that were published and not removed, and reports each
    directory for what it was; a scan behind it changes nothing. -/
theorem reconciled {c : Crew ArtifactDisk StoreTask} (hc : StoreReachable c) :
    (∃ result disk', Routine.Ends (reconcileOnStartup false).run c.state result disk') ∧
    ∀ result disk', Routine.Ends (reconcileOnStartup false).run c.state result disk' →
      ∃ report, result = .ok report ∧ Reconciled c.state report disk' ∧
        (∀ id bytes stored, c.state.published id = some (bytes, stored) → id ∉ c.state.discarded →
          ⟨id, stored.manifest⟩ ∈ report.available) ∧
        ∀ result' disk'', Routine.Ends (reconcileOnStartup false).run disk' result' disk'' →
          ∃ report', result' = .ok report' ∧ disk''.dirs = disk'.dirs ∧ report'.lost = [] ∧
            report'.incompleteRemoved = [] ∧ report'.available.Perm report.available := by
  refine ⟨(live_reconcileOnStartup false).ends c.state, fun result disk' h => ?_⟩
  obtain ⟨report, rfl, hreport, hok⟩ := ends_reconcileOnStartup (StoreReachable.ok hc) h
  refine ⟨report, rfl, hreport, fun id bytes stored hpublished hkept => ?_,
    fun result' disk'' h' => ?_⟩
  · obtain ⟨files, hfiles, hdata, hstored⟩ := outputs_kept hc hpublished hkept
    refine (hreport.available _).2 ⟨files, stored, hfiles, ?_, hstored, rfl⟩
    rw [hdata]
    rfl
  · obtain ⟨report', rfl, hreport', -⟩ := ends_reconcileOnStartup hok h'
    exact ⟨report', rfl, hreport.again hreport'⟩

omit [Sha256] [ManifestJson] [UuidText] in
/-- The output is available after a crash, and the directory of the other publish is gone. -/
theorem reconciled_clip : ∃ report disk',
    Routine.Ends (@reconcileOnStartup Sample.strokeJson false).run Sample.halfPublished
      (.ok report) disk' ∧
    ⟨61, Sample.clip⟩ ∈ report.available ∧ 62 ∈ report.incompleteRemoved ∧ disk'.dirs 62 = none := by
  let _ := Sample.threeBytes
  let _ := Sample.strokeJson
  let _ := Sample.noTokens
  obtain ⟨tasks, hreach⟩ := Sample.exists_reachable
  obtain ⟨⟨result, disk', hends⟩, hexact⟩ := reconciled hreach
  obtain ⟨report, rfl, hreport, havailable, -⟩ := hexact result disk' hends
  refine ⟨report, disk', hends,
    havailable 61 [1, 2, 3] ⟨41, Sample.clip, 1000000⟩ rfl List.not_mem_nil,
    (hreport.incompleteRemoved 62).2 ⟨_, rfl, rfl⟩, ?_⟩
  rw [hreport.dirs]
  rfl

end Crashes

end Gpq
