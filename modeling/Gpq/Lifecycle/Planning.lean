import Gpq.Lifecycle.Candidates
import Gpq.Lifecycle.Selection

/-!
# Scheduling passes

A pass leaves no free Slot idle for want of a decision: where it considers a Generation that a
ready Pool of an online Worker with a free Slot can run, it plans one for that Pool
(`pass_plans_iff`). It considers the oldest queued Generations, up to its limit, before it looks
at what a Pool can run, so that a long queue of others hides the one that could run
(`pass_leaves_idle`).
-/

namespace Gpq

open Sql DbKey

/-! ## Selection -/

section Selection

variable {context : SlotContext} {candidates : List Candidate} {c : Candidate}

/-- A free Slot gets a Generation where there is one for it. -/
theorem selectNext_isSome (hfree : context.freeSlots ≠ 0) (hc : c ∈ candidates)
    (heligible : context.eligible c) :
    (selectNext context candidates).isSome := by
  rw [Option.isSome_iff_ne_none]
  intro hnone
  rcases selectNext_eq_none hnone with hfull | hempty
  · exact hfree hfull
  · exact Set.notMem_empty c (hempty ▸ ⟨hc, heligible⟩)

/-- Who is selected was a candidate, and is eligible. -/
theorem eligible_of_selectBatch (h : c ∈ selectBatch context candidates) :
    c ∈ candidates ∧ context.eligible c := by
  unfold selectBatch at h
  split at h
  · cases h
  rename_i primary hprimary
  -- the first of the batch, or a companion
  rcases List.mem_cons.1 h with rfl | hcompanion
  · exact (isPrimary_of_selectNext hprimary).2.offered
  · have hfilter := (List.mem_insertionSort _).1 (List.mem_of_mem_take hcompanion)
    obtain ⟨hmem, hc⟩ := List.mem_filter.1 hfilter
    simp only [Bool.and_eq_true] at hc
    exact ⟨hmem, hc.2⟩

/-- A batch is empty exactly where no Generation is eligible. -/
theorem selectBatch_ne_nil_iff (hfree : context.freeSlots ≠ 0) :
    selectBatch context candidates ≠ [] ↔ ∃ c ∈ candidates, context.eligible c := by
  constructor
  · intro h
    obtain ⟨c, hc⟩ := List.exists_mem_of_ne_nil _ h
    exact ⟨c, eligible_of_selectBatch hc⟩
  · rintro ⟨c, hc, heligible⟩
    obtain ⟨primary, hprimary⟩ := Option.isSome_iff_exists.1 (selectNext_isSome hfree hc heligible)
    rw [selectBatch, hprimary]
    exact List.cons_ne_nil _ _

end Selection

/-! ## Plans -/

section Plans

variable {candidates : List Candidate} {exclusions : Uuid → List Uuid} {settings : TenantSettings}
    {now : Time}
  {isOnline : Uuid → Bool}

/-- Every decision for a Pool is for it. -/
theorem poolId_of_planPool {offer : SlotCapability × ℕ × Uuid × String} {a : SlotAssignment}
    (h : a ∈ planPool candidates exclusions settings now isOnline offer) :
    a.poolId = offer.1.poolId := by
  obtain ⟨capability, freeSlots, workerId, key⟩ := offer
  simp only [planPool] at h
  split at h
  · cases h
  · obtain ⟨c, -, rfl⟩ := List.mem_map.1 h
    rfl

/-- Something is planned for a Pool with a free Slot and an online Worker exactly where it
    admits a candidate that is not excluded from it. -/
theorem planPool_ne_nil_iff {capability : SlotCapability} {freeSlots : ℕ} {workerId : Uuid}
    {key : String} (hfree : freeSlots ≠ 0) (honline : isOnline workerId) :
    planPool candidates exclusions settings now isOnline (capability, freeSlots, workerId, key) ≠ [] ↔
      ∃ c ∈ candidates, capability.poolId ∉ exclusions c.generationId ∧
        (capability.admits c.requirement).isOk := by
  have hgoes : ¬ (freeSlots = 0 || !isOnline workerId) = true := by simp [hfree, honline]
  dsimp only [planPool]
  rw [if_neg hgoes, ne_eq, List.map_eq_nil_iff, ← ne_eq]
  split
  · -- the identities of the filtered slice's choices are found again
    rename_i hany
    rw [← List.length_pos_iff, List.length_filterMap_eq_countP, List.countP_pos_iff]
    constructor
    · rintro ⟨c, hc, -⟩
      obtain ⟨hmem, heligible⟩ := eligible_of_selectBatch hc
      obtain ⟨hmem, hnot⟩ := List.mem_filter.1 hmem
      exact ⟨c, hmem, by simpa using hnot, heligible⟩
    · rintro ⟨c, hc, hnot, heligible⟩
      have hbatch : selectBatch { capability, freeSlots, settings, now }
          (candidates.filter fun c => !decide (capability.poolId ∈ exclusions c.generationId)) ≠ [] :=
        (selectBatch_ne_nil_iff hfree).2 ⟨c, List.mem_filter.2 ⟨hc, by simpa using hnot⟩, heligible⟩
      obtain ⟨primary, hprimary⟩ := List.exists_mem_of_ne_nil _ hbatch
      refine ⟨primary, hprimary, ?_⟩
      rw [List.find?_isSome]
      exact ⟨primary, (List.mem_filter.1 (eligible_of_selectBatch hprimary).1).1, by simp⟩
  · rename_i hnone
    rw [selectBatch_ne_nil_iff hfree]
    refine exists_congr fun c => and_congr_right fun hc => ?_
    have hnot : capability.poolId ∉ exclusions c.generationId := fun h =>
      hnone (List.any_eq_true.2 ⟨c, hc, by simpa using h⟩)
    exact ⟨fun h => ⟨hnot, h⟩, fun h => h.2⟩

end Plans

/-! ## Passes -/

/-- The oldest queued Generations, in the order in which the query returns them. -/
def Generations.oldestQueued (limit : ℕ) (db : Db) : List (Uuid × GenerationRow) :=
  ((db.generations.rows.filter fun e => e.2.state = .queued).insertionSort
    fun a b => a.2.createdAt ≤ b.2.createdAt).take limit

/-- A queued Generation is not among the oldest `limit` where as many others are older. -/
theorem Generations.not_mem_oldestQueued {db : Db} {limit : ℕ} {g : Uuid} {row : GenerationRow}
    (hrow : fetch db (generation g) = some row) {older : List Uuid} (hnodup : older.Nodup)
    (hlimit : limit ≤ older.length)
    (holder : ∀ g' ∈ older, ∃ r, fetch db (generation g') = some r ∧ r.state = .queued ∧
      r.createdAt < row.createdAt) :
    g ∉ (Generations.oldestQueued limit db).map Prod.fst := by
  intro hg
  let rows := db.generations.rows.filter fun e => e.2.state = .queued
  let sorted := rows.insertionSort fun a b => a.2.createdAt ≤ b.2.createdAt
  have htotal : Std.Total fun a b : Uuid × GenerationRow => a.2.createdAt ≤ b.2.createdAt :=
    ⟨fun _ _ => Int.le_total _ _⟩
  have htrans : IsTrans (Uuid × GenerationRow) fun a b => a.2.createdAt ≤ b.2.createdAt :=
    ⟨fun _ _ _ => Int.le_trans⟩
  have hsorted : (sorted.take limit ++ sorted.drop limit).Pairwise fun a b => a.2.createdAt ≤
      b.2.createdAt := by
    rw [List.take_append_drop]
    exact List.pairwise_insertionSort _ _
  have hkeys : ((sorted.take limit).map Prod.fst).Nodup := by
    refine List.Nodup.sublist ((List.take_sublist _ _).map _) ?_
    refine (((List.perm_insertionSort _ rows).map Prod.fst).nodup_iff).2 ?_
    exact db.generations.rows_nodup_keys.sublist (List.filter_sublist.map _)
  have hfirst : (g, row) ∈ sorted.take limit := by
    obtain ⟨e, he, rfl⟩ := List.mem_map.1 hg
    have hmem := (List.mem_filter.1 ((List.mem_insertionSort _).1 (List.mem_of_mem_take he))).1
    obtain rfl : e.2 = row := Option.some_inj.1 ((Table.mem_rows.1 hmem).symm.trans hrow)
    exact he
  -- whatever is older comes before it, and so is among the first ones too
  have hsubset : g :: older ⊆ (sorted.take limit).map Prod.fst := by
    intro g' hg'
    rcases List.mem_cons.1 hg' with rfl | hg'
    · exact hg
    obtain ⟨r, hr, hqueued, hlt⟩ := holder g' hg'
    have hmem : (g', r) ∈ sorted :=
      (List.mem_insertionSort _).2 (List.mem_filter.2 ⟨Table.mem_rows.2 hr, decide_eq_true hqueued⟩)
    rw [← List.take_append_drop limit sorted] at hmem
    rcases List.mem_append.1 hmem with htake | hdrop
    · exact List.mem_map_of_mem htake
    · have hle := (List.pairwise_append.1 hsorted).2.2 _ hfirst _ hdrop
      exact absurd hlt (Int.not_lt.2 hle)
  have hnot : g ∉ older := fun h => by
    obtain ⟨r, hr, -, hlt⟩ := holder g h
    obtain rfl : r = row := Option.some_inj.1 (hr.symm.trans hrow)
    exact absurd hlt (Int.lt_irrefl _)
  have hlen := (List.subperm_of_subset (List.nodup_cons.2 ⟨hnot, hnodup⟩) hsubset).length_le
  rw [List.length_cons, List.length_map, List.length_take] at hlen
  omega

section Passes

variable [ManifestHash] {db : Db}

/-- Some candidate of the query can run on the Pool, in the terms of the database. -/
theorem exists_queued_iff {limit : ℕ} {p : Uuid} {pool : DevicePoolRow}
    (hp : fetch db (devicePool p) = some pool) (hlive : Workers.unrevoked db pool) :
    (∃ c ∈ Generations.queued limit db, p ∉ NativeExclusions.excluded db c.generationId ∧
      ((Workers.buildSlotCapability db p pool).admits c.requirement).isOk) ↔
    ∃ g ∈ (Generations.oldestQueued limit db).map Prod.fst,
      CanRun db p g ∧ p ∉ NativeExclusions.excluded db g := by
  have hrow {e : Uuid × GenerationRow} (he : e ∈ Generations.oldestQueued limit db) :
      fetch db (generation e.1) = some e.2 :=
    Table.mem_rows.1 (List.mem_filter.1 ((List.mem_insertionSort _).1 (List.mem_of_mem_take he))).1
  constructor
  · rintro ⟨c, hc, hnot, hadmits⟩
    obtain ⟨e, he, hce⟩ := List.mem_filterMap.1 hc
    obtain ⟨requirement, hreq, rfl⟩ := Option.map_eq_some_iff.1 hce
    exact ⟨e.1, List.mem_map_of_mem he,
      ⟨pool, e.2, requirement, hp, hlive, hrow he, hreq, hadmits⟩, hnot⟩
  · rintro ⟨g, hg, ⟨pool', row, requirement, hp', -, hrow', hreq, hadmits⟩, hnot⟩
    obtain ⟨e, he, rfl⟩ := List.mem_map.1 hg
    obtain rfl : pool' = pool := Option.some_inj.1 (hp'.symm.trans hp)
    obtain rfl : e.2 = row := Option.some_inj.1 ((hrow he).symm.trans hrow')
    let c : Candidate :=
      { generationId := e.1, createdAt := e.2.createdAt, priority := e.2.priority, requirement }
    refine ⟨c, List.mem_filterMap.2 ⟨e, he, ?_⟩, hnot, hadmits⟩
    rw [hreq]
    rfl

omit [ManifestHash] in
/-- What a pass plans for a ready Pool is what is planned for its own offer. -/
theorem planAssignments_for_pool {candidates : List Candidate} {exclusions : Uuid → List Uuid}
    {settings : TenantSettings} {now : Time} {isOnline : Uuid → Bool} {p : Uuid}
    {pool : DevicePoolRow} (hp : fetch db (devicePool p) = some pool) (hready : pool.ready) :
    (∃ a ∈ planAssignments (Workers.capabilities db) candidates exclusions settings now isOnline,
      a.poolId = p) ↔
    Workers.unrevoked db pool ∧ planPool candidates exclusions settings now isOnline
      (Workers.buildSlotCapability db p pool, pool.freeSlots, pool.workerId, pool.poolKey) ≠ [] := by
  simp only [planAssignments, List.mem_flatMap]
  constructor
  · rintro ⟨a, ⟨offer, hoffer, ha⟩, hpool⟩
    obtain ⟨⟨q, r⟩, hq, rfl⟩ := List.mem_map.1 hoffer
    obtain rfl : q = p := (poolId_of_planPool ha).symm.trans hpool
    obtain ⟨hq, hcond⟩ := List.mem_filter.1 hq
    obtain rfl : r = pool := Option.some_inj.1 ((Table.mem_rows.1 hq).symm.trans hp)
    exact ⟨(Bool.and_eq_true_iff.1 hcond).2, List.ne_nil_of_mem ha⟩
  · rintro ⟨hlive, hplan⟩
    obtain ⟨a, ha⟩ := List.exists_mem_of_ne_nil _ hplan
    refine ⟨a, ⟨_, List.mem_map.2 ⟨(p, pool), ?_, rfl⟩, ha⟩, poolId_of_planPool ha⟩
    exact List.mem_filter.2 ⟨Table.mem_rows.2 hp, Bool.and_eq_true_iff.2 ⟨hready, hlive⟩⟩

omit [ManifestHash] in
/-- Without candidates there is no plan. -/
theorem planAssignments_nil (capabilities : List (SlotCapability × ℕ × Uuid × String))
    (exclusions : Uuid → List Uuid) (settings : TenantSettings) (now : Time)
    (isOnline : Uuid → Bool) :
    planAssignments capabilities [] exclusions settings now isOnline = [] := by
  refine List.flatMap_eq_nil_iff.2 fun offer _ => ?_
  obtain ⟨capability, freeSlots, workerId, key⟩ := offer
  dsimp only [planPool]
  split
  · rfl
  · rename_i hgoes
    have hfree : freeSlots ≠ 0 := fun h => hgoes (by simp [h])
    have hnone : selectBatch { capability, freeSlots, settings, now } [] = [] := by
      by_contra h
      obtain ⟨c, hc, -⟩ := (selectBatch_ne_nil_iff hfree).1 h
      cases hc
    rw [List.any_nil, if_neg Bool.false_ne_true, hnone]
    rfl

/-- The settings that a pass reads. -/
def passSettings (db : Db) : TenantSettings :=
  (((fetch db tenant).filter fun r => r.deletedAt.isNone).map TenantRow.settings).getD .default

/-- What a pass reads, and what it plans from that. -/
theorem trySchedule_run {onlineWorkers : List Uuid} (hworkers : onlineWorkers ≠ []) (now : Time)
    (db : Db) :
    (trySchedule onlineWorkers now).run db = .ok (.commit (planAssignments (Workers.capabilities db)
      (Generations.queued candidateFetchLimit db) (NativeExclusions.excluded db) (passSettings db) now
      (· ∈ onlineWorkers)), db) := by
  unfold trySchedule
  rw [if_neg (by simpa using hworkers)]
  by_cases hempty : Generations.queued candidateFetchLimit db = []
  · rw [hempty, planAssignments_nil]
    simp [Workers.poolCapabilities, tenantSettings, Generations.queuedCandidates, hempty]
  · simp [Workers.poolCapabilities, tenantSettings, Generations.queuedCandidates, hempty,
      passSettings]

/-- A pass plans something for a ready Pool of an online Worker with a free Slot exactly where
    one of the Generations that it considers can run on the Pool and is not excluded from it. -/
theorem pass_plans_iff {onlineWorkers : List Uuid} (now : Time) {p : Uuid} {pool : DevicePoolRow}
    (hp : fetch db (devicePool p) = some pool) (hready : pool.ready) (hfree : 0 < pool.freeSlots)
    (honline : pool.workerId ∈ onlineWorkers) :
    ∃ plan, (trySchedule onlineWorkers now).run db = .ok (.commit plan, db) ∧
      ((∃ a ∈ plan, a.poolId = p) ↔
        ∃ g ∈ (Generations.oldestQueued candidateFetchLimit db).map Prod.fst,
          CanRun db p g ∧ p ∉ NativeExclusions.excluded db g) := by
  refine ⟨_, trySchedule_run (List.ne_nil_of_mem honline) now db,
    (planAssignments_for_pool hp hready).trans ?_⟩
  constructor
  · rintro ⟨hlive, hplan⟩
    rw [planPool_ne_nil_iff hfree.ne' (decide_eq_true honline)] at hplan
    exact (exists_queued_iff hp hlive).1 hplan
  · rintro ⟨g, hg, hcan, hnot⟩
    have hlive : Workers.unrevoked db pool := by
      obtain ⟨pool', -, -, hp', hlive, -⟩ := hcan
      obtain rfl : pool' = pool := Option.some_inj.1 (hp'.symm.trans hp)
      exact hlive
    refine ⟨hlive, ?_⟩
    rw [planPool_ne_nil_iff hfree.ne' (decide_eq_true honline)]
    exact (exists_queued_iff hp hlive).2 ⟨g, hg, hcan, hnot⟩

end Passes

/-- The request of the installation is planned for the first Pool. -/
theorem pass_plans_iff_request :
    ∃ plan, (@trySchedule Sample.manifestHash [11] 0).run (Sample.after []) =
    .ok (.commit plan, Sample.after []) ∧ ∃ a ∈ plan, a.poolId = 21 := by
  let _ := Sample.manifestHash
  have hpool : (fetch (Sample.after []) (devicePool 21)).any fun pool =>
      pool.ready && 0 < pool.freeSlots && pool.workerId ∈ [11] := by decide +kernel
  have hcan : 31 ∈ (Generations.oldestQueued candidateFetchLimit (Sample.after [])).map Prod.fst ∧
      CanRun (Sample.after []) 21 31 ∧ 21 ∉ NativeExclusions.excluded (Sample.after []) 31 := by
        decide +kernel
  obtain ⟨pool, hp, hpool⟩ := (Option.any_eq_true _ _).1 hpool
  simp only [Bool.and_eq_true, decide_eq_true_eq] at hpool
  obtain ⟨⟨hready, hfree⟩, honline⟩ := hpool
  obtain ⟨plan, hrun, hplan⟩ := pass_plans_iff 0 hp hready hfree honline
  exact ⟨plan, hrun, hplan.2 ⟨31, hcan⟩⟩

/-! ## A crowded queue -/

namespace Sample
/-- A request for an image with these LoRAs. -/
def imageRequest (loras : List LoraSelection) : AdmissionRequest := { request with
  parameters := .image {
    prompt := "a fox"
    negativePrompt := ""
    width := 1024
    height := 1024
    steps := none
    cfgScale := none
    references := []
    loras
    sigmas := none } }

/-- LoRAs that no Pool has. -/
def unknownLoras : List LoraSelection := [⟨1, 0x3F800000#32⟩]

/-- The installation before anything is requested. -/
def installed : Db := Machine.run (@Op.apply manifestHash) (.initial 1) (setUp.take 5)

theorem workerLocal_offered : ArtifactPlacement.workerLocal ≠ .remoteLocal := by decide

theorem queued_accepted : GenerationState.queued = .succeeded → (none : Option Uuid) ≠ none :=
  fun h => absurd h GenerationRow.queued_unsettled.1

theorem queued_failed : GenerationState.queued = .failed → (none : Option FailureKind) ≠ none :=
  fun h => absurd h GenerationRow.queued_unsettled.2

/-- The row that the request becomes. -/
def waiting (loras : List LoraSelection) (now : Time) : GenerationRow where
  state := .queued
  aliasName := "qwen"
  versionSha256 := version
  parameters := (imageRequest loras).parameters
  priority := 5
  seed := none
  executionTimeout := 7200000000
  outputPlacement := .workerLocal
  createdAt := now
  execution_timeout_check := by decide
  output_placement_check := workerLocal_offered
  accepted_check := queued_accepted
  failed_check := queued_failed

/-- A database that differs from the installation by its Generations. -/
structure Offers (db : Db) : Prop where
  tenantId : db.tenantId = installed.tenantId
  others : ∀ k, (∀ g, k ≠ generation g) → fetch db k = fetch installed k

/-- Whether the model takes the request. -/
def accepts (loras : List LoraSelection) (m : ModelVersionRow) : Bool :=
  m.executionTimeout = none && m.manifest.modality = .image &&
    (validateParameters (imageRequest loras) m.manifest).isOk

/-- What is installed there: the tenant, the alias and its version, which accepts these LoRAs. -/
theorem fetch_installed :
    ((fetch installed tenant).any fun r => r.settings = .default && r.deletedAt.isNone) ∧
    ((fetch installed (modelAlias "qwen")).any fun v => (v : ContentHash) = version) ∧
    (fetch installed (modelVersion version)).any (accepts []) ∧
    (fetch installed (modelVersion version)).any (accepts unknownLoras) ∧
    installed.generations.entries.isEmpty := by
  decide +kernel

/-- Whether the first Pool could run the row. -/
def runs (row : GenerationRow) : Bool :=
  (fetch installed (devicePool 21)).any fun pool => Workers.unrevoked installed pool &&
    (@Generations.requirementFromParts manifestHash installed row).any fun requirement =>
      ((Workers.buildSlotCapability installed 21 pool).admits requirement).isOk

theorem offer_installed :
    ((fetch installed (devicePool 21)).any fun pool => pool.ready && 0 < pool.freeSlots) ∧
    installed.attempts.entries.isEmpty ∧ installed.generationPoolRejections.entries.isEmpty ∧
    runs (waiting [] 0) ∧ runs (waiting unknownLoras 0) = false := by
  decide +kernel

/-- The age of a row is nothing to a Pool. -/
theorem runs_waiting (loras : List LoraSelection) (now : Time) :
    runs (waiting loras now) = runs (waiting loras 0) := rfl

/-- Which Pool can run a Generation is known from what is installed. -/
theorem Offers.canRun_iff {db : Db} (h : Offers db) {g : Uuid} {row : GenerationRow}
    (hrow : fetch db (generation g) = some row) : @CanRun manifestHash db 21 g ↔ runs row := by
  let _ := manifestHash
  have hversions (v : ContentHash) : fetch db (modelVersion v) = fetch installed (modelVersion v) :=
    h.others _ fun g hg => by cases hg
  have hworkers (w : Uuid) : fetch db (worker w) = fetch installed (worker w) :=
    h.others _ fun g hg => by cases hg
  have hpool : fetch db (devicePool 21) = fetch installed (devicePool 21) :=
    h.others _ fun g hg => by cases hg
  have hreq : Generations.requirementFromParts db row =
      Generations.requirementFromParts installed row := by
    rw [Generations.requirementFromParts, Generations.requirementFromParts, hversions, h.tenantId]
  have hoffer (pool : DevicePoolRow) :
      Workers.buildSlotCapability db 21 pool = Workers.buildSlotCapability installed 21 pool := by
    simp only [Workers.buildSlotCapability, hversions, h.tenantId]
  have hlive (pool : DevicePoolRow) : Workers.unrevoked db pool =
      Workers.unrevoked installed pool := by
    rw [Workers.unrevoked, Workers.unrevoked, hworkers]
  simp only [CanRun, runs, hpool, hlive, hrow, Option.some_inj, Option.any_eq_true, Bool.and_eq_true]
  constructor
  · rintro ⟨pool, _, requirement, hp, hlive, rfl, hr, hadmits⟩
    exact ⟨pool, hp, hlive, requirement, hreq.symm.trans hr, by rwa [hoffer] at hadmits⟩
  · rintro ⟨pool, hp, hlive, requirement, hr, hadmits⟩
    exact ⟨pool, row, requirement, hp, hlive, rfl, hreq.trans hr, by rwa [hoffer]⟩

/-- Without Attempts and rejections nobody is excluded. -/
theorem not_excluded_of_empty {db db' : Db} (hattempts : db.attempts.entries.isEmpty)
    (hrejections : db.generationPoolRejections.entries.isEmpty)
    (hsame : ∀ k, (∀ g, k ≠ generation g) → fetch db' k = fetch db k) (g p : Uuid) :
    p ∉ NativeExclusions.excluded db' g := by
  rw [NativeExclusions.mem_excluded_iff]
  rintro (⟨a, r, hr, -⟩ | hrejected)
  · rw [hsame _ fun g hg => by cases hg] at hr
    change db.attempts.lookup a = some r at hr
    rw [show db.attempts = ∅ from AList.ext (List.isEmpty_iff.1 hattempts)] at hr
    cases hr
  · rw [hsame _ fun g hg => by cases hg] at hrejected
    change (db.generationPoolRejections.lookup (g, p)).isSome at hrejected
    rw [show db.generationPoolRejections = ∅ from AList.ext (List.isEmpty_iff.1 hrejections)]
      at hrejected
    cases hrejected

/-- What a submitted request leaves, where there is room in the queue (`submit_apply`): first what
    the insertion writes, then what the admission does. -/
theorem insertion_waiting {db : Db} {id : Uuid} (hid : fetch db (generation id) = none)
    {model : ModelVersionRow} (htimeout : model.executionTimeout = none)
    (hmodality : model.manifest.modality = .image)
    {loras : List LoraSelection} (now : Time) :
    Generations.insertion (newGeneration (imageRequest loras) id version model .default now) db =
      .ok ((), [⟨generation id, some (waiting loras now)⟩]) := by
  have hexecution :
      (newGeneration (imageRequest loras) id version model .default now).executionTimeout =
      7200000000000 := by
    simp only [newGeneration, htimeout, hmodality]
    rfl
  have hnew : (newGeneration (imageRequest loras) id version model .default now).id = id := rfl
  have hfree : (fetch db (generation (newGeneration (imageRequest loras) id version model .default
      now).id)).isSome = false := by
    rw [hnew, hid]
    rfl
  unfold Generations.insertion
  simp only [hexecution, hfree]
  rfl

/-- A Generation that is admitted waits in the queue. -/
theorem admitNew_waiting {db : Db} {id : Uuid} (hid : fetch db (generation id) = none)
    {model : ModelVersionRow} (htimeout : model.executionTimeout = none)
    (hmodality : model.manifest.modality = .image)
    {loras : List LoraSelection} (now : Time) :
    (admitNew (imageRequest loras)
      (newGeneration (imageRequest loras) id version model .default now) now).run db =
      .ok (.commit (.ok id), store db (generation id) (some (waiting loras now))) := by
  have htexts : storable "qwen" && (storable "a fox" && storable "") := by decide
  have hstorable : storable
      (newGeneration (imageRequest loras) id version model .default now).aliasName &&
      Generations.storableParameters
        (newGeneration (imageRequest loras) id version model .default now).parameters :=
    htexts
  rw [admitNew, Generations.insert, Prog.bind_eq, Prog.exec_bind, Prog.run_step_require,
    if_pos hstorable, Prog.run_step_write, insertion_waiting hid htimeout hmodality now]
  rfl

/-- A request is admitted where the queue has room. -/
theorem submit_apply {db : Db} (hdb : Offers db)
    (hcount : db.generations.count (fun _ r => !r.state.isTerminal) < 1000)
    {loras : List LoraSelection}
    (hloras : (fetch installed (modelVersion version)).any (accepts loras)) {id : Uuid}
    (hid : fetch db (generation id) = none) (now : Time) :
    @Op.apply manifestHash (.submit (imageRequest loras) id false (fun _ => false) now now) db =
      store db (generation id) (some (waiting loras now)) := by
  let _ := manifestHash
  obtain ⟨hsettings, halias, -, -, -⟩ := fetch_installed
  rw [← hdb.others _ (fun g hg => by cases hg)] at hsettings halias hloras
  obtain ⟨model, hmodel, haccepts⟩ := (Option.any_eq_true _ _).1 hloras
  simp only [accepts, Bool.and_eq_true, decide_eq_true_eq] at haccepts
  obtain ⟨⟨htimeout, hmodality⟩, hvalid⟩ := haccepts
  obtain ⟨t, ht, htenant⟩ := (Option.any_eq_true _ _).1 hsettings
  simp only [Bool.and_eq_true, decide_eq_true_eq] at htenant
  obtain ⟨v, hv, hversion⟩ := (Option.any_eq_true _ _).1 halias
  obtain rfl : v = version := by simpa using hversion
  -- the parameters are accepted
  obtain ⟨u, hparams⟩ : ∃ u, validateParameters (imageRequest loras) model.manifest = .ok u := by
    cases h : validateParameters (imageRequest loras) model.manifest with
    | ok u => exact ⟨u, rfl⟩
    | error e =>
      rw [h] at hvalid
      cases hvalid
  -- the queue is not full
  have hroom : queueCapacityExceeded (db.generations.count fun _ r => !r.state.isTerminal) 1000 =
      false := by
    simpa [queueCapacityExceeded] using hcount
  have hrun : (admitGeneration (imageRequest loras) id false (fun _ => false) now now).run db =
      .ok (.commit (.ok id), store db (generation id) (some (waiting loras now))) := by
    have hno : (imageRequest loras).outputPlacement ≠ .remoteLocal := by simp [imageRequest, request]
    have hlocal : ((imageRequest loras).outputPlacement = .objectStore && !false) = false := by
      simp [imageRequest, request]
    have hkey : (imageRequest loras).idempotencyKey = none := rfl
    have hname : storable "qwen" := by decide
    -- the checks, one by one
    rw [admitGeneration, if_neg hno]
    simp only [hlocal, hkey, Bool.false_eq_true, if_false]
    simp only [admitFresh, tenantSettings, Prog.bind_eq, Prog.exec_bind, Prog.run_step_read, ht,
      Option.filter_some, htenant.2, if_true, Option.map_some, Generations.countNonterminal,
        htenant.1]
    have hfull : ¬ queueCapacityExceeded (db.generations.count fun _ r => !r.state.isTerminal)
        TenantSettings.default.maxQueuedGenerations = true := by
      rw [show TenantSettings.default.maxQueuedGenerations = 1000 from rfl, hroom]
      exact Bool.false_ne_true
    rw [if_neg hfull, resolveModelAlias, Prog.exec_bind, Prog.run_step_require,
      if_pos (show storable (imageRequest loras).aliasName from hname), Prog.run_step_read]
    have hresolved : (do
        let version ← fetch db (modelAlias (imageRequest loras).aliasName)
        let row ← fetch db (modelVersion version)
        pure (version, row) : Option (ContentHash × ModelVersionRow)) = some (version, model) := by
      rw [show (imageRequest loras).aliasName = "qwen" from rfl, hv]
      simp [hmodel]
    rw [hresolved]
    simp only [hparams]
    exact admitNew_waiting hid htimeout hmodality now
  rw [show @Op.apply manifestHash
    (.submit (imageRequest loras) id false (fun _ => false) now now) db =
    (admitGeneration (imageRequest loras) id false (fun _ => false) now now).commit db from rfl,
      Prog.commit, hrun]

/-- The installation with so many requests that no Pool can run. -/
def crowded : ℕ → Db
  | 0 => installed
  | n + 1 =>
    @Op.apply manifestHash
      (.submit (imageRequest unknownLoras) (100 + n) false (fun _ => false) n n) (crowded n)

/-- What so many requests with these LoRAs leave. -/
structure Crowd (loras : List LoraSelection) (n : ℕ) (db : Db) : Prop where
  offers : Offers db
  generations : ∀ g : ℕ, fetch db (generation g) =
    if 100 ≤ g ∧ g < 100 + n then some (waiting loras (g - 100 : ℕ)) else none
  count : db.generations.count (fun _ r => !r.state.isTerminal) = n

/-- A Generation that is written does not change what is offered. -/
theorem Offers.store {db : Db} (h : Offers db) (g : Uuid) (r : GenerationRow) :
    Offers (store db (generation g) (some r)) where
  tenantId := h.tenantId
  others k hk := by
    rw [Db.fetch_store_ne db _ (hk g)]
    exact h.others k hk

/-- At first nobody is there. -/
theorem crowd_of_empty {db : Db} (loras : List LoraSelection) (hdb : Offers db)
    (hempty : db.generations.entries.isEmpty) : Crowd loras 0 db := by
  have hentries : db.generations = ∅ := AList.ext (List.isEmpty_iff.1 hempty)
  refine ⟨hdb, fun g => ?_, ?_⟩
  · rw [if_neg (by omega)]
    change db.generations.lookup g = none
    rw [hentries]
    rfl
  · rw [hentries]
    rfl

theorem crowd_installed (loras : List LoraSelection) : Crowd loras 0 installed :=
  crowd_of_empty loras ⟨rfl, fun _ _ => rfl⟩ fetch_installed.2.2.2.2

/-- One more request. -/
theorem Crowd.submit {loras : List LoraSelection} {n : ℕ} {db : Db} (h : Crowd loras n db)
    (hn : n < 1000) (hloras : (fetch installed (modelVersion version)).any (accepts loras)) :
    Crowd loras (n + 1)
      (@Op.apply manifestHash (.submit (imageRequest loras) (100 + n) false (fun _ => false) n n)
        db) := by
  have hnew : fetch db (generation (100 + n)) = none := by
    rw [h.generations, if_neg (by omega)]
  rw [submit_apply h.offers (by rw [h.count]; exact hn) hloras hnew]
  refine ⟨h.offers.store _ _, fun g => ?_, ?_⟩
  · by_cases hg : g = 100 + n
    · subst hg
      rw [Database.fetch_store_self, if_pos (by omega)]
      simp
    · rw [Db.fetch_store_ne _ _ (by simpa using hg), h.generations]
      by_cases hold : 100 ≤ g ∧ g < 100 + n
      · rw [if_pos hold, if_pos (by omega)]
      · rw [if_neg hold, if_neg (by omega)]
  · rw [show (Sql.store db (generation (100 + n)) (some (waiting loras n))).generations =
      db.generations.insert (100 + n) (waiting loras n) from rfl]
    rw [Table.count_insert_of_none _ _ _ hnew, h.count]
    rfl

theorem crowd_crowded {n : ℕ} (hn : n ≤ 1000) : Crowd unknownLoras n (crowded n) := by
  obtain ⟨-, -, -, hloras, -⟩ := fetch_installed
  induction n with
  | zero => exact crowd_installed _
  | succ n ih => exact (ih (by omega)).submit (by omega) hloras

/-- The installation with five hundred requests that no Pool can run, and then one that can. -/
def crowdedOut : Db :=
  @Op.apply manifestHash (.submit (imageRequest []) 31 false (fun _ => false) 1000 1000) (crowded 500)

theorem reaches_crowded (n : ℕ) : @Reaches manifestHash (crowded n) := by
  induction n with
  | zero => exact @reachesBy_run manifestHash _ 1 _ (Machine.allowed_of_forall
    (fun _ _ => trivial) _ _)
  | succ n ih => exact .step ih ⟨_, trivial, rfl⟩

end Sample

/-- Five hundred older Generations that no Pool can run are all that a pass considers, and it
    plans nothing for the idle Pool that could run the next one. -/
theorem pass_leaves_idle : @Reaches Sample.manifestHash Sample.crowdedOut ∧
    ∃ pool row, fetch Sample.crowdedOut (devicePool 21) = some pool ∧ pool.ready ∧
      0 < pool.freeSlots ∧
      fetch Sample.crowdedOut (generation 31) = some row ∧ row.state = .queued ∧
      @CanRun Sample.manifestHash Sample.crowdedOut 21 31 ∧
      21 ∉ NativeExclusions.excluded Sample.crowdedOut 31 ∧
      ∃ plan, (@trySchedule Sample.manifestHash [pool.workerId] 1000).run Sample.crowdedOut =
        .ok (.commit plan, Sample.crowdedOut) ∧ ¬ ∃ a ∈ plan, a.poolId = 21 := by
  let _ := Sample.manifestHash
  have hcrowd := Sample.crowd_crowded (n := 500) (by decide)
  have hnew : fetch (Sample.crowded 500) (generation 31) = none := by
    rw [hcrowd.generations, if_neg (by decide)]
  have happly : Sample.crowdedOut =
      store (Sample.crowded 500) (generation 31) (some (Sample.waiting [] 1000)) :=
    Sample.submit_apply hcrowd.offers
      (by rw [hcrowd.count]; decide) Sample.fetch_installed.2.2.1 hnew 1000
  refine ⟨.step (Sample.reaches_crowded 500) ⟨_, trivial, rfl⟩, ?_⟩
  rw [happly]
  clear happly
  generalize Sample.crowded 500 = db at hcrowd hnew ⊢
  have hoffers := hcrowd.offers.store 31 (Sample.waiting [] 1000)
  have hrow : fetch (store db (generation 31) (some (Sample.waiting [] 1000))) (generation 31) =
      some (Sample.waiting [] 1000) := Database.fetch_store_self ..
  have hwaiting {g : ℕ} (hg : g ≠ 31) :
      fetch (store db (generation 31) (some (Sample.waiting [] 1000))) (generation g) =
      if 100 ≤ g ∧ g < 600 then some (Sample.waiting Sample.unknownLoras (g - 100 : ℕ))
          else none := by
    rw [Db.fetch_store_ne _ _ (by simpa using hg), hcrowd.generations]
  generalize store db (generation 31) (some (Sample.waiting [] 1000)) = db' at hoffers hrow hwaiting ⊢
  obtain ⟨hpool, hattempts, hrejections, hruns, hblocked⟩ := Sample.offer_installed
  rw [← hoffers.others _ fun g hg => by cases hg] at hpool
  obtain ⟨pool, hp, hready⟩ := (Option.any_eq_true _ _).1 hpool
  obtain ⟨hready, hfree⟩ := Bool.and_eq_true_iff.1 hready
  have hfree : 0 < pool.freeSlots := of_decide_eq_true hfree
  obtain ⟨plan, hrun, hplan⟩ :=
    pass_plans_iff 1000 hp hready hfree (List.mem_singleton_self pool.workerId)
  refine ⟨pool, _, hp, hready, hfree, hrow, rfl, (hoffers.canRun_iff hrow).2 hruns,
    Sample.not_excluded_of_empty hattempts hrejections hoffers.others 31 21, plan, hrun, ?_⟩
  rw [hplan]
  rintro ⟨g, hg, hcan, -⟩
  by_cases hlast : g = 31
  · subst hlast
    have holder : ∀ g ∈ (List.range 500).map (100 + ·), ∃ r, fetch db' (generation g) = some r ∧
        r.state = .queued ∧ r.createdAt < (Sample.waiting [] 1000).createdAt := by
      intro g hg
      obtain ⟨i, hi, rfl⟩ := List.mem_map.1 hg
      rw [List.mem_range] at hi
      refine ⟨_, (hwaiting (by omega)).trans (if_pos (by omega)), rfl, ?_⟩
      change ((100 + i - 100 : ℕ) : ℤ) < 1000
      omega
    have hnodup : ((List.range 500).map (100 + ·)).Nodup :=
      List.nodup_range.map fun _ _ h => Nat.add_left_cancel h
    exact Generations.not_mem_oldestQueued hrow hnodup (by simp [candidateFetchLimit]) holder hg
  · have hcan' := hcan
    obtain ⟨-, row, -, -, -, hrow', -⟩ := hcan'
    have hruns' := (hoffers.canRun_iff hrow').1 hcan
    rw [hwaiting hlast] at hrow'
    split at hrow'
    · cases hrow'
      rw [Sample.runs_waiting, hblocked] at hruns'
      cases hruns'
    · cases hrow'

end Gpq
