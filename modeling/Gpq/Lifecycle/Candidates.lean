import Gpq.Lifecycle.Observation

/-!
# Giving up

A queued Generation expires, and one that ran out of memory fails before its Attempts are
used up, when no Slot could run it any more. Both decisions look at the Pools that are ready
(`Workers.capabilities`), so a Pool that is about to restart is not counted, and a Generation
is given up that the Pool could run a moment later (`given_up_too_early`).

  * `CanRun`: the Pool could run the Generation, be it ready or not;
  * `Op.weighs`: the Generations a transaction gives up unless a Pool remains;
  * `givesUp_iff`: it gives up those that no ready Pool can run;
  * `given_up_hopeless_iff`: only hopeless Generations are given up exactly where, whenever a
    Pool can run one of those weighed, a ready Pool can.
-/

namespace Gpq

open Sql DbKey

/-- Whether the Pool is of an unrevoked Worker. -/
def Workers.unrevoked (db : Db) (pool : DevicePoolRow) : Bool :=
  (fetch db (worker pool.workerId)).any fun w => w.revokedAt.isNone

/-- Whether the Pool is ready. -/
def Workers.isReady (db : Db) (p : Uuid) : Bool := (fetch db (devicePool p)).any DevicePoolRow.ready

section Defs

variable [ManifestHash]

/-- The Pool is registered for an unrevoked Worker, and its capability admits what the
    Generation requires. -/
def CanRun (db : Db) (p g : Uuid) : Prop :=
  ∃ (pool : DevicePoolRow) (row : GenerationRow) (requirement : Requirement),
    fetch db (devicePool p) = some pool ∧ Workers.unrevoked db pool ∧
    fetch db (generation g) = some row ∧
    Generations.requirementFromParts db row = some requirement ∧
    ((Workers.buildSlotCapability db p pool).admits requirement).isOk

instance (db : Db) (p g : Uuid) : Decidable (CanRun db p g) :=
  decidable_of_iff ((fetch db (devicePool p)).any fun pool => Workers.unrevoked db pool &&
      ((fetch db (generation g)).bind (Generations.requirementFromParts db)).any fun requirement =>
        ((Workers.buildSlotCapability db p pool).admits requirement).isOk) <| by
    simp only [CanRun, Option.any_eq_true, Bool.and_eq_true, Option.bind_eq_some_iff]
    constructor
    · rintro ⟨pool, hp, hlive, requirement, ⟨row, hrow, hreq⟩, hadmits⟩
      exact ⟨pool, row, requirement, hp, hlive, hrow, hreq, hadmits⟩
    · rintro ⟨pool, row, requirement, hp, hlive, hrow, hreq, hadmits⟩
      exact ⟨pool, hp, hlive, requirement, ⟨row, hrow, hreq⟩, hadmits⟩

/-- The queued Generations that the starvation sweep looks at. -/
def overdue (now : Time) (db : Db) : List Candidate :=
  let settings :=
    (((fetch db tenant).filter fun r => r.deletedAt.isNone).map TenantRow.settings).getD .default
  (Generations.queued sweepLimit db).filter fun candidate =>
    candidate.createdAt ≤ now - settings.maximumQueueAge * starvationExpiryMultiplier

/-- The transaction moves the Generation to expired for want of a Slot, or to failed for want
    of memory before its Attempts are used up. -/
def Op.GivesUp (op : Op) (db : Db) (g : Uuid) : Prop :=
  ∃ row row' : GenerationRow, fetch db (generation g) = some row ∧
    fetch (op.apply db) (generation g) = some row' ∧
    match op with
    | .expireStarvedQueue _ => row.state ≠ .expired ∧ row'.state = .expired
    | .attemptFailed _ _ failure _ => failure.kind = .outOfMemory ∧ row.attemptCount < maxAttempts ∧
        row.state ≠ .failed ∧ row'.state = .failed
    | _ => False

/-- The Generation of an Attempt that runs out of memory, with the Pools that are excluded for
    it from then on. -/
def exhausted (w : AuthenticatedWorker) (a : Uuid) (failure : Attempts.FailureDetails) (db : Db) :
    List (Uuid × List Uuid) :=
  match (fetch db (attempt a)).filter (Attempts.liveOf (some w.workerId)) with
  | none => []
  | some r =>
    if w.isCurrent db && storable failure.message && failure.kind = .outOfMemory &&
        (fetch db (generation r.generationId)).any fun row =>
          (row.state = .queued || row.state = .running) && row.attemptCount < maxAttempts then
      [(r.generationId, r.poolId :: NativeExclusions.excluded db r.generationId)]
    else []

/-- The Generations that the transaction gives up unless a Pool remains, each with the Pools
    that are excluded for it. -/
def Op.weighs (op : Op) (db : Db) : List (Uuid × List Uuid) :=
  match op with
  | .expireStarvedQueue now => (overdue now db).map fun candidate =>
      (candidate.generationId, NativeExclusions.excluded db candidate.generationId)
  | .attemptFailed w a failure _ => exhausted w a failure db
  | _ => []

/-- No Pool could run a Generation that the transaction gives up, be it ready or not. -/
def Op.OnlyHopeless (op : Op) (db : Db) : Prop :=
  ∀ g, op.GivesUp db g → ∀ p, p ∉ NativeExclusions.excluded (op.apply db) g → ¬ CanRun db p g

/-- Where a Pool could run a Generation that the transaction weighs, a ready one could. -/
def Op.CandidateReady (op : Op) (db : Db) : Prop :=
  ∀ g excluded, (g, excluded) ∈ op.weighs db → (∃ p, p ∉ excluded ∧ CanRun db p g) →
    ∃ p, p ∉ excluded ∧ CanRun db p g ∧ Workers.isReady db p

end Defs

/-- The Pool with no Slot claimed, which is all that a capability sees of it. -/
def DevicePoolRow.unclaimed (pool : DevicePoolRow) : DevicePoolRow :=
  { pool with claimedSlots := 0, claimed_within_total := Nat.zero_le _ }

/-- The capabilities and the Generations are the same. -/
structure SameOffers (db db' : Db) : Prop where
  tenantId : db'.tenantId = db.tenantId
  workers : ∀ w, fetch db' (worker w) = fetch db (worker w)
  modelVersions : ∀ v, fetch db' (modelVersion v) = fetch db (modelVersion v)
  generations : ∀ g, fetch db' (generation g) = fetch db (generation g)
  pools : ∀ p, (fetch db' (devicePool p)).map DevicePoolRow.unclaimed =
    (fetch db (devicePool p)).map DevicePoolRow.unclaimed

theorem SameOffers.symm {db db' : Db} (h : SameOffers db db') : SameOffers db' db :=
  ⟨h.tenantId.symm, fun w => (h.workers w).symm, fun v => (h.modelVersions v).symm,
    fun g => (h.generations g).symm, fun p => (h.pools p).symm⟩

section Pools

variable [ManifestHash] {db db' : Db} {g : Uuid} {row : GenerationRow} {requirement : Requirement}
  {excluded : List Uuid}

omit [ManifestHash] in
/-- What the query and its filter find is a ready Pool whose capability admits the requirement. -/
theorem hasUnrejectedCandidate_iff :
    hasUnrejectedCandidate ((Workers.capabilities db).map Prod.fst) requirement excluded ↔
      ∃ p pool, fetch db (devicePool p) = some pool ∧ pool.ready ∧ Workers.unrevoked db pool ∧
        p ∉ excluded ∧
        ((Workers.buildSlotCapability db p pool).admits requirement).isOk := by
  simp only [hasUnrejectedCandidate, anyCandidateRemains, Workers.capabilities, List.any_eq_true,
    List.mem_filter, List.mem_map, Bool.and_eq_true, decide_eq_true_eq]
  constructor
  · rintro ⟨_, ⟨⟨_, ⟨⟨p, pool⟩, ⟨hp, hready, hlive⟩, rfl⟩, rfl⟩, hex⟩, hadmits⟩
    exact ⟨p, pool, Table.mem_rows.1 hp, hready, hlive, hex, hadmits⟩
  · rintro ⟨p, pool, hp, hready, hlive, hex, hadmits⟩
    exact ⟨_, ⟨⟨_, ⟨(p, pool), ⟨Table.mem_rows.2 hp, hready, hlive⟩, rfl⟩, rfl⟩, hex⟩, hadmits⟩

/-- Such a Pool can run the Generation. -/
theorem candidateRemains_iff (hrow : fetch db (generation g) = some row)
    (hreq : Generations.requirementFromParts db row = some requirement) :
    hasUnrejectedCandidate ((Workers.capabilities db).map Prod.fst) requirement excluded ↔
      ∃ p, p ∉ excluded ∧ CanRun db p g ∧ Workers.isReady db p := by
  rw [hasUnrejectedCandidate_iff]
  constructor
  · rintro ⟨p, pool, hp, hready, hlive, hex, hadmits⟩
    refine ⟨p, hex, ⟨pool, row, requirement, hp, hlive, hrow, hreq, hadmits⟩, ?_⟩
    rw [Workers.isReady, hp]
    exact hready
  · rintro ⟨p, hex, ⟨pool, row', requirement', hp, hlive, hrow', hreq', hadmits⟩, hready⟩
    obtain rfl : row' = row := Option.some_inj.1 (hrow'.symm.trans hrow)
    obtain rfl : requirement' = requirement := Option.some_inj.1 (hreq'.symm.trans hreq)
    rw [Workers.isReady, hp] at hready
    exact ⟨p, pool, hp, hready, hlive, hex, hadmits⟩

/-- What the retry policy asks is whether a ready Pool can run the Generation. -/
theorem eligible_iff (excluded : List Uuid) (hrow : fetch db (generation g) = some row) :
    (((fetch db (generation g)).bind (Generations.requirementFromParts db)).any fun req =>
      hasUnrejectedCandidate ((Workers.capabilities db).map Prod.fst) req excluded) ↔
      ∃ p, p ∉ excluded ∧ CanRun db p g ∧ Workers.isReady db p := by
  rw [hrow, Option.bind_some]
  cases hreq : Generations.requirementFromParts db row with
  | some requirement => exact candidateRemains_iff hrow hreq
  | none =>
    refine iff_of_false nofun ?_
    rintro ⟨p, -, ⟨-, row', requirement, -, -, hrow', hreq', -⟩, -⟩
    obtain rfl : row' = row := Option.some_inj.1 (hrow'.symm.trans hrow)
    cases hreq.symm.trans hreq'

omit [ManifestHash] in
/-- What a settled Attempt leaves is not seen by the capabilities. -/
theorem SameOffers.settled (db : Db) (a p₀ : Uuid) (r : AttemptRow) :
    SameOffers db (releasedSlot (store db (attempt a) (some r)) p₀) := by
  have hfetch : ∀ k : DbKey, k ≠ devicePool p₀ → k ≠ attempt a →
      fetch (releasedSlot (store db (attempt a) (some r)) p₀) k = fetch db k := fun k hp ha => by
    rw [fetch_releasedSlot _ hp, Db.fetch_store_ne _ _ ha]
  refine ⟨?_, fun w => hfetch (worker w) (by simp) (by simp),
    fun v => hfetch (modelVersion v) (by simp) (by simp),
    fun g => hfetch (generation g) (by simp) (by simp), fun p => ?_⟩
  · rw [releasedSlot]
    split <;> rfl
  · by_cases hp : p = p₀
    · subst hp
      have hpool : fetch (store db (attempt a) (some r)) (devicePool p) = fetch db (devicePool p) :=
        Db.fetch_store_ne _ _ (by simp)
      rw [releasedSlot, hpool]
      split
      · rename_i pool hpool
        rw [hpool, Database.fetch_store_self]
        rfl
      · rw [hpool]
    · rw [hfetch (devicePool p) (by simpa using hp) (by simp)]

/-- Who can run a Generation depends on what is offered only. -/
theorem SameOffers.canRun (h : SameOffers db db') {p : Uuid} (hrun : CanRun db p g) :
    CanRun db' p g := by
  obtain ⟨pool, row, requirement, hp, hlive, hrow, hreq, hadmits⟩ := hrun
  have hpool := h.pools p
  rw [hp, Option.map_some] at hpool
  obtain ⟨pool', hp', heq⟩ := Option.map_eq_some_iff.1 hpool
  have hworker : pool'.workerId = pool.workerId := (congrArg DevicePoolRow.workerId heq :)
  -- what a Pool has claimed has no part in its capability
  have hcapability : Workers.buildSlotCapability db' p pool' =
      Workers.buildSlotCapability db p pool := by
    have hunclaimed : ∀ (db : Db) (pool : DevicePoolRow),
        Workers.buildSlotCapability db p pool.unclaimed = Workers.buildSlotCapability db p pool :=
      fun _ _ => rfl
    rw [← hunclaimed db', heq, ← hunclaimed db]
    simp only [Workers.buildSlotCapability, h.tenantId, h.modelVersions]
  have hversion := h.modelVersions row.versionSha256
  refine ⟨pool', row, requirement, hp', ?_, (h.generations g).trans hrow, ?_, hcapability ▸ hadmits⟩
  · rw [Workers.unrevoked, hworker, h.workers]
    exact hlive
  · rw [Generations.requirementFromParts, hversion, h.tenantId]
    exact hreq

omit [ManifestHash] in
/-- So does who is ready. -/
theorem SameOffers.isReady (h : SameOffers db db') (p : Uuid) :
    Workers.isReady db' p = Workers.isReady db p := by
  have hready : ∀ db : Db, Workers.isReady db p =
      ((fetch db (devicePool p)).map DevicePoolRow.unclaimed).any DevicePoolRow.ready := fun db => by
    rw [Option.any_map]
    rfl
  rw [hready, hready, h.pools]

end Pools

/-! ## The starvation sweep -/

section Sweep

variable [ManifestHash] {db : Db} {now : Time}

/-- Whether no ready Pool remains for the candidate. -/
def starved (db : Db) (candidate : Candidate) : Bool :=
  !hasUnrejectedCandidate ((Workers.capabilities db).map Prod.fst) candidate.requirement
    (NativeExclusions.excluded db candidate.generationId)

/-- What the sweep that began in `db` has done when some candidates are left. -/
structure Sweeping (now : Time) (db : Db) (rest : List Candidate) (db' : Db) : Prop where
  overdue : ∀ c ∈ rest, c ∈ overdue now db
  generations : ∀ g,
    (fetch db' (generation g) = fetch db (generation g) ∧
      ∀ c ∈ Gpq.overdue now db, starved db c → c.generationId = g → c ∈ rest) ∨
    ((∃ c ∈ Gpq.overdue now db, starved db c ∧ c.generationId = g) ∧
      ∃ row' : GenerationRow, fetch db' (generation g) = some row' ∧ row'.state = .expired)
  others : ∀ k, (∀ g, k ≠ generation g) → (∀ i, k ≠ artifact i) → fetch db' k = fetch db k

theorem Sweeping.start (now : Time) (db : Db) : Sweeping now db (Gpq.overdue now db) db :=
  ⟨fun _ => id, fun _ => .inl ⟨rfl, fun _ hc _ _ => hc⟩, fun _ _ _ => rfl⟩

/-- One candidate: its Generation expires where it is starved, and nothing else happens to a
    Generation. -/
theorem Sweeping.next {c : Candidate} {rest : List Candidate} {db₁ db₂ : Db}
    (h : Sweeping now db (c :: rest) db₁)
    (hstarved : starved db c → ∃ row' : GenerationRow,
      fetch db₂ (generation c.generationId) = some row' ∧ row'.state = .expired)
    (hsame : ∀ g, (g = c.generationId → ¬ starved db c) →
      fetch db₂ (generation g) = fetch db₁ (generation g))
    (hothers : ∀ k, (∀ g, k ≠ generation g) → (∀ i, k ≠ artifact i) → fetch db₂ k = fetch db₁ k) :
    Sweeping now db rest db₂ := by
  refine ⟨fun c' hc' => h.overdue c' (List.mem_cons_of_mem _ hc'), fun g => ?_,
    fun k hg ha => (hothers k hg ha).trans (h.others k hg ha)⟩
  by_cases hg : g = c.generationId ∧ starved db c
  · obtain ⟨rfl, hs⟩ := hg
    exact .inr ⟨⟨c, h.overdue c List.mem_cons_self, hs, rfl⟩, hstarved hs⟩
  · have hg : g = c.generationId → ¬ starved db c := fun hgc hs => hg ⟨hgc, hs⟩
    rw [hsame g hg]
    refine (h.generations g).imp (fun ⟨hrow, hrest⟩ => ⟨hrow, fun c' hc' hs hcg => ?_⟩) id
    obtain rfl | hmem := List.mem_cons.1 (hrest c' hc' hs hcg)
    · exact absurd hs (hg hcg.symm)
    · exact hmem

omit [ManifestHash] in
/-- The deletion of inputs leaves everything but Artifacts. -/
theorem deleteInputsForGeneration_yields (g : Uuid) :
    (Artifacts.deleteInputsForGeneration g).Yields
      (fun _ db' => ∀ k, (∀ i, k ≠ artifact i) → fetch db' k = fetch db k) db := by
  refine Prog.yields_write rfl (Prog.yields_done fun k hk => ?_)
  refine fetch_applyAll_of_notMem db fun v hv => ?_
  obtain ⟨e, -, rfl⟩ := List.mem_map.1 hv
  exact (hk e.1).symm

/-- What the sweep does to one candidate. -/
theorem Sweeping.yields {c : Candidate} {rest : List Candidate} {db₁ : Db}
    (h : Sweeping now db (c :: rest) db₁) :
    (do if starved db c then
          if ← Generations.expire c.generationId now then
            Artifacts.deleteInputsForGeneration c.generationId : Body Unit).Yields
      (fun _ db' => Sweeping now db rest db') db₁ := by
  split
  case isFalse hs =>
    exact Prog.yields_done (h.next (fun hs' => absurd hs' hs) (fun _ _ => rfl) fun _ _ _ => rfl)
  rename_i hs
  have hskip : ∀ g, (g = c.generationId → ¬ starved db c) →
      generation g ≠ generation c.generationId := by
    intro g hg heq
    exact hg (by simpa using heq) hs
  obtain ⟨hrow, -⟩ | ⟨-, row', hrow', hexpired⟩ := h.generations c.generationId
  · obtain ⟨row, hq, hqueued, -⟩ := Generations.exists_of_mem_queued
      (List.mem_filter.1 (h.overdue c List.mem_cons_self)).1
    refine Prog.yields_update (hrow.trans hq) (decide_eq_true hqueued) ?_
    refine deleteInputsForGeneration_yields c.generationId |>.mono fun _ db₂ hdb₂ => ?_
    refine h.next (fun _ => ⟨_, (hdb₂ (generation c.generationId) nofun).trans
      (Database.fetch_store_self ..), rfl⟩) (fun g hg => ?_) fun k hg ha => ?_
    · exact (hdb₂ (generation g) nofun).trans (Db.fetch_store_ne _ _ (hskip g hg))
    · exact (hdb₂ k ha).trans (Db.fetch_store_ne _ _ (hg _))
  · refine Prog.yields_update_none ?_ (Prog.yields_done
      (h.next (fun _ => ⟨row', hrow', hexpired⟩) (fun _ _ => rfl) fun _ _ _ => rfl))
    rw [hrow']
    simp [hexpired]

/-- The sweep visits the overdue Generations one by one. -/
theorem sweep_applied (now : Time) (db : Db) :
    Sweeping now db [] ((Op.expireStarvedQueue now).apply db) := by
  have hsweep : (expireStarvedQueue now).run db =
      if (Generations.queued sweepLimit db).isEmpty then .ok (.rollback (), db)
      else (do
        let _ ← Prog.forEach (fun c : Candidate => do
          if starved db c then
            if ← Generations.expire c.generationId now then
              Artifacts.deleteInputsForGeneration c.generationId) (overdue now db)
        return .commit () : Body (Verdict Unit)).run db := by
    unfold expireStarvedQueue tenantSettings Generations.queuedCandidates Workers.poolCapabilities
    simp only [Prog.bind_eq, Prog.exec_bind, Prog.run_step_read]
    split <;> rfl
  -- an empty queue is not looked at further
  by_cases hnone : (Generations.queued sweepLimit db).isEmpty
  · have hover : overdue now db = [] := by simp [overdue, List.isEmpty_iff.1 hnone]
    rw [Op.apply, Prog.commit, hsweep, if_pos hnone]
    simpa [hover] using Sweeping.start now db
  · rw [if_neg hnone] at hsweep
    have hloop := Prog.yields_forEach (I := Sweeping now db) (fun _ _ _ h => h.yields)
      (Sweeping.start now db)
    rw [Op.apply, Prog.commit, hsweep]
    exact Prog.Yields.commit
      (Prog.yields_bind (hloop.mono fun _ db' h => Prog.yields_done ⟨⟨(), rfl⟩, h⟩))

end Sweep

/-! ## A report of exhausted memory -/

section Report

variable [ManifestHash] {db : Db} {w : AuthenticatedWorker} {a g : Uuid}
  {failure : Attempts.FailureDetails} {excluded : List Uuid}

omit [ManifestHash] in
/-- What a report of an exhausted memory weighs: the candidates of the Generation of a live
    Attempt that its Worker still has, apart from the Pool that it ran on and those that were
    excluded before. -/
theorem mem_exhausted_iff : (g, excluded) ∈ exhausted w a failure db ↔
    w.isCurrent db ∧ storable failure.message ∧ failure.kind = .outOfMemory ∧
    ∃ (r : AttemptRow) (row : GenerationRow), fetch db (attempt a) = some r ∧
      Attempts.liveOf (some w.workerId) r ∧ r.generationId = g ∧
      excluded = r.poolId :: NativeExclusions.excluded db g ∧ fetch db (generation g) = some row ∧
      (row.state = .queued ∨ row.state = .running) ∧ row.attemptCount < maxAttempts := by
  rw [exhausted]
  cases hlive : (fetch db (attempt a)).filter (Attempts.liveOf (some w.workerId)) with
  | none =>
    refine iff_of_false List.not_mem_nil ?_
    rintro ⟨-, -, -, r, -, hr, hl, -⟩
    simp [hr, hl] at hlive
  | some r =>
    obtain ⟨hr, hl⟩ := Option.filter_eq_some_iff.1 hlive
    simp only [Bool.and_eq_true, decide_eq_true_eq, Option.any_eq_true, Bool.or_eq_true]
    constructor
    · intro h
      split at h
      case isFalse => cases h
      rename_i hcond
      obtain ⟨⟨⟨hw, hmsg⟩, hkind⟩, row, hrow, hstate, hcount⟩ := hcond
      obtain ⟨rfl, rfl⟩ : g = r.generationId ∧
          excluded = r.poolId :: NativeExclusions.excluded db r.generationId := by simpa using h
      exact ⟨hw, hmsg, hkind, r, row, hr, hl, rfl, rfl, hrow, hstate, hcount⟩
    · rintro ⟨hw, hmsg, hkind, r', row, hr', -, rfl, rfl, hrow, hstate, hcount⟩
      obtain rfl : r' = r := Option.some_inj.1 (hr'.symm.trans hr)
      rw [if_pos ⟨⟨⟨hw, hmsg⟩, hkind⟩, row, hrow, hstate, hcount⟩]
      exact List.mem_singleton_self _

omit [ManifestHash] in
/-- The Pool that ran out of memory is excluded from now on. -/
theorem mem_excluded_settled {r r' : AttemptRow} {p : Uuid} {db' : Db}
    (hr : fetch db (attempt a) = some r) (hg : r.generationId = g)
    (hr' : r'.generationId = r.generationId ∧ r'.poolId = r.poolId ∧
      r'.failureKind = some .outOfMemory)
    (hattempts : ∀ b, fetch db' (attempt b) = fetch (store db (attempt a) (some r')) (attempt b))
    (hrejections : ∀ p, fetch db' (rejection g p) = fetch db (rejection g p)) :
    p ∈ NativeExclusions.excluded db' g ↔ p ∈ r.poolId :: NativeExclusions.excluded db g := by
  obtain ⟨hg', hp', hoom⟩ := hr'
  have hself : fetch db' (attempt a) = some r' := (hattempts a).trans (Database.fetch_store_self ..)
  have hother : ∀ b, b ≠ a → fetch db' (attempt b) = fetch db (attempt b) := fun b hb =>
    (hattempts b).trans (Db.fetch_store_ne _ _ (by simpa using hb))
  simp only [List.mem_cons, NativeExclusions.mem_excluded_iff, hrejections]
  constructor
  · rintro (⟨b, q, hq, hqg, hqp, hqk⟩ | hrej)
    · by_cases hb : b = a
      · subst hb
        obtain rfl : q = r' := Option.some_inj.1 (hq.symm.trans hself)
        exact .inl (hqp.symm.trans hp')
      · exact .inr (.inl ⟨b, q, (hother b hb).symm.trans hq, hqg, hqp, hqk⟩)
    · exact .inr (.inr hrej)
  · rintro (rfl | ⟨b, q, hq, hqg, hqp, hqk⟩ | hrej)
    · exact .inl ⟨a, r', hself, hg'.trans hg, hp', hoom⟩
    · by_cases hb : b = a
      · subst hb
        obtain rfl : q = r := Option.some_inj.1 (hq.symm.trans hr)
        exact .inl ⟨b, r', hself, hg'.trans hqg, hp'.trans hqp, hoom⟩
      · exact .inl ⟨b, q, (hother b hb).trans hq, hqg, hqp, hqk⟩
    · exact .inr hrej

omit [ManifestHash] in
/-- A live Attempt is settled, and its Slot released. -/
theorem finish_yields {workerId : Option Uuid} {target : AttemptState} {r : AttemptRow} {now : Time}
    (htarget : target.isTerminal) (hmsg : storable failure.message)
    (hr : fetch db (attempt a) = some r) (hl : Attempts.liveOf workerId r) :
    (Attempts.finish a workerId target (some failure) now).Yields (fun b db' => b = true ∧
      db' = releasedSlot (store db (attempt a) (some (r.settled target (some failure.kind)
        failure.message failure.workerRetryHint now))) r.poolId) db := by
  unfold Attempts.finish
  simp only [Prog.bind_eq, Prog.exec_bind, Prog.pure_eq, htarget, Bool.not_true, Bool.false_eq_true,
    if_false]
  refine Prog.yields_require hmsg (Prog.yields_updateReturning hr hl ?_)
  refine Prog.yields_bind ((releaseSlot_yields _).mono fun _ db' hdb' => ?_)
  exact Prog.yields_done ⟨rfl, hdb'⟩

omit [ManifestHash] in
/-- The Generation of the settled Attempt is queued again or fails, as the policy says. -/
theorem decided_yields {row : GenerationRow} {eligible : Bool} {remains : Prop} {now : Time}
    (hkind : failure.kind = .outOfMemory) (hmsg : storable failure.message)
    (hcount : row.attemptCount < maxAttempts) (hrow : fetch db (generation g) = some row)
    (hstate : row.state = .queued ∨ row.state = .running)
    (hexcluded : ∀ p, p ∈ NativeExclusions.excluded db g ↔ p ∈ excluded)
    (hremains : eligible ↔ remains) :
    ((match failure.kind.retryDecision row.attemptCount eligible with
      | .requeue => (Generations.requeue g).bind fun _ =>
        .done (some (g, failure.kind.retryDecision row.attemptCount eligible))
      | .fail => (Generations.fail g failure.kind failure.message now).bind fun _ =>
        .done (some (g, failure.kind.retryDecision row.attemptCount eligible)) :
        Body (Option (Uuid × RetryDecision)))).Yields (fun _ db' =>
      (∀ p, p ∈ NativeExclusions.excluded db' g ↔ p ∈ excluded) ∧
      ∃ row' : GenerationRow, fetch db' (generation g) = some row' ∧
        (row'.state = .failed ↔ ¬ remains)) db := by
  rw [hkind, FailureKind.retryDecision_outOfMemory _ hcount]
  -- only the Generation itself is written
  have hex : ∀ row' p, p ∈ NativeExclusions.excluded (store db (generation g) row') g ↔
      p ∈ excluded :=
    fun row' p => (NativeExclusions.mem_excluded_congr
      (fun b => Db.fetch_store_ne db (k := generation g) (j := attempt b) _ (by simp))
      (Db.fetch_store_ne db (k := generation g) (j := rejection g p) _ (by simp))).trans (hexcluded p)
  cases eligible with
  | true =>
    have hremains : remains := hremains.1 rfl
    rcases hstate with hq | hrun
    · refine Prog.yields_labelled (Prog.yields_update_none (by simp [hrow, hq]) ?_)
      exact Prog.yields_done ⟨hexcluded, row, hrow, by simp [hq, hremains]⟩
    · refine Prog.yields_labelled (Prog.yields_update hrow (by simp [hrun]) ?_)
      exact Prog.yields_done ⟨hex _, _, Database.fetch_store_self ..,
        by simp [hremains, GenerationRow.withState]⟩
  | false =>
    have hremains : ¬ remains := fun h => Bool.false_ne_true (hremains.2 h)
    refine Prog.yields_require hmsg
      (Prog.yields_update hrow (by rcases hstate with h | h <;> simp [h]) ?_)
    exact Prog.yields_done ⟨hex _, _, Database.fetch_store_self ..,
      by simp [hremains, GenerationRow.failedWith]⟩

/-- The report of an Attempt that runs out of memory. -/
theorem exhausted_yields (now : Time) (h : (g, excluded) ∈ exhausted w a failure db) :
    (settleAttemptFailure w a failure now).Yields (fun v db' => (∃ x, v = .commit x) ∧
      (∀ p, p ∈ NativeExclusions.excluded db' g ↔ p ∈ excluded) ∧
      ∃ row' : GenerationRow, fetch db' (generation g) = some row' ∧
        (row'.state = .failed ↔ ¬ ∃ p, p ∉ excluded ∧ CanRun db p g ∧ Workers.isReady db p)) db := by
  obtain ⟨hw, hmsg, hkind, r, row, hr, hl, rfl, rfl, hrow, hstate, hcount⟩ := mem_exhausted_iff.1 h
  refine authenticated_yields hw ?_
  unfold Attempts.recordFailureForWorker Attempts.finishAndDecide
  simp only [Prog.bind_eq, Prog.exec_bind, Prog.pure_eq, Prog.step_bind]
  refine Prog.yields_read ?_
  rw [hr, Option.filter_some, if_pos hl]
  refine Prog.yields_bind (Prog.yields_bind ((finish_yields rfl hmsg hr hl).mono ?_))
  rintro _ db₁ ⟨rfl, hdb₁⟩
  have hsettled : ∃ r' : AttemptRow, (r'.generationId = r.generationId ∧ r'.poolId = r.poolId ∧
      r'.failureKind = some .outOfMemory) ∧
      db₁ = releasedSlot (store db (attempt a) (some r')) r.poolId :=
    ⟨r.settled .failed (some failure.kind) failure.message failure.workerRetryHint now,
      ⟨rfl, rfl, congrArg some hkind⟩, hdb₁⟩
  obtain ⟨r', hr', rfl⟩ := hsettled
  simp only [Bool.not_true, Bool.false_eq_true, if_false]
  unfold Generations.getOne Generations.requirementOf NativeExclusions.excludedPools
    Workers.poolCapabilities
  simp only [Prog.exec_bind]
  have hrow₁ := ((SameOffers.settled db a r.poolId r').generations r.generationId).trans hrow
  refine Prog.yields_tryRead (b := row) (by rw [hrow₁]) ?_
  rw [if_neg (by rcases hstate with h | h <;> simp [h])]
  refine Prog.yields_read (Prog.yields_read (Prog.yields_read ?_))
  -- the policy's question, on the database where the Attempt is settled
  have hexcluded : ∀ p, p ∈ NativeExclusions.excluded
      (releasedSlot (store db (attempt a) (some r')) r.poolId) r.generationId ↔
        p ∈ r.poolId :: NativeExclusions.excluded db r.generationId := fun p =>
    mem_excluded_settled hr rfl hr' (fun b => fetch_releasedSlot_attempt ..) fun p => by
      rw [fetch_releasedSlot r.poolId (k := rejection r.generationId p) nofun,
        Db.fetch_store_ne db (k := attempt a) (j := rejection r.generationId p) _ nofun]
  have heligible := eligible_iff (NativeExclusions.excluded
    (releasedSlot (store db (attempt a) (some r')) r.poolId) r.generationId) hrow₁
  have hremain : (∃ p, p ∉ NativeExclusions.excluded
      (releasedSlot (store db (attempt a) (some r')) r.poolId) r.generationId ∧
      CanRun (releasedSlot (store db (attempt a) (some r')) r.poolId) p r.generationId ∧
      Workers.isReady (releasedSlot (store db (attempt a) (some r')) r.poolId) p) ↔
      ∃ p, p ∉ r.poolId :: NativeExclusions.excluded db r.generationId ∧ CanRun db p r.generationId ∧
        Workers.isReady db p := by
    have hoffers := SameOffers.settled db a r.poolId r'
    refine exists_congr fun p => and_congr (not_congr (hexcluded p)) (and_congr ?_ ?_)
    · exact ⟨hoffers.symm.canRun, hoffers.canRun⟩
    · rw [hoffers.isReady]
  rw [hremain] at heligible
  refine (decided_yields hkind hmsg hcount hrow₁ hstate hexcluded heligible).mono ?_
  rintro v db₂ ⟨hex, row', hrow', hfailed⟩
  have hquiet : ∀ db' : Db, (∀ k, (∀ i, k ≠ artifact i) → fetch db' k = fetch db₂ k) →
      (∀ p, p ∈ NativeExclusions.excluded db' r.generationId ↔
        p ∈ r.poolId :: NativeExclusions.excluded db r.generationId) ∧
      fetch db' (generation r.generationId) = some row' := fun db' hsame =>
    ⟨fun p => (NativeExclusions.mem_excluded_congr (fun b => hsame (attempt b) nofun)
      (hsame (rejection r.generationId p) nofun)).trans (hex p),
      (hsame (generation r.generationId) nofun).trans hrow'⟩
  split
  · refine Prog.yields_bind ((deleteInputsForGeneration_yields _).mono fun _ db' hsame => ?_)
    obtain ⟨hex', hrow''⟩ := hquiet db' hsame
    exact Prog.yields_done ⟨⟨_, rfl⟩, hex', row', hrow'', hfailed⟩
  · exact Prog.yields_done ⟨⟨_, rfl⟩, hex, row', hrow', hfailed⟩

/-- What a report may do to a Generation that is not failed. -/
def FailsOnly (w : AuthenticatedWorker) (a : Uuid) (failure : Attempts.FailureDetails) (db db' : Db) :
    Prop :=
  ∀ g (row row' : GenerationRow), fetch db (generation g) = some row → row.state ≠ .failed →
    fetch db' (generation g) = some row' → row'.state = .failed →
    w.isCurrent db ∧ storable failure.message ∧ (row.state = .queued ∨ row.state = .running) ∧
    ∃ r : AttemptRow, fetch db (attempt a) = some r ∧ Attempts.liveOf (some w.workerId) r ∧
      r.generationId = g

omit [ManifestHash] in
/-- Who changes no Generation fails none. -/
theorem FailsOnly.of_same {db' : Db} (h : ∀ g, fetch db' (generation g) = fetch db (generation g)) :
    FailsOnly w a failure db db' := by
  intro g row row' hrow hne hrow' hfailed
  obtain rfl : row' = row := Option.some_inj.1 ((h g).symm.trans hrow' |>.symm.trans hrow)
  exact absurd hfailed hne

omit [ManifestHash] in
/-- Only the Generation of the Attempt changes, and fails only where it was queued or running. -/
theorem FailsOnly.of_settled {db' : Db} {r : AttemptRow} {row new : GenerationRow}
    (hw : w.isCurrent db) (hmsg : storable failure.message) (hr : fetch db (attempt a) = some r)
    (hl : Attempts.liveOf (some w.workerId) r)
    (hrow : fetch db (generation r.generationId) = some row)
    (hother : ∀ g, g ≠ r.generationId → fetch db' (generation g) = fetch db (generation g))
    (hnew : fetch db' (generation r.generationId) = some new)
    (hstate : new.state = .failed → row.state ≠ .failed → row.state = .queued ∨
      row.state = .running) :
    FailsOnly w a failure db db' := by
  intro g row₀ row' hrow₀ hne hrow' hfailed
  by_cases hg : g = r.generationId
  · subst hg
    obtain rfl : row = row₀ := Option.some_inj.1 (hrow.symm.trans hrow₀)
    obtain rfl : new = row' := Option.some_inj.1 (hnew.symm.trans hrow')
    exact ⟨hw, hmsg, hstate hfailed hne, r, hr, hl, rfl⟩
  · obtain rfl : row' = row₀ := Option.some_inj.1 (hrow'.symm.trans ((hother g hg).trans hrow₀))
    exact absurd hfailed hne

omit [ManifestHash] in
/-- A guarded transition writes nothing but the Generation. -/
theorem transition_rows {source : GenerationState → Bool} {f : GenerationRow → GenerationRow}
    {row : GenerationRow} (hrow : fetch db (generation g) = some row) :
    (Prog.exec (Generations.transition g source f)).Ensures ⊤ (fun _ db' =>
      (∀ g', g' ≠ g → fetch db' (generation g') = fetch db (generation g')) ∧
      fetch db' (generation g) = some (if source row.state then f row else row)) db := by
  refine Prog.ensures_update (fun r hr hs => ⟨trivial, ?_⟩) fun hnone => ?_
  · obtain rfl : r = row := Option.some_inj.1 (hr.symm.trans hrow)
    refine Prog.ensures_done ⟨fun g' hg' => Db.fetch_store_ne _ _ (by simpa using hg'), ?_⟩
    rw [Database.fetch_store_self, if_pos hs]
  · have hs : source row.state = false := by simpa [hrow] using hnone
    exact Prog.ensures_done ⟨fun _ _ => rfl, by rw [hs]; exact hrow⟩

/-- A Generation that a settlement fails is that of the Attempt. -/
theorem recordFailureForWorker_failsOnly {now : Time} (hw : w.isCurrent db) :
    (Attempts.recordFailureForWorker a w.workerId failure now).Ensures ⊤
      (fun _ db' => FailsOnly w a failure db db') db := by
  unfold Attempts.recordFailureForWorker Attempts.finishAndDecide Attempts.finish
  simp only [Prog.bind_eq, Prog.exec_bind, Prog.pure_eq]
  refine Prog.ensures_read ?_
  cases hlive : (fetch db (attempt a)).filter (Attempts.liveOf (some w.workerId)) with
  | none => exact Prog.ensures_done (.of_same fun _ => rfl)
  | some r =>
    obtain ⟨hr, hl⟩ := Option.filter_eq_some_iff.1 hlive
    simp only [Option.map_some, AttemptState.isTerminal, Bool.not_true, Bool.false_eq_true, if_false,
      Prog.step_bind]
    refine Prog.ensures_require fun hmsg => Prog.ensures_updateReturning
      (fun r' hr' _ => ⟨trivial, ?_⟩)
      fun _ => Prog.ensures_done (.of_same fun _ => rfl)
    obtain rfl : r' = r := Option.some_inj.1 (hr'.symm.trans hr)
    simp only [Prog.bind_assoc]
    refine Prog.ensures_bind ((releaseSlot_ensures _ fun _ _ => trivial).mono fun _ db₁ hdb₁ => ?_)
    have hsame : ∀ g, fetch db₁ (generation g) = fetch db (generation g) := fun g => by
      rw [hdb₁, fetch_releasedSlot_generation,
        Db.fetch_store_ne db (k := attempt a) (j := generation g) _ nofun]
    simp only [Prog.done_bind, Bool.not_true, Bool.false_eq_true, if_false]
    unfold Generations.getOne Generations.requirementOf NativeExclusions.excludedPools
      Workers.poolCapabilities
    simp only [Prog.exec_bind]
    refine Prog.ensures_tryRead fun row hread => ?_
    have hrow₁ : fetch db₁ (generation r'.generationId) = some row := by
      split at hread
      · cases hread
        assumption
      · cases hread
    have hrow := (hsame _).symm.trans hrow₁
    -- whatever the transition, only a queued or running Generation fails
    have hfails : ∀ {db' : Db} {new : GenerationRow},
        (∀ g', g' ≠ r'.generationId → fetch db' (generation g') = fetch db₁ (generation g')) →
        fetch db' (generation r'.generationId) = some new →
        (new.state = .failed → row.state ≠ .failed → row.state = .queued ∨ row.state = .running) →
        FailsOnly w a failure db db' := fun hother hnew hstate =>
      .of_settled hw hmsg hr hl hrow (fun g' hg' => (hother g' hg').trans (hsame g')) hnew hstate
    split
    · refine Prog.ensures_bind ((transition_rows hrow₁).mono fun _ db' h => ?_)
      refine Prog.ensures_done (hfails h.1 h.2 fun hfailed hne => ?_)
      split at hfailed
      · cases hfailed
      · exact absurd hfailed hne
    · rename_i hcancelling
      refine Prog.ensures_read (Prog.ensures_read (Prog.ensures_read ?_))
      split
      · refine Prog.ensures_bind
          (Prog.ensures_labelled ((transition_rows hrow₁).mono fun _ db' h => ?_))
        refine Prog.ensures_done (hfails h.1 h.2 fun hfailed hne => ?_)
        split at hfailed
        · cases hfailed
        · exact absurd hfailed hne
      · refine Prog.ensures_bind
          (Prog.ensures_require fun _ => (transition_rows hrow₁).mono fun _ db' h => ?_)
        refine Prog.ensures_done (hfails h.1 h.2 fun hfailed hne => ?_)
        split at hfailed
        · rename_i hs
          simpa [hcancelling] using hs
        · exact absurd hfailed hne

/-- A Generation that a report fails is one whose Attempt the report settles. -/
theorem failure_failsOnly {now : Time} :
    (settleAttemptFailure w a failure now).Ensures ⊤ (fun v db' => ∀ x, v = .commit x →
      FailsOnly w a failure db db') db := by
  refine authenticated_ensures nofun fun hw => ?_
  refine Prog.ensures_bind ((recordFailureForWorker_failsOnly hw).mono fun out db₂ h => ?_)
  -- the inputs that are deleted at the end are no Generations
  dsimp only
  split
  · refine Prog.ensures_bind
      (((deleteInputsForGeneration_yields _).ensures fun _ _ => trivial).mono ?_)
    intro _ db' hsame
    refine Prog.ensures_done fun x _ g row row' hrow hne hrow' => ?_
    exact h g row row' hrow hne ((hsame (generation g) nofun).symm.trans hrow')
  · exact Prog.ensures_done fun _ _ => h

end Report

/-! ## Every transaction -/

section Decisions

variable [ManifestHash] {op : Op} {db : Db} {g : Uuid} {excluded : List Uuid}

/-- The Pools that are excluded after the transaction are those that it weighs with. -/
theorem mem_excluded_applied (h : (g, excluded) ∈ op.weighs db) (p : Uuid) :
    p ∈ NativeExclusions.excluded (op.apply db) g ↔ p ∈ excluded := by
  unfold Op.weighs at h
  split at h
  · rename_i now
    obtain ⟨c, -, hc⟩ := List.mem_map.1 h
    obtain ⟨rfl, rfl⟩ : c.generationId = g ∧
        NativeExclusions.excluded db c.generationId = excluded := by simpa using hc
    have hothers := (sweep_applied now db).others
    exact NativeExclusions.mem_excluded_congr (fun a => hothers (attempt a) nofun nofun)
      (hothers (rejection c.generationId p) nofun nofun)
  · rename_i w a failure now
    exact (exhausted_yields now h).commit.1 p
  · cases h

/-- A sweep gives up a Generation exactly if it weighs it and no candidate is ready. -/
theorem sweep_givesUp_iff {now : Time} : (Op.expireStarvedQueue now).GivesUp db g ↔
    ∃ excluded, (g, excluded) ∈ (Op.expireStarvedQueue now).weighs db ∧
      ¬ ∃ p, p ∉ excluded ∧ CanRun db p g ∧ Workers.isReady db p := by
  have hswept := (sweep_applied now db).generations g
  have hstarved : ∀ c ∈ overdue now db, starved db c ↔ ¬ ∃ p,
      p ∉ NativeExclusions.excluded db c.generationId ∧ CanRun db p c.generationId ∧
        Workers.isReady db p := by
    intro c hc
    obtain ⟨row, hrow, -, hreq⟩ := Generations.exists_of_mem_queued (List.mem_filter.1 hc).1
    rw [← candidateRemains_iff hrow hreq, starved, Bool.not_eq_true', Bool.not_eq_true]
  constructor
  · -- a Generation that expires now was starved
    rintro ⟨row, row', hrow, hrow', hne, hexpired⟩
    obtain ⟨hsame, -⟩ | ⟨⟨c, hc, hs, rfl⟩, -⟩ := hswept
    · obtain rfl : row' = row := Option.some_inj.1 (hrow'.symm.trans (hsame.trans hrow))
      exact absurd hexpired hne
    · exact ⟨_, List.mem_map.2 ⟨c, hc, rfl⟩, (hstarved c hc).1 hs⟩
  · -- one that is weighed, and has no candidate, is starved
    rintro ⟨excluded, hmem, hnone⟩
    obtain ⟨c, hc, heq⟩ := List.mem_map.1 hmem
    obtain ⟨rfl, rfl⟩ : c.generationId = g ∧
        NativeExclusions.excluded db c.generationId = excluded := by simpa using heq
    have hs := (hstarved c hc).2 hnone
    obtain ⟨row, hrow, hqueued, -⟩ := Generations.exists_of_mem_queued (List.mem_filter.1 hc).1
    obtain ⟨-, hrest⟩ | ⟨-, row', hrow', hexpired⟩ := hswept
    · cases hrest c hc hs rfl
    · exact ⟨row, row', hrow, hrow', by simp [hqueued], hexpired⟩

/-- A report of an exhausted memory gives up a Generation exactly if it weighs it and no candidate
    is ready. -/
theorem failure_givesUp_iff {w : AuthenticatedWorker} {a : Uuid} {failure : Attempts.FailureDetails}
    {now : Time} : (Op.attemptFailed w a failure now).GivesUp db g ↔
    ∃ excluded, (g, excluded) ∈ (Op.attemptFailed w a failure now).weighs db ∧
      ¬ ∃ p, p ∉ excluded ∧ CanRun db p g ∧ Workers.isReady db p := by
  constructor
  · rintro ⟨row, row', hrow, hrow', hkind, hcount, hne, hfailed⟩
    have hfails : FailsOnly w a failure db ((Op.attemptFailed w a failure now).apply db) :=
      failure_failsOnly.commit (.of_same fun _ => rfl)
    obtain ⟨hw, hmsg, hstate, r, hr, hl, hg⟩ := hfails g row row' hrow hne hrow' hfailed
    have hmem := mem_exhausted_iff.2 ⟨hw, hmsg, hkind, r, row, hr, hl, hg, rfl, hrow, hstate, hcount⟩
    obtain ⟨-, row₁, hrow₁, hiff⟩ := (exhausted_yields now hmem).commit
    obtain rfl : row₁ = row' := Option.some_inj.1 (hrow₁.symm.trans hrow')
    exact ⟨_, hmem, hiff.1 hfailed⟩
  · rintro ⟨excluded, hmem, hnone⟩
    obtain ⟨-, -, hkind, r, row, -, -, -, -, hrow, hstate, hcount⟩ := mem_exhausted_iff.1 hmem
    obtain ⟨-, row', hrow', hiff⟩ := (exhausted_yields now hmem).commit
    refine ⟨row, row', hrow, hrow', hkind, hcount, ?_, hiff.2 hnone⟩
    rcases hstate with h | h <;> simp [h]

/-- A transaction gives up those Generations that it weighs and no ready Pool can run. -/
theorem givesUp_iff : op.GivesUp db g ↔ ∃ excluded, (g, excluded) ∈ op.weighs db ∧
    ¬ ∃ p, p ∉ excluded ∧ CanRun db p g ∧ Workers.isReady db p := by
  cases op with
  | expireStarvedQueue now => exact sweep_givesUp_iff
  | attemptFailed w a failure now => exact failure_givesUp_iff
  | _ =>
    refine iff_of_false ?_ fun ⟨_, h, _⟩ => nomatch h
    rintro ⟨_, _, _, _, h⟩
    exact h

/-- An operation only gives up what is hopeless exactly if, of whatever it weighs, some candidate
    is ready whenever there is one at all. -/
theorem onlyHopeless_iff (op : Op) (db : Db) : op.OnlyHopeless db ↔ op.CandidateReady db := by
  constructor
  · intro h g excluded hmem hrun
    by_contra hready
    obtain ⟨p, hp, hrun⟩ := hrun
    exact h g (givesUp_iff.2 ⟨excluded, hmem, hready⟩) p (mt (mem_excluded_applied hmem p).1 hp) hrun
  · intro h g hgives p hp hrun
    obtain ⟨excluded, hmem, hready⟩ := givesUp_iff.1 hgives
    exact hready (h g excluded hmem ⟨p, mt (mem_excluded_applied hmem p).2 hp, hrun⟩)

end Decisions

/-- In a run, only hopeless Generations are given up exactly where every transaction that
    weighs a Generation which some Pool can run finds such a Pool ready. -/
theorem given_up_hopeless_iff [ManifestHash] (tenantId : Uuid) (ops : List Op) :
    Machine.Allowed Op.apply Op.OnlyHopeless (.initial tenantId) ops ↔
      Machine.Allowed Op.apply Op.CandidateReady (.initial tenantId) ops :=
  Machine.allowed_congr onlyHopeless_iff _ _

namespace Sample

/-- The Pool while its process restarts. -/
def restarting : PoolAdvertisement :=
  { pool with ready := false, unreadyReason := "restarting", slots := 0 }

end Sample

/-- Both Pools restart when the sweep comes, or the second one when the first runs out of
    memory: the Generation is given up, and the second Pool could run it. -/
theorem given_up_too_early :
    let _ := Sample.manifestHash
    (∃ db, Reaches db ∧ ∃ now, ¬ (Op.expireStarvedQueue now).OnlyHopeless db) ∧
      ∃ db, Reaches db ∧ ∃ w a failure now, ¬ (Op.attemptFailed w a failure now).OnlyHopeless db := by
  intro _
  let starving := Sample.after [.capabilityReport Sample.alpha [(21, Sample.restarting)],
    .capabilityReport Sample.beta [(22, Sample.restarting)]]
  let sweep := Op.expireStarvedQueue 10000000000
  let leased :=
    Sample.after [Sample.firstLease, .capabilityReport Sample.beta [(22, Sample.restarting)]]
  let report := Op.attemptFailed Sample.alpha 41 ⟨.outOfMemory, "", false⟩ 5
  have hsweep : ((fetch starving (generation 31)).any fun row => row.state ≠ .expired) ∧
      ((fetch (sweep.apply starving) (generation 31)).any fun row => row.state = .expired) ∧
      22 ∉ NativeExclusions.excluded (sweep.apply starving) 31 ∧ CanRun starving 22 31 := by
    decide +kernel
  have hreport : ((fetch leased (generation 31)).any fun row =>
        row.attemptCount < maxAttempts && row.state ≠ .failed) ∧
      ((fetch (report.apply leased) (generation 31)).any fun row => row.state = .failed) ∧
      22 ∉ NativeExclusions.excluded (report.apply leased) 31 ∧ CanRun leased 22 31 := by
    decide +kernel
  refine ⟨⟨starving, Sample.reaches_after _, 10000000000, fun h => ?_⟩,
    ⟨leased, Sample.reaches_after _, Sample.alpha, 41, ⟨.outOfMemory, "", false⟩, 5, fun h => ?_⟩⟩
  · obtain ⟨hbefore, hafter, hout, hrun⟩ := hsweep
    obtain ⟨row, hrow, hne⟩ := (Option.any_eq_true _ _).1 hbefore
    obtain ⟨row', hrow', hexpired⟩ := (Option.any_eq_true _ _).1 hafter
    exact h 31 ⟨row, row', hrow, hrow', of_decide_eq_true hne,
      of_decide_eq_true hexpired⟩ 22 hout hrun
  · obtain ⟨hbefore, hafter, hout, hrun⟩ := hreport
    obtain ⟨row, hrow, hne⟩ := (Option.any_eq_true _ _).1 hbefore
    obtain ⟨row', hrow', hfailed⟩ := (Option.any_eq_true _ _).1 hafter
    obtain ⟨hcount, hne⟩ := Bool.and_eq_true_iff.1 hne
    exact h 31 ⟨row, row', hrow, hrow', rfl, of_decide_eq_true hcount, of_decide_eq_true hne,
      of_decide_eq_true hfailed⟩ 22 hout hrun

end Gpq
