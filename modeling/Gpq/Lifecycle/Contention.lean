import Gpq.Lifecycle.Plans
import Gpq.Lifecycle.Planning
import Gpq.Lifecycle.Replies
import Gpq.Lifecycle.Retries

/-!
# Contention

A pass selects for each Pool over the same candidates, so that two Pools may select the same
Generation. What a Pool selects is said on the inputs (`Wants`): the first Generation for it, and
the most urgent companions of that while its Slots last. A plan has no Generation twice exactly
where no two Pools want the same one (`nodup_planAssignments_iff`), and exactly then every
decision of a pass creates its Attempt (`planned_once_iff`).
-/

namespace Gpq

open Sql DbKey Ranking

/-! ## What a Pool wants -/

/-- How many candidates may go with `primary` and are more urgent than `c`. -/
def SlotContext.ahead (self : SlotContext) (candidates : List Candidate)
    (primary c : Candidate) : ℕ :=
  candidates.countP fun d => self.eligible d && d.version = primary.version &&
    d.generationId ≠ primary.generationId && d.urgency < c.urgency

/-- The Slot takes the candidate: it is the first one, or goes with it while Slots are free. -/
def SlotContext.Takes (self : SlotContext) (candidates : List Candidate) (c : Candidate) : Prop :=
  self.freeSlots ≠ 0 ∧ ∃ primary, self.IsPrimary candidates primary ∧
    (c = primary ∨ c ∈ self.companions candidates primary ∧
      self.ahead candidates primary c < self.freeSlots - 1)

/-- The Pool of the offer may get work, and takes the candidate where it is not excluded. -/
def Wants (candidates : List Candidate) (exclusions : Uuid → List Uuid) (settings : TenantSettings)
    (now : Time)
    (isOnline : Uuid → Bool) (offer : SlotCapability × ℕ × Uuid × String) (c : Candidate) : Prop :=
  isOnline offer.2.2.1 ∧ SlotContext.Takes ⟨offer.1, offer.2.1, settings, now⟩
    (candidates.filter fun c => offer.1.poolId ∉ exclusions c.generationId) c

/-- No two of the offers want the same candidate. -/
def Uncontended (capabilities : List (SlotCapability × ℕ × Uuid × String))
    (candidates : List Candidate) (exclusions : Uuid → List Uuid) (settings : TenantSettings)
    (now : Time)
    (isOnline : Uuid → Bool) : Prop :=
  capabilities.Pairwise fun offer offer' => ∀ c ∈ candidates,
    ¬ (Wants candidates exclusions settings now isOnline offer c ∧
      Wants candidates exclusions settings now isOnline offer' c)

section Plans

variable {context : SlotContext} {candidates : List Candidate} {exclusions : Uuid → List Uuid}
  {settings : TenantSettings} {now : Time} {isOnline : Uuid → Bool} {c primary : Candidate}

/-- The companions, as a list. -/
theorem companions_eq (hids : (candidates.map Candidate.generationId).Nodup)
    (hprimary : primary ∈ candidates) :
    context.companions candidates primary = {c | c ∈ candidates.filter fun d => context.eligible d &&
      d.version = primary.version && d.generationId ≠ primary.generationId} := by
  ext d
  simp only [SlotContext.companions, SlotContext.offers, Set.mem_ofPred_eq, List.mem_filter,
    Bool.and_eq_true, decide_eq_true_eq]
  constructor
  · rintro ⟨⟨hd, heligible⟩, hversion, hne⟩
    exact ⟨hd, ⟨heligible, hversion⟩, fun heq => hne (eq_of_generationId hids hd hprimary heq)⟩
  · rintro ⟨hd, ⟨heligible, hversion⟩, hne⟩
    exact ⟨⟨hd, heligible⟩, hversion, fun heq => hne (congrArg _ heq)⟩

/-- A batch has what the Slot takes. -/
theorem mem_selectBatch_iff (hids : (candidates.map Candidate.generationId).Nodup) :
    c ∈ selectBatch context candidates ↔ context.Takes candidates c := by
  have hbatch : IsBatch context candidates (selectBatch context candidates) :=
    isBatch_selectBatch hids
  rcases hselected : selectBatch context candidates with _ | ⟨primary, rest⟩
  · rw [hselected] at hbatch
    refine iff_of_false List.not_mem_nil ?_
    rintro ⟨hfree, primary, hprimary, -⟩
    rcases hbatch.works rfl with hfull | hnone
    · exact hfree hfull
    · exact Set.notMem_empty primary (hnone ▸ hprimary.offered)
  · rw [hselected] at hbatch
    have hprimary : context.IsPrimary candidates primary := hbatch.primary primary rfl
    have hmem : primary ∈ candidates := hprimary.offered.1
    have hfree : context.freeSlots ≠ 0 := fun hfull => by
      have hle := hbatch.length_le
      rw [hfull] at hle
      exact Nat.not_succ_le_zero _ hle
    -- the rest is a ranking of the companions, in which a place is a matter of those ahead
    have hrest : c ∈ rest ↔ c ∈ context.companions candidates primary ∧
        context.ahead candidates primary c < context.freeSlots - 1 := by
      have hranked := hbatch.rest primary rfl
      rw [companions_eq hids hmem] at hranked ⊢
      rw [List.tail_cons] at hranked
      rw [hranked.mem_iff (hids.of_map.filter _), List.countP_filter]
      refine and_congr_right fun _ => ?_
      rw [SlotContext.ahead]
      simp only [Bool.and_comm, Bool.and_left_comm]
    rw [List.mem_cons, hrest]
    constructor
    · intro h
      exact ⟨hfree, primary, hprimary, h⟩
    · rintro ⟨-, primary', hprimary', h⟩
      obtain rfl := IsBatch.primary_unique hids hprimary hprimary'
      exact h

/-- A Pool is to get what it wants. -/
theorem mem_selectionFor_iff (hids : (candidates.map Candidate.generationId).Nodup)
    {offer : SlotCapability × ℕ × Uuid × String} :
    c ∈ selectionFor candidates exclusions settings now isOnline offer ↔
      Wants candidates exclusions settings now isOnline offer c := by
  obtain ⟨capability, freeSlots, workerId, key⟩ := offer
  rw [selectionFor, Wants]
  split
  · rename_i hserves
    rw [mem_selectBatch_iff ((List.filter_sublist.map _).nodup hids)]
    simp [hserves.2]
  · rename_i hidle
    refine iff_of_false List.not_mem_nil ?_
    rintro ⟨honline, hfree, -⟩
    exact hidle ⟨hfree, honline⟩

/-- No Generation is selected twice for a Pool. -/
theorem nodup_selectionFor (hids : (candidates.map Candidate.generationId).Nodup)
    (offer : SlotCapability × ℕ × Uuid × String) :
    ((selectionFor candidates exclusions settings now isOnline offer).map
      Candidate.generationId).Nodup := by
  refine List.Nodup.map_on (fun c hc d hd h => ?_) ?_
  · exact eq_of_generationId hids (mem_of_selectionFor hids hc).1 (mem_of_selectionFor hids hd).1 h
  · obtain ⟨capability, freeSlots, workerId, key⟩ := offer
    rw [selectionFor]
    split
    · exact (isBatch_selectBatch ((List.filter_sublist.map _).nodup hids)).nodup
    · exact List.nodup_nil

/-- The Generations of a plan, Pool by Pool. -/
theorem generationId_planAssignments (hids : (candidates.map Candidate.generationId).Nodup)
    (capabilities : List (SlotCapability × ℕ × Uuid × String)) :
    (planAssignments capabilities candidates exclusions settings now isOnline).map
      SlotAssignment.generationId =
      capabilities.flatMap fun offer =>
        (selectionFor candidates exclusions settings now isOnline offer).map
          Candidate.generationId := by
  rw [planAssignments_eq hids, List.map_flatMap]
  refine List.flatMap_congr fun offer _ => ?_
  rw [List.map_map]
  rfl

/-- A plan has no Generation twice exactly where no two Pools want the same one. -/
theorem nodup_planAssignments_iff (hids : (candidates.map Candidate.generationId).Nodup)
    (capabilities : List (SlotCapability × ℕ × Uuid × String)) :
    ((planAssignments capabilities candidates exclusions settings now isOnline).map
      SlotAssignment.generationId).Nodup ↔
      Uncontended capabilities candidates exclusions settings now isOnline := by
  rw [generationId_planAssignments hids, List.nodup_flatMap, Uncontended]
  refine (and_iff_right fun offer _ => nodup_selectionFor hids offer).trans ?_
  refine List.Pairwise.iff fun {offer offer'} => ?_
  constructor
  · rintro hdisjoint c - ⟨hc, hc'⟩
    exact hdisjoint (List.mem_map_of_mem ((mem_selectionFor_iff hids).2 hc))
      (List.mem_map_of_mem ((mem_selectionFor_iff hids).2 hc'))
  · intro hnone g hg hg'
    obtain ⟨c, hc, rfl⟩ := List.mem_map.1 hg
    obtain ⟨d, hd, hdc⟩ := List.mem_map.1 hg'
    have hmem : c ∈ candidates := (mem_of_selectionFor hids hc).1
    obtain rfl : d = c := eq_of_generationId hids (mem_of_selectionFor hids hd).1 hmem hdc
    exact hnone d hmem ⟨(mem_selectionFor_iff hids).1 hc, (mem_selectionFor_iff hids).1 hd⟩

end Plans

/-! ## Carrying out a decision -/

/-- The text form of an identifier can be stored. -/
theorem storable_displayUuid (id : Uuid) : storable (displayUuid id) := by
  rw [storable, List.all_eq_true]
  intro c hc
  rw [bne_iff_ne]
  rintro rfl
  -- it would be one of the digits
  have hdigit : '\x00' ∈ hexDigits 32 id := by
    rw [← filter_displayUuid]
    exact List.mem_filter.2 ⟨hc, by decide⟩
  obtain ⟨d, hd⟩ := exists_hexDigit hdigit
  cases hd

/-- What a decision needs of the database, but for a free Slot. -/
structure Leasable (db : Db) (x : SlotAssignment) : Prop where
  queued : ∃ row : GenerationRow, fetch db (generation x.generationId) = some row ∧
    row.state = .queued ∧
    row.attemptCount < maxAttempts ∧ row.attemptCount + 1 ∉ attemptNumbers db x.generationId ∧
    (fetch db (modelVersion row.versionSha256)).isSome
  worker : (fetch db (worker x.workerId)).isSome
  spared : x.poolId ∉ NativeExclusions.excluded db x.generationId

/-- An Attempt is inserted where its identifier and its number are new and its references exist. -/
theorem insert_run {db : Db} {id g w p : Uuid} {n : ℕ} {slotKey : String} (expiry now : Time)
    (hslot : storable slotKey) (hn : 1 ≤ n ∧ n ≤ maxAttempts) (hid : fetch db (attempt id) = none)
    (hnumber : n ∉ attemptNumbers db g) (hg : (fetch db (generation g)).isSome)
    (hw : (fetch db (worker w)).isSome) (hp : (fetch db (devicePool p)).isSome) :
    ∃ a : AttemptRow, (Attempts.insert id g n w p slotKey expiry now).run db =
      .ok { val := (), writes := [⟨attempt id, some a⟩] } := by
  obtain ⟨_, hg⟩ := Option.isSome_iff_exists.1 hg
  obtain ⟨_, hw⟩ := Option.isSome_iff_exists.1 hw
  obtain ⟨_, hp⟩ := Option.isSome_iff_exists.1 hp
  rw [Attempts.insert, Stmt.require]
  dsimp only [Stmt.write]
  rw [if_pos hslot, dif_pos hn, hid, any_attemptNumber_eq_false g hnumber, hg, hw, hp]
  exact ⟨_, rfl⟩

section Decisions

variable {db : Db} {x : SlotAssignment} {id : Uuid}

/-- A decision that has all that it needs is committed once the lease is delivered. -/
theorem tryAssign_yields (h : Leasable db x) (hid : fetch db (attempt id) = none) {q : DevicePoolRow}
    (hq : fetch db (devicePool x.poolId) = some q) (hfree : q.claimedSlots < q.totalSlots)
    (now : Time) :
    (tryAssign x id now true).Yields (fun v _ => v = .commit ()) db := by
  obtain ⟨row, hrow, hqueued, hcount, hnumber, hversion⟩ := h.queued
  let db₁ : Db := store db (devicePool x.poolId) (some q.claim)
  have hrow₁ : fetch db₁ (generation x.generationId) = some row := by simpa [db₁] using hrow
  have hspared₁ : x.poolId ∉ NativeExclusions.excluded db₁ x.generationId := fun hx =>
    h.spared ((NativeExclusions.mem_excluded_congr (by simp [db₁]) (by simp [db₁])).1 hx)
  have hnumber₁ : row.attemptCount + 1 ∉ attemptNumbers db₁ x.generationId := hnumber
  obtain ⟨a, ha⟩ := insert_run (leaseExpiryFrom now) now (storable_displayUuid x.poolId)
    ⟨Nat.succ_pos _, hcount⟩ (by simpa [db₁] using hid) hnumber₁ (by simp [hrow₁])
    (by simpa [db₁] using h.worker) (p := x.poolId) (by simp [db₁])
  unfold tryAssign NativeExclusions.excludedPools Workers.claimSlot Attempts.create
    Generations.markRunning Generations.get NativeExclusions.excludedPools
  simp only [Prog.bind_eq, Prog.exec_bind, Prog.pure_eq]
  refine Prog.yields_read ?_
  rw [if_neg h.spared]
  refine Prog.yields_update hq (decide_eq_true hfree) ?_
  simp only [Bool.not_true, Bool.false_eq_true, if_false, Prog.step_bind]
  refine Prog.yields_lock hrow₁ rfl ?_
  dsimp only
  rw [if_neg (not_not.2 hqueued)]
  simp only [Prog.step_bind]
  refine Prog.yields_read ?_
  rw [if_neg hspared₁, if_neg (Nat.not_lt.2 hcount)]
  simp only [Prog.step_bind]
  refine Prog.yields_step ha ?_
  refine Prog.yields_update (r := row) (by simpa using hrow) rfl ?_
  simp only [Prog.done_bind]
  refine Prog.yields_update (r := row.counted (row.attemptCount + 1)) (by simp)
    (decide_eq_true hqueued) ?_
  refine Prog.yields_read ?_
  simp only [Database.fetch_store_self]
  refine Prog.yields_read ?_
  rw [if_neg ?_]
  · exact Prog.yields_done rfl
  · obtain ⟨v, hv⟩ := Option.isSome_iff_exists.1 hversion
    simp [GenerationRow.counted, GenerationRow.withState, hv]

/-- The lease of a decision; what is replied to it does not matter. -/
@[simps assignment attemptId]
def SlotAssignment.lease (x : SlotAssignment) (id : Uuid) (now : Time) : Lease where
  assignment := x
  attemptId := id
  leasedAt := now
  worker := ⟨x.workerId, []⟩
  reply := .running
  handledAt := now

/-- Only a queued Generation is leased. -/
theorem tryAssign_queued (x : SlotAssignment) (id : Uuid) (now : Time) (db : Db) :
    (tryAssign x id now true).Ensures ⊤ (fun v _ => v = .commit () →
      ∃ row : GenerationRow, fetch db (generation x.generationId) = some row ∧ row.state = .queued)
        db := by
  unfold tryAssign NativeExclusions.excludedPools Workers.claimSlot
  simp only [Prog.bind_eq, Prog.exec_bind, Prog.pure_eq]
  refine Prog.ensures_read ?_
  split
  · exact nofun
  refine Prog.ensures_update (fun q hq hfree => ⟨trivial, ?_⟩) fun _ => nofun
  refine Prog.ensures_bind ((create_ensures _ _ _ _ _ _ _).mono fun out db₁ h => ?_)
  rcases h with ⟨e, rfl⟩ | ⟨r, -, -, -, hr, hs, -⟩
  · exact nofun
  · exact Prog.ensures_of_forall _ (fun _ _ => trivial) fun _ _ _ => ⟨r, by simpa using hr, hs⟩

/-- A decision leaves the database as it was, or a queued Generation is leased. -/
theorem tryAssign_applied [ManifestHash] (x : SlotAssignment) (id : Uuid) (now : Time) (db : Db) :
    Op.apply (.tryAssign x id now true) db = db ∨
      (x.lease id now).Assigned db (Op.apply (.tryAssign x id now true) db) ∧
        ∃ row : GenerationRow, fetch db (generation x.generationId) = some row ∧
          row.state = .queued := by
  have hboth := ((x.lease id now).assign_ensures db).and (tryAssign_queued x id now db)
  refine Prog.Ensures.commit (P := fun db' => db' = db ∨ (x.lease id now).Assigned db db' ∧ _)
    (hboth.mono fun v db' h _ hv => ?_) (.inl rfl)
  exact .inr ⟨h.1 hv, h.2 hv⟩

/-- A decision that has all that it needs is carried out. -/
theorem tryAssign_assigned [ManifestHash] (h : Leasable db x) (hid : fetch db (attempt id) = none)
    {q : DevicePoolRow} (hq : fetch db (devicePool x.poolId) = some q)
    (hfree : q.claimedSlots < q.totalSlots)
    (now : Time) :
    (x.lease id now).Assigned db (Op.apply (.tryAssign x id now true) db) := by
  obtain ⟨v, db', hrun, rfl⟩ := tryAssign_yields h hid hq hfree now
  have hassigned := ((x.lease id now).assign_ensures db).of_run hrun rfl
  have happly : Op.apply (.tryAssign x id now true) db = db' := by
    rw [Op.apply, Prog.commit, hrun]
  rwa [happly]

end Decisions

/-! ## What a decision leaves alone -/

namespace Lease.Assigned

variable {db db' : Db} {x : Lease} {y : SlotAssignment}

/-- The Attempts of the other Generations are as they were. -/
theorem attempt_iff (h : x.Assigned db db') {g : Uuid} (hg : g ≠ x.assignment.generationId) {a : Uuid}
    {r : AttemptRow} (hr : r.generationId = g) :
    fetch db' (attempt a) = some r ↔ fetch db (attempt a) = some r := by
  by_cases ha : a = x.attemptId
  · subst ha
    obtain ⟨r₀, hr₀, -, hgen, -⟩ := h.leased
    refine iff_of_false (fun hr' => hg ?_) ?_
    · obtain rfl : r₀ = r := Option.some_inj.1 (hr₀.symm.trans hr')
      exact hr.symm.trans hgen
    · rw [h.new]
      exact nofun
  · rw [h.others (attempt a) (by simpa using ha) nofun nofun]

/-- Another decision about another Generation needs nothing that was taken, but for a Slot. -/
theorem leasable (h : x.Assigned db db') (hy : Leasable db y)
    (hne : y.generationId ≠ x.assignment.generationId) : Leasable db' y := by
  obtain ⟨row, hrow, hqueued, hcount, hnumber, hversion⟩ := hy.queued
  have hold {g : Uuid} (hg : g ≠ x.assignment.generationId) : fetch db' (generation g) =
      fetch db (generation g) :=
    h.others _ nofun (by simpa using hg) nofun
  refine ⟨⟨row, (hold hne).trans hrow, hqueued, hcount, fun hmem => hnumber ?_, ?_⟩, ?_,
    fun hx => hy.spared ?_⟩
  · obtain ⟨a, ha⟩ := mem_attemptNumbers.1 hmem
    obtain ⟨r, hr, hrg, hn⟩ := number_life_iff.1 ha
    exact mem_attemptNumbers.2 ⟨a, number_life_iff.2 ⟨r, (h.attempt_iff hne hrg).1 hr, hrg, hn⟩⟩
  · rwa [h.others (modelVersion _) nofun nofun nofun]
  · rw [h.others (DbKey.worker _) nofun nofun nofun]
    exact hy.worker
  · rw [NativeExclusions.mem_excluded_iff] at hx ⊢
    rcases hx with ⟨a, r, hr, hrg, hrp, hrx⟩ | hrejected
    · exact .inl ⟨a, r, (h.attempt_iff hne hrg).1 hr, hrg, hrp, hrx⟩
    · rw [h.others (rejection _ _) nofun nofun nofun] at hrejected
      exact .inr hrejected

end Lease.Assigned

/-! ## Carrying out a pass -/

/-- A decision with the identifier that its Attempt is to get. -/
abbrev Decision := SlotAssignment × Uuid

/-- The decision created its Attempt. -/
def Created (x : Decision) (db : Db) : Prop :=
  ∃ r : AttemptRow, fetch db (attempt x.2) = some r ∧ r.generationId = x.1.generationId ∧
    r.poolId = x.1.poolId

instance (x : Decision) (db : Db) : Decidable (Created x db) :=
  decidable_of_iff ((fetch db (attempt x.2)).any fun r =>
      r.generationId = x.1.generationId && r.poolId = x.1.poolId) <| by
    simp only [Created, Option.any_eq_true, Bool.and_eq_true, decide_eq_true_eq]
    rfl

/-- Identifiers that are drawn anew. -/
structure Fresh (db : Db) (decisions : List Decision) : Prop where
  nodup : (decisions.map Prod.snd).Nodup
  new : ∀ x ∈ decisions, fetch db (attempt x.2) = none

/-- The database has all that the decisions need. -/
structure Feasible (db : Db) (decisions : List Decision) : Prop where
  leasable : ∀ x ∈ decisions, Leasable db x.1
  slots : ∀ x ∈ decisions, ∃ q : DevicePoolRow, fetch db (devicePool x.1.poolId) = some q ∧
    q.claimedSlots + decisions.countP (fun y => y.1.poolId = x.1.poolId) ≤ q.totalSlots
  nodup : (decisions.map fun x => x.1.generationId).Nodup

section Passes

variable {db : Db} {now : Time} {x : Decision} {decisions : List Decision}

/-- After the first decision the others have all that they need. -/
theorem Feasible.next (h : Feasible db (x :: decisions)) {db' : Db}
    (hx : (x.1.lease x.2 now).Assigned db db') :
    Feasible db' decisions := by
  have hnodup := h.nodup
  rw [List.map_cons, List.nodup_cons] at hnodup
  refine ⟨fun y hy => ?_, fun y hy => ?_, hnodup.2⟩
  · have hne : y.1.generationId ≠ x.1.generationId := fun heq =>
      hnodup.1 (heq ▸ List.mem_map_of_mem (f := fun x => x.1.generationId) hy)
    exact hx.leasable (h.leasable y (List.mem_cons_of_mem _ hy)) hne
  · obtain ⟨q, hq, hslots⟩ := h.slots y (List.mem_cons_of_mem _ hy)
    rw [List.countP_cons] at hslots
    by_cases hpool : x.1.poolId = y.1.poolId
    · -- one Slot of the Pool is claimed, for one decision fewer
      rw [if_pos (decide_eq_true hpool)] at hslots
      obtain ⟨q₀, hq₀, hfree, hclaimed⟩ := hx.claimed
      rw [SlotAssignment.lease_assignment, hpool] at hq₀ hclaimed
      obtain rfl : q₀ = q := Option.some_inj.1 (hq₀.symm.trans hq)
      refine ⟨q₀.claim, hclaimed, ?_⟩
      rw [DevicePoolRow.claim, dif_pos hfree]
      dsimp only
      omega
    · rw [if_neg (by simpa using hpool)] at hslots
      refine ⟨q, ?_, hslots⟩
      rw [hx.others (devicePool _) (by simp) (by simp) (by simpa using Ne.symm hpool)]
      exact hq

variable [ManifestHash]

/-- The decisions carried out one after the other, with nothing in between. -/
def carryOut (now : Time) (decisions : List Decision) (db : Db) : Db :=
  Machine.run Op.apply db (decisions.map fun x => .tryAssign x.1 x.2 now true)

theorem carryOut_cons : carryOut now (x :: decisions) db =
    carryOut now decisions (Op.apply (.tryAssign x.1 x.2 now true) db) := rfl

/-- The other Attempts are as they were. -/
theorem fetch_tryAssign_applied {a : Uuid} (h : a ≠ x.2) :
    fetch (Op.apply (.tryAssign x.1 x.2 now true) db) (attempt a) = fetch db (attempt a) := by
  rcases tryAssign_applied x.1 x.2 now db with hsame | ⟨hassigned, -⟩
  · rw [hsame]
  · exact hassigned.others (attempt a) (by simpa using h) nofun nofun

/-- A round only touches the Attempts that it decides on. -/
theorem fetch_carryOut {a : Uuid} (h : a ∉ decisions.map Prod.snd) :
    fetch (carryOut now decisions db) (attempt a) = fetch db (attempt a) := by
  induction decisions generalizing db with
  | nil => rfl
  | cons x decisions ih =>
    rw [List.map_cons, List.mem_cons, not_or] at h
    rw [carryOut_cons, ih h.2, fetch_tryAssign_applied h.1]

/-- After the first decision the identifiers of the others are still new. -/
theorem Fresh.next (h : Fresh db (x :: decisions)) :
    x.2 ∉ decisions.map Prod.snd ∧ Fresh (Op.apply (.tryAssign x.1 x.2 now true) db) decisions := by
  have hnodup := h.nodup
  rw [List.map_cons, List.nodup_cons] at hnodup
  refine ⟨hnodup.1, hnodup.2, fun y hy => ?_⟩
  have hne : y.2 ≠ x.2 := fun heq => hnodup.1 (heq ▸ List.mem_map_of_mem hy)
  rw [fetch_tryAssign_applied hne]
  exact h.new y (List.mem_cons_of_mem _ hy)

/-- Where the database has all that they need, every decision creates its Attempt. -/
theorem Feasible.created (h : Feasible db decisions) (hids : Fresh db decisions) :
    ∀ x ∈ decisions, Created x (carryOut now decisions db) := by
  induction decisions generalizing db with
  | nil => exact fun x hx => absurd hx List.not_mem_nil
  | cons x decisions ih =>
    obtain ⟨q, hq, hslots⟩ := h.slots x List.mem_cons_self
    have hfree : q.claimedSlots < q.totalSlots := by
      rw [List.countP_cons, if_pos (decide_eq_true rfl)] at hslots
      omega
    have hassigned :=
      tryAssign_assigned (h.leasable x List.mem_cons_self) (hids.new x List.mem_cons_self) hq
      hfree now
    obtain ⟨hnot, hfresh⟩ := hids.next
    intro y hy
    rw [carryOut_cons]
    rcases List.mem_cons.1 hy with rfl | hy
    · obtain ⟨r, hr, -, hgen, -, hpool, -⟩ := hassigned.leased
      exact ⟨r, (fetch_carryOut hnot).trans hr, hgen, hpool⟩
    · exact ih (h.next hassigned) hfresh y hy

/-- Where every decision creates its Attempt, they are about different Generations, which all
    were queued. -/
theorem nodup_of_created (hids : Fresh db decisions)
    (h : ∀ x ∈ decisions, Created x (carryOut now decisions db)) :
    (decisions.map fun x => x.1.generationId).Nodup ∧ ∀ x ∈ decisions, ∃ row : GenerationRow,
      fetch db (generation x.1.generationId) = some row ∧ row.state = .queued := by
  induction decisions generalizing db with
  | nil => exact ⟨List.nodup_nil, fun x hx => absurd hx List.not_mem_nil⟩
  | cons x decisions ih =>
    obtain ⟨hnot, hfresh⟩ := hids.next
    obtain ⟨hnodup, hqueued⟩ := ih hfresh fun y hy => h y (List.mem_cons_of_mem _ hy)
    -- the first Attempt was created by the first decision
    obtain ⟨r, hr, -⟩ := h x List.mem_cons_self
    rw [carryOut_cons, fetch_carryOut hnot] at hr
    rcases tryAssign_applied x.1 x.2 now db with hsame | ⟨hassigned, hfirst⟩
    · rw [hsame, hids.new x List.mem_cons_self] at hr
      cases hr
    have hne : ∀ y ∈ decisions, y.1.generationId ≠ x.1.generationId := by
      intro y hy heq
      -- its Generation is running from then on
      obtain ⟨-, g, -, hg, hrunning, -⟩ := hassigned.running
      obtain ⟨row, hrow, hstate⟩ := hqueued y hy
      rw [heq] at hrow
      obtain rfl : g = row := Option.some_inj.1 (hg.symm.trans hrow)
      rw [hrunning] at hstate
      cases hstate
    refine ⟨List.nodup_cons.2 ⟨fun hmem => ?_, hnodup⟩, fun y hy => ?_⟩
    · obtain ⟨y, hy, heq⟩ := List.mem_map.1 hmem
      exact hne y hy heq
    · rcases List.mem_cons.1 hy with rfl | hy
      · exact hfirst
      · obtain ⟨row, hrow, hstate⟩ := hqueued y hy
        refine ⟨row, ?_, hstate⟩
        rw [← hrow]
        exact (hassigned.others (generation _) nofun (by simpa using hne y hy) nofun).symm

end Passes

/-! ## Passes -/

/-- The Generations of decisions are those of the plan. -/
theorem generationId_zip {plan : List SlotAssignment} {ids : List Uuid}
    (h : ids.length = plan.length) :
    (plan.zip ids).map (fun x => x.1.generationId) = plan.map SlotAssignment.generationId := by
  have hfst : (plan.zip ids).map Prod.fst = plan := List.map_fst_zip h.ge
  rw [← hfst, List.map_map, hfst]
  rfl

section Planned

variable [ManifestHash] {db : Db} {settings : TenantSettings} {now : Time} {isOnline : Uuid → Bool}
    {limit : ℕ}

/-- The candidates of the query have different identities. -/
theorem nodup_queued (limit : ℕ) (db : Db) :
    ((Generations.queued limit db).map Candidate.generationId).Nodup := by
  have hkeys : ((((db.generations.rows.filter fun e => e.2.state = .queued).insertionSort
      fun a b => a.2.createdAt ≤ b.2.createdAt).take limit).map Prod.fst).Nodup := by
    refine List.Nodup.sublist ((List.take_sublist _ _).map _) ?_
    refine (((List.perm_insertionSort _ _).map Prod.fst).nodup_iff).2 ?_
    exact db.generations.rows_nodup_keys.sublist (List.filter_sublist.map _)
  rw [List.Nodup, List.pairwise_map] at hkeys ⊢
  refine List.Pairwise.filterMap _ (fun e e' hne c hc c' hc' => ?_) hkeys
  obtain ⟨_, -, rfl⟩ := Option.map_eq_some_iff.1 hc
  obtain ⟨_, -, rfl⟩ := Option.map_eq_some_iff.1 hc'
  exact hne

omit [ManifestHash] in
/-- The offers are of different Pools. -/
theorem nodup_capabilities (db : Db) : ((Workers.capabilities db).map (·.1.poolId)).Nodup := by
  rw [Workers.capabilities, List.map_map]
  exact db.devicePools.rows_nodup_keys.sublist (List.filter_sublist.map _)

/-- What a pass plans is a Pool's offer for a candidate. -/
theorem exists_of_planned {a : SlotAssignment} (ha : a ∈ planAssignments (Workers.capabilities db)
      (Generations.queued limit db) (NativeExclusions.excluded db) settings now isOnline) :
    ∃ offer ∈ Workers.capabilities db, ∃ c ∈ selectionFor (Generations.queued limit db)
      (NativeExclusions.excluded db) settings now isOnline offer, a = assignmentOf offer c := by
  obtain ⟨offer, hoffer, ha⟩ := List.mem_flatMap.1 ha
  rw [planPool_eq (nodup_queued limit db)] at ha
  obtain ⟨c, hc, rfl⟩ := List.mem_map.1 ha
  exact ⟨offer, hoffer, c, hc, rfl⟩

/-- The database of a pass has what its decisions need. -/
theorem leasable_of_planned (h : (life db).Budgeted ∧ (life db).Capped) {a : SlotAssignment}
    (ha : a ∈ planAssignments (Workers.capabilities db) (Generations.queued limit db)
      (NativeExclusions.excluded db) settings now isOnline) : Leasable db a := by
  obtain ⟨offer, hoffer, c, hc, rfl⟩ := exists_of_planned ha
  obtain ⟨hc, hspared, -⟩ := mem_of_selectionFor (nodup_queued limit db) hc
  obtain ⟨row, hrow, hqueued, hreq⟩ := Generations.exists_of_mem_queued hc
  obtain ⟨⟨p, pool⟩, hpool, rfl⟩ := List.mem_map.1 hoffer
  have hcount : row.attemptCount < maxAttempts := (h.1 _ row.life (life_gen_of_fetch hrow)).2 hqueued
  refine ⟨⟨row, hrow, hqueued, hcount, fun hmem => ?_, ?_⟩, ?_, hspared⟩
  · -- no number is beyond the count
    obtain ⟨b, hb⟩ := mem_attemptNumbers.1 hmem
    exact Nat.not_succ_le_self _ (h.2.1 _ row.life b _ (life_gen_of_fetch hrow) hb)
  · obtain ⟨v, hv, -⟩ := Option.bind_eq_some_iff.1 hreq
    exact Option.isSome_iff_exists.2 ⟨v, hv⟩
  · have hworker := (Bool.and_eq_true_iff.1 (List.mem_filter.1 hpool).2).2
    obtain ⟨w, hw, -⟩ := (Option.any_eq_true _ _).1 hworker
    exact Option.isSome_iff_exists.2 ⟨w, hw⟩

/-- A pass claims no more Slots of a Pool than are free. -/
theorem slots_of_planned {a : SlotAssignment} (ha : a ∈ planAssignments (Workers.capabilities db)
      (Generations.queued limit db) (NativeExclusions.excluded db) settings now isOnline) :
    ∃ q : DevicePoolRow, fetch db (devicePool a.poolId) = some q ∧
      q.claimedSlots + (planAssignments (Workers.capabilities db) (Generations.queued limit db)
        (NativeExclusions.excluded db) settings now isOnline).countP (fun b => b.poolId = a.poolId) ≤
          q.totalSlots := by
  obtain ⟨offer, hoffer, c, hc, rfl⟩ := exists_of_planned ha
  let selected :=
    selectionFor (Generations.queued limit db) (NativeExclusions.excluded db) settings now isOnline
  have hlength : (selected offer).length ≤ offer.2.1 :=
    length_selectionFor_le (nodup_queued limit db) offer
  have hown := filter_flatMap_of_mem (nodup_capabilities db) selected hoffer
  rw [← planAssignments_eq (nodup_queued limit db)] at hown
  obtain ⟨⟨p, pool⟩, hpool, rfl⟩ := List.mem_map.1 hoffer
  refine ⟨pool, Table.mem_rows.1 (List.mem_filter.1 hpool).1, ?_⟩
  rw [List.countP_eq_length_filter, assignmentOf, hown, List.length_map]
  have hfree : (selected _).length ≤ pool.totalSlots - pool.claimedSlots := hlength
  have := pool.claimed_within_total
  omega

/-- The decisions of an uncontended plan have all that they need. -/
theorem feasible_of_planned (h : (life db).Budgeted ∧ (life db).Capped) {ids : List Uuid}
    (hlength : ids.length = (planAssignments (Workers.capabilities db) (Generations.queued limit db)
      (NativeExclusions.excluded db) settings now isOnline).length)
    (hnone : Uncontended (Workers.capabilities db) (Generations.queued limit db)
      (NativeExclusions.excluded db) settings now isOnline) :
    Feasible db ((planAssignments (Workers.capabilities db) (Generations.queued limit db)
      (NativeExclusions.excluded db) settings now isOnline).zip ids) := by
  let plan := planAssignments (Workers.capabilities db) (Generations.queued limit db)
    (NativeExclusions.excluded db) settings now isOnline
  have hfst : (plan.zip ids).map Prod.fst = plan := List.map_fst_zip hlength.ge
  have hmem : ∀ x ∈ plan.zip ids, x.1 ∈ plan := fun x hx => (List.of_mem_zip hx).1
  refine ⟨fun x hx => leasable_of_planned h (hmem x hx), fun x hx => ?_, ?_⟩
  · obtain ⟨q, hq, hslots⟩ := slots_of_planned (hmem x hx)
    refine ⟨q, hq, ?_⟩
    have hcount : (plan.zip ids).countP (fun y => y.1.poolId = x.1.poolId) =
        plan.countP fun b => b.poolId = x.1.poolId := by
      rw [← hfst, List.countP_map, hfst]
      rfl
    rwa [hcount]
  · rw [generationId_zip hlength]
    exact (nodup_planAssignments_iff (nodup_queued limit db) _).2 hnone

end Planned

/-- The Pool of the decision is left with a free Slot because its Generation had just been given
    to another Pool, while another one that it could run is queued. -/
def LeftIdle [ManifestHash] (decisions : List Decision) (x : Decision) (db : Db) : Prop :=
  ¬ Created x db ∧
  (∃ y ∈ decisions, y.1.generationId = x.1.generationId ∧ y.1.poolId ≠ x.1.poolId ∧ Created y db) ∧
  (∃ q : DevicePoolRow, fetch db (devicePool x.1.poolId) = some q ∧ 0 < q.freeSlots) ∧
  ∃ (g : Uuid) (row : GenerationRow), g ≠ x.1.generationId ∧ fetch db (generation g) = some row ∧
    row.state = .queued ∧ CanRun db x.1.poolId g ∧ x.1.poolId ∉ NativeExclusions.excluded db g

/-- A plan spends no Generation twice exactly where no two Pools want the same one. When the plan of
    a reachable database is carried out with nothing in between, every decision creates its Attempt
    exactly then, and then no Pool is left idle for a Generation that another Pool was given. -/
theorem planned_once_iff [ManifestHash] :
    (∀ (capabilities : List (SlotCapability × ℕ × Uuid × String)) (candidates : List Candidate)
      (exclusions : Uuid → List Uuid) (settings : TenantSettings) (now : Time)
        (isOnline : Uuid → Bool),
      (candidates.map Candidate.generationId).Nodup →
      (((planAssignments capabilities candidates exclusions settings now isOnline).map
          SlotAssignment.generationId).Nodup ↔
        Uncontended capabilities candidates exclusions settings now isOnline)) ∧
    ∀ db : Db, Reaches db → ∀ onlineWorkers : List Uuid, onlineWorkers ≠ [] → ∀ now : Time,
      ∃ plan : List SlotAssignment, (trySchedule onlineWorkers now).run db = .ok (.commit plan, db) ∧
        ∀ ids : List Uuid, ids.length = plan.length → Fresh db (plan.zip ids) →
          ((∀ x ∈ plan.zip ids, Created x (carryOut now (plan.zip ids) db)) ↔
            Uncontended (Workers.capabilities db) (Generations.queued candidateFetchLimit db)
              (NativeExclusions.excluded db) (passSettings db) now (· ∈ onlineWorkers)) ∧
          (Uncontended (Workers.capabilities db) (Generations.queued candidateFetchLimit db)
              (NativeExclusions.excluded db) (passSettings db) now (· ∈ onlineWorkers) →
            ∀ x ∈ plan.zip ids, ¬ LeftIdle (plan.zip ids) x (carryOut now (plan.zip ids) db)) := by
  refine ⟨fun capabilities candidates exclusions settings now isOnline hids =>
    nodup_planAssignments_iff hids capabilities, fun db hreaches onlineWorkers hworkers now => ?_⟩
  refine ⟨_, trySchedule_run hworkers now db, fun ids hlength hfresh => ?_⟩
  have hids := nodup_queued candidateFetchLimit db
  have hnumbers := budgeted_capped_of_reachesBy hreaches
  have hcreated : Uncontended (Workers.capabilities db) (Generations.queued candidateFetchLimit db)
      (NativeExclusions.excluded db) (passSettings db) now (· ∈ onlineWorkers) →
      ∀ x ∈ _, Created x (carryOut now _ db) :=
        fun hnone => (feasible_of_planned hnumbers hlength hnone).created hfresh
  refine ⟨⟨fun h => ?_, hcreated⟩, fun hnone x hx hidle => hidle.1 (hcreated hnone x hx)⟩
  rw [← nodup_planAssignments_iff hids, ← generationId_zip hlength]
  exact (nodup_of_created hfresh h).1

/-! ## Two Pools and two Generations -/

namespace Sample

/-- The first Generation and a second one are queued. -/
def twoQueued : Db := after [.submit request 32 false (fun _ => false) 1 1]

/-- The decisions that a pass makes there with both Workers online, or with one. -/
theorem plan_twoQueued (onlineWorkers : List Uuid)
    (honline : onlineWorkers = [11, 12] ∨ onlineWorkers = [11]) :
    @planAssignments (Workers.capabilities twoQueued)
      (@Generations.queued manifestHash candidateFetchLimit twoQueued)
      (NativeExclusions.excluded twoQueued) (passSettings twoQueued) 2 (· ∈ onlineWorkers) =
      if onlineWorkers = [11] then [⟨11, 21, 31⟩] else [⟨12, 22, 31⟩, ⟨11, 21, 31⟩] := by
  rcases honline with rfl | rfl
  · decide +kernel
  · decide +kernel

end Sample

/-- With one Worker online the older Generation is leased to its Pool. -/
theorem planned_once_iff_single :
    (@trySchedule Sample.manifestHash [11] 2).run Sample.twoQueued =
      .ok (.commit [⟨11, 21, 31⟩], Sample.twoQueued) ∧
      Created (⟨11, 21, 31⟩, 41)
        (@carryOut Sample.manifestHash 2 [(⟨11, 21, 31⟩, 41)] Sample.twoQueued) := by
  let _ := Sample.manifestHash
  obtain ⟨hiff, hpass⟩ := planned_once_iff
  obtain ⟨plan, hrun, hplan⟩ :=
    hpass Sample.twoQueued (Sample.reaches_after _) [11] (List.cons_ne_nil _ _) 2
  have hknown := trySchedule_run (List.cons_ne_nil 11 []) 2 Sample.twoQueued
  rw [Sample.plan_twoQueued [11] (.inr rfl), if_pos rfl] at hknown
  obtain rfl : plan = [⟨11, 21, 31⟩] := by
    rw [hrun] at hknown
    cases hknown
    rfl
  have hnone :=
    (hiff (Workers.capabilities Sample.twoQueued) _ (NativeExclusions.excluded Sample.twoQueued)
    (passSettings Sample.twoQueued) 2 (· ∈ [11])
      (nodup_queued candidateFetchLimit Sample.twoQueued)).1 (by
      rw [Sample.plan_twoQueued [11] (.inr rfl), if_pos rfl]
      exact List.nodup_singleton _)
  have hfresh : Fresh Sample.twoQueued [(⟨11, 21, 31⟩, 41)] := ⟨by decide, by decide +kernel⟩
  exact ⟨hrun, ((hplan [41] rfl hfresh).1.2 hnone) _ List.mem_cons_self⟩

/-- With both Workers online it is planned for both Pools. The second decision creates no Attempt,
    and its Pool is left with a free Slot, while the other Generation waits. -/
theorem planned_twice :
    @Reaches Sample.manifestHash Sample.twoQueued ∧
    (@trySchedule Sample.manifestHash [11, 12] 2).run Sample.twoQueued =
      .ok (.commit [⟨12, 22, 31⟩, ⟨11, 21, 31⟩], Sample.twoQueued) ∧
    Fresh Sample.twoQueued [(⟨12, 22, 31⟩, 41), (⟨11, 21, 31⟩, 42)] ∧
    @LeftIdle Sample.manifestHash [(⟨12, 22, 31⟩, 41), (⟨11, 21, 31⟩, 42)] (⟨11, 21, 31⟩, 42)
      (@carryOut Sample.manifestHash 2 [(⟨12, 22, 31⟩, 41), (⟨11, 21, 31⟩, 42)]
        Sample.twoQueued) := by
  let _ := Sample.manifestHash
  have hrun := trySchedule_run (List.cons_ne_nil 11 [12]) 2 Sample.twoQueued
  rw [Sample.plan_twoQueued [11, 12] (.inl rfl), if_neg (by decide)] at hrun
  let db := carryOut 2 [(⟨12, 22, 31⟩, 41), (⟨11, 21, 31⟩, 42)] Sample.twoQueued
  have hcreated : ¬ Created (⟨11, 21, 31⟩, 42) db ∧ Created (⟨12, 22, 31⟩, 41) db := by decide +kernel
  have hpool : (fetch db (devicePool 21)).any fun q => 0 < q.freeSlots := by decide +kernel
  have hqueued : (fetch db (generation 32)).any fun row => row.state = .queued := by decide +kernel
  have hcan : CanRun db 21 32 ∧ 21 ∉ NativeExclusions.excluded db 32 := by decide +kernel
  obtain ⟨q, hq, hfree⟩ := (Option.any_eq_true _ _).1 hpool
  obtain ⟨row, hrow, hstate⟩ := (Option.any_eq_true _ _).1 hqueued
  refine ⟨Sample.reaches_after _, hrun, ⟨by decide, by decide +kernel⟩, hcreated.1, ?_,
    ⟨q, hq, of_decide_eq_true hfree⟩, ?_⟩
  · exact ⟨(⟨12, 22, 31⟩, 41), List.mem_cons_self, rfl, by decide, hcreated.2⟩
  · exact ⟨32, row, by decide, hrow, of_decide_eq_true hstate, hcan⟩

end Gpq
