import Gpq.Lifecycle.Selection

/-!
# Plans

A pass gives every Pool that may get work the selection among the candidates that are not
excluded from it (`selectionFor`), and nothing to the others.

* `planPool_eq`: looking the choices of the filtered slice up again changes nothing;
* `planAssignments_spec`: the plan is made of these selections, Pool by Pool.
-/

namespace Gpq

/-- What a Pool is to get in a pass. -/
def selectionFor (candidates : List Candidate) (exclusions : Uuid → List Uuid)
    (settings : TenantSettings)
    (now : Time) (isOnline : Uuid → Bool) : SlotCapability × ℕ × Uuid × String → List Candidate
  | (capability, freeSlots, workerId, _) =>
    if freeSlots ≠ 0 ∧ isOnline workerId then
      selectBatch { capability, freeSlots, settings, now }
        (candidates.filter fun c => capability.poolId ∉ exclusions c.generationId)
    else []

/-- The decision that gives a Generation to a Pool. -/
def assignmentOf (offer : SlotCapability × ℕ × Uuid × String) (c : Candidate) : SlotAssignment :=
  ⟨offer.2.2.1, offer.1.poolId, c.generationId⟩

section

variable {candidates : List Candidate} {exclusions : Uuid → List Uuid} {settings : TenantSettings}
    {now : Time}
  {isOnline : Uuid → Bool}

/-- A candidate is found by its identity. -/
theorem find?_generationId (hids : (candidates.map Candidate.generationId).Nodup) {c : Candidate}
    (hc : c ∈ candidates) : (candidates.find? fun d => d.generationId = c.generationId) = some c := by
  have hsome : (candidates.find? fun d => d.generationId = c.generationId).isSome :=
    List.find?_isSome.2 ⟨c, hc, decide_eq_true rfl⟩
  obtain ⟨d, hd⟩ := Option.isSome_iff_exists.1 hsome
  have hid : d.generationId = c.generationId := by simpa using List.find?_some hd
  rw [hd, eq_of_generationId hids (List.mem_of_find?_eq_some hd) hc hid]

/-- Who is selected for a Pool is a candidate that the Pool admits, and does not exclude it. -/
theorem mem_of_selectionFor (hids : (candidates.map Candidate.generationId).Nodup)
    {offer : SlotCapability × ℕ × Uuid × String} {c : Candidate}
    (hc : c ∈ selectionFor candidates exclusions settings now isOnline offer) :
    c ∈ candidates ∧ offer.1.poolId ∉ exclusions c.generationId ∧
    (offer.1.admits c.requirement).isOk := by
  obtain ⟨capability, freeSlots, workerId, key⟩ := offer
  rw [selectionFor] at hc
  split at hc
  · obtain ⟨hmem, heligible⟩ :=
      (isBatch_selectBatch ((List.filter_sublist.map _).nodup hids)).eligible c hc
    obtain ⟨hmem, hnot⟩ := List.mem_filter.1 hmem
    exact ⟨hmem, of_decide_eq_true hnot, heligible⟩
  · exact absurd hc List.not_mem_nil

/-- No more are selected than there are free Slots. -/
theorem length_selectionFor_le (hids : (candidates.map Candidate.generationId).Nodup)
    (offer : SlotCapability × ℕ × Uuid × String) :
    (selectionFor candidates exclusions settings now isOnline offer).length ≤ offer.2.1 := by
  obtain ⟨capability, freeSlots, workerId, key⟩ := offer
  rw [selectionFor]
  split
  · exact (isBatch_selectBatch ((List.filter_sublist.map _).nodup hids)).length_le
  · exact Nat.zero_le _

/-- The decisions for a Pool are its selection, with exclusions and without. -/
theorem planPool_eq (hids : (candidates.map Candidate.generationId).Nodup)
    (offer : SlotCapability × ℕ × Uuid × String) :
    planPool candidates exclusions settings now isOnline offer =
      (selectionFor candidates exclusions settings now isOnline offer).map (assignmentOf offer) := by
  have hfound : ∀ c ∈ selectionFor candidates exclusions settings now isOnline offer,
      (candidates.find? fun d => d.generationId = c.generationId) = some c := fun c hc =>
    find?_generationId hids (mem_of_selectionFor hids hc).1
  obtain ⟨capability, freeSlots, workerId, key⟩ := offer
  by_cases hserves : freeSlots ≠ 0 ∧ isOnline workerId
  · have hserves' : ¬ (freeSlots = 0 || !isOnline workerId) = true := by simp [hserves.1, hserves.2]
    rw [selectionFor, if_pos hserves] at hfound ⊢
    dsimp only [planPool]
    rw [if_neg hserves']
    simp only [decide_not] at hfound ⊢
    split
    · rw [List.filterMap_congr hfound, List.filterMap_some]
      rfl
    · -- nothing is excluded, so nothing is filtered out
      rename_i hnone
      rw [List.filter_eq_self.2 fun c hc => ?_]
      · rfl
      · rw [List.any_eq_true] at hnone
        push Not at hnone
        simpa using hnone c hc
  · have hserves' : (freeSlots = 0 || !isOnline workerId) = true := by
      simpa [Decidable.or_iff_not_imp_left] using hserves
    rw [selectionFor, if_neg hserves]
    dsimp only [planPool]
    rw [if_pos hserves', List.map_nil]

/-- A plan is the selections, one Pool after the other. -/
theorem planAssignments_eq (hids : (candidates.map Candidate.generationId).Nodup)
    (capabilities : List (SlotCapability × ℕ × Uuid × String)) :
    planAssignments capabilities candidates exclusions settings now isOnline =
      capabilities.flatMap fun offer =>
      (selectionFor candidates exclusions settings now isOnline offer).map (assignmentOf offer) := by
  rw [planAssignments]
  exact List.flatMap_congr fun offer _ => planPool_eq hids offer

/-- Of decisions made Pool by Pool, those for one Pool are what was decided at its turn. -/
theorem filter_flatMap_of_mem {capabilities : List (SlotCapability × ℕ × Uuid × String)}
    (hpools : (capabilities.map (·.1.poolId)).Nodup)
    (f : SlotCapability × ℕ × Uuid × String → List Candidate)
    {offer : SlotCapability × ℕ × Uuid × String} (hoffer : offer ∈ capabilities) :
    ((capabilities.flatMap fun o => (f o).map (assignmentOf o)).filter fun a => a.poolId =
      offer.1.poolId) =
      (f offer).map (assignmentOf offer) := by
  have hown : ∀ o, (((f o).map (assignmentOf o)).filter fun a => a.poolId = offer.1.poolId) =
      if o.1.poolId = offer.1.poolId then (f o).map (assignmentOf o) else [] := by
    intro o
    split
    · rename_i heq
      refine List.filter_eq_self.2 fun a ha => ?_
      obtain ⟨c, -, rfl⟩ := List.mem_map.1 ha
      exact decide_eq_true heq
    · rename_i hne
      refine List.filter_eq_nil_iff.2 fun a ha h => ?_
      obtain ⟨c, -, rfl⟩ := List.mem_map.1 ha
      exact hne (of_decide_eq_true h)
  rw [List.filter_flatMap]
  simp only [hown]
  induction capabilities with
  | nil => exact absurd hoffer List.not_mem_nil
  | cons o rest ih =>
    rw [List.map_cons, List.nodup_cons] at hpools
    obtain ⟨hnew, hpools⟩ := hpools
    rw [List.flatMap_cons]
    rcases List.mem_cons.1 hoffer with rfl | hrest
    · -- no later Pool has this identity
      have hlater : ∀ o' ∈ rest, ¬ o'.1.poolId = offer.1.poolId := fun o' ho' heq =>
        hnew (heq ▸ List.mem_map_of_mem ho')
      rw [if_pos rfl, List.flatMap_eq_nil_iff.2 fun o' ho' => if_neg (hlater o' ho'), List.append_nil]
    · have hne : ¬ o.1.poolId = offer.1.poolId := fun heq =>
        hnew (heq ▸ List.mem_map_of_mem (f := fun o => o.1.poolId) hrest)
      rw [if_neg hne, List.nil_append, ih hpools hrest]

/-- A plan is made of the selections: each Pool that may get work gets what it is to get, in
    order and within its free Slots, and the others get nothing. -/
theorem planAssignments_spec (hids : (candidates.map Candidate.generationId).Nodup)
    (capabilities : List (SlotCapability × ℕ × Uuid × String)) :
    (planAssignments capabilities candidates exclusions settings now isOnline =
      capabilities.flatMap fun offer =>
      (selectionFor candidates exclusions settings now isOnline offer).map (assignmentOf offer)) ∧
    (∀ offer, (selectionFor candidates exclusions settings now isOnline offer).length ≤ offer.2.1 ∧
      (offer.2.1 = 0 ∨ ¬ isOnline offer.2.2.1 →
        planPool candidates exclusions settings now isOnline offer = [])) ∧
    ((capabilities.map (·.1.poolId)).Nodup → ∀ offer ∈ capabilities,
      ((planAssignments capabilities candidates exclusions settings now isOnline).filter fun a =>
        a.poolId = offer.1.poolId) =
        (selectionFor candidates exclusions settings now isOnline offer).map
          (assignmentOf offer)) := by
  refine ⟨planAssignments_eq hids capabilities,
    fun offer => ⟨length_selectionFor_le hids offer, fun hidle => ?_⟩,
      fun hpools offer hoffer => ?_⟩
  · have hidle' : ¬ (offer.2.1 ≠ 0 ∧ isOnline offer.2.2.1) := by
      rintro ⟨hfree, honline⟩
      rcases hidle with hfull | hoffline
      · exact hfree hfull
      · exact hoffline honline
    rw [planPool_eq hids, selectionFor, if_neg hidle', List.map_nil]
  · rw [planAssignments_eq hids]
    exact filter_flatMap_of_mem hpools _ hoffer

end

/-- A Generation that is excluded from one Pool goes to another. -/
theorem planAssignments_spec_excluded :
    let capabilities := [(Sample.slot 11 21, 2, 11, "alpha"), (Sample.slot 12 22, 1, 12, "beta")]
    let candidates := [Sample.queuedImage 33 0, Sample.queuedImage 32 0, Sample.queuedImage 31 0]
    let exclusions : Uuid → List Uuid := fun g => if g = 31 then [21] else []
    let plan := planAssignments capabilities candidates exclusions .default 0 fun _ => true
    plan.map (fun a => (a.poolId, a.generationId)) = [(21, 32), (21, 33), (22, 31)] ∧
    (∀ offer ∈ capabilities, (plan.filter fun a => a.poolId = offer.1.poolId) =
      (selectionFor candidates exclusions .default 0 (fun _ => true) offer).map
          (assignmentOf offer)) := by
  intro capabilities candidates exclusions plan
  obtain ⟨-, -, hpools⟩ :=
    @planAssignments_spec candidates exclusions .default 0 (fun _ => true) (by decide)
    capabilities
  exact ⟨by decide +kernel, hpools (by decide)⟩

end Gpq
