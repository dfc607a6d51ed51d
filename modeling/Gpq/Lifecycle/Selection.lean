import Gpq.Lib.Ranking
import Gpq.Remote.Planning
import Gpq.Remote.System

/-!
# Selection

What a Slot gets is a matter of the set of candidates alone (`IsBatch`): its head is the
oldest overdue Generation, or else the first by residency, priority and age, and the others
are the most urgent ones of its version.

* `IsBatch.unique`: there is one such batch at most;
* `selectBatch_spec`: `selectBatch` returns it, in whatever order the candidates come.
-/

namespace Gpq

open Ranking

/-- What a Slot prefers while nothing is overdue: its resident model, and then urgency. -/
def SlotContext.preference (self : SlotContext) (c : Candidate) : ℕ ×ₗ (ℕ ×ₗ (Time ×ₗ Uuid)) :=
  toLex ((!self.capability.holdsResidentModel c.requirement).toNat, c.urgency)

/-- The candidates that the Slot is eligible for. -/
def SlotContext.offers (self : SlotContext) (candidates : List Candidate) : Set Candidate :=
  {c | c ∈ candidates ∧ self.eligible c}

/-- Those of them that are overdue. -/
def SlotContext.overdue (self : SlotContext) (candidates : List Candidate) : Set Candidate :=
  {c | c ∈ self.offers candidates ∧ self.isOverdue c}

/-- The first Generation for the Slot. -/
def SlotContext.IsPrimary (self : SlotContext) (candidates : List Candidate)
    (primary : Candidate) : Prop :=
  First Candidate.seniority (self.overdue candidates) primary ∨
    self.overdue candidates = ∅ ∧ First self.preference (self.offers candidates) primary

/-- The others that may go with it. -/
def SlotContext.companions (self : SlotContext) (candidates : List Candidate) (primary : Candidate) :
    Set Candidate :=
  {c | c ∈ self.offers candidates ∧ c.version = primary.version ∧ c ≠ primary}

/-- The batch that the Slot is to get. -/
structure IsBatch (context : SlotContext) (candidates : List Candidate) (batch : List Candidate) :
    Prop where
  length_le : batch.length ≤ context.freeSlots
  nodup : batch.Nodup
  eligible : ∀ c ∈ batch, c ∈ context.offers candidates
  version : ∀ c ∈ batch, ∀ d ∈ batch, c.version = d.version
  /-- It is empty only for want of a free Slot or of an eligible candidate. -/
  works : batch = [] → context.freeSlots = 0 ∨ context.offers candidates = ∅
  primary : ∀ primary ∈ batch.head?, context.IsPrimary candidates primary
  /-- The rest are the best of those that remain, in order. -/
  rest : ∀ primary ∈ batch.head?, Ranked Candidate.urgency (context.freeSlots - 1)
    (context.companions candidates primary) batch.tail

section

variable {context : SlotContext} {candidates : List Candidate} {c d : Candidate}

/-- Candidates with distinct identities are told apart by them. -/
theorem eq_of_generationId (hids : (candidates.map Candidate.generationId).Nodup)
    (hc : c ∈ candidates)
    (hd : d ∈ candidates) (h : c.generationId = d.generationId) : c = d :=
  List.inj_on_of_nodup_map hids hc hd h

theorem Candidate.generationId_of_urgency (h : c.urgency = d.urgency) :
    c.generationId = d.generationId := by
  have h := congrArg (fun k => (ofLex (ofLex k).2).2) h
  exact h

theorem injOn_seniority (hids : (candidates.map Candidate.generationId).Nodup) :
    Set.InjOn Candidate.seniority (context.overdue candidates) := fun _ hc _ hd h =>
  eq_of_generationId hids hc.1.1 hd.1.1 (congrArg (fun k => (ofLex k).2) h)

theorem injOn_preference (hids : (candidates.map Candidate.generationId).Nodup) :
    Set.InjOn context.preference (context.offers candidates) := fun _ hc _ hd h =>
  eq_of_generationId hids hc.1 hd.1
    (Candidate.generationId_of_urgency (congrArg (fun k => (ofLex k).2) h))

namespace IsBatch

variable {batch batch' : List Candidate}

/-- There is one first Generation of a batch: the oldest that is due, or else the one that comes
    first. -/
theorem primary_unique (hids : (candidates.map Candidate.generationId).Nodup)
    (hc : context.IsPrimary candidates c) (hd : context.IsPrimary candidates d) : c = d := by
  rcases hc with hc | ⟨hnone, hc⟩ <;> rcases hd with hd | ⟨hnone', hd⟩
  · exact hc.unique (injOn_seniority hids) hd
  · exact absurd hc.mem (hnone' ▸ Set.notMem_empty c)
  · exact absurd hd.mem (hnone ▸ Set.notMem_empty d)
  · exact hc.unique (injOn_preference hids) hd

/-- A free Slot and an eligible candidate leave nothing to choose about a batch being empty. -/
theorem ne_nil (h : IsBatch context candidates batch)
    (h' : IsBatch context candidates (c :: batch')) :
    batch ≠ [] := by
  intro hnil
  rcases h.works hnil with hfull | hnone
  · have := h'.length_le
    rw [hfull, List.length_cons] at this
    omega
  · exact absurd (h'.eligible c List.mem_cons_self) (hnone ▸ Set.notMem_empty c)

/-- So there is one batch. -/
theorem unique (hids : (candidates.map Candidate.generationId).Nodup)
    (h : IsBatch context candidates batch)
    (h' : IsBatch context candidates batch') : batch = batch' := by
  cases batch with
  | nil =>
    cases batch' with
    | nil => rfl
    | cons d rest' => exact absurd rfl (h.ne_nil h')
  | cons c rest =>
    cases batch' with
    | nil => exact absurd rfl (h'.ne_nil h)
    | cons d rest' =>
      obtain rfl : c = d := primary_unique hids (h.primary c rfl) (h'.primary d rfl)
      rw [show rest = rest' from (h.rest c rfl).unique (h'.rest c rfl)]

/-- A batch is about the set of candidates. -/
theorem congr {candidates' : List Candidate} (hmem : ∀ c, c ∈ candidates' ↔ c ∈ candidates)
    (h : IsBatch context candidates batch) : IsBatch context candidates' batch := by
  have hoffers : context.offers candidates' = context.offers candidates :=
    Set.ext fun c => and_congr_left fun _ => hmem c
  have hoverdue : context.overdue candidates' = context.overdue candidates := by
    rw [SlotContext.overdue, SlotContext.overdue, hoffers]
  constructor
  · exact h.length_le
  · exact h.nodup
  · rw [hoffers]
    exact h.eligible
  · exact h.version
  · rw [hoffers]
    exact h.works
  · intro primary hprimary
    rw [SlotContext.IsPrimary, hoffers, hoverdue]
    exact h.primary primary hprimary
  · intro primary hprimary
    rw [SlotContext.companions, hoffers]
    exact h.rest primary hprimary

end IsBatch

/-! ## The selection -/

/-- The next Generation, where a Slot is free. -/
theorem isPrimary_of_selectNext (h : selectNext context candidates = some c) :
    context.freeSlots ≠ 0 ∧ context.IsPrimary candidates c := by
  unfold selectNext at h
  split at h
  · cases h
  rename_i hfree
  refine ⟨hfree, ?_⟩
  dsimp only at h
  split at h
  · rename_i overdue hoverdue
    cases h
    have hfirst := first_of_argmin hoverdue
    simp only [List.mem_filter] at hfirst
    exact .inl hfirst
  · rename_i hnone
    have hfirst := first_of_argmin h
    simp only [List.mem_filter] at hfirst
    refine .inr ⟨?_, hfirst⟩
    rw [List.argmin_eq_none, List.filter_eq_nil_iff] at hnone
    refine Set.eq_empty_of_forall_notMem fun d hd => hnone d ?_ hd.2
    exact List.mem_filter.2 hd.1

/-- A free Slot gets a Generation where there is one for it. -/
theorem selectNext_eq_none (h : selectNext context candidates = none) :
    context.freeSlots = 0 ∨ context.offers candidates = ∅ := by
  unfold selectNext at h
  split at h
  · rename_i hfull
    exact .inl hfull
  · dsimp only at h
    split at h
    · cases h
    · rw [List.argmin_eq_none, List.filter_eq_nil_iff] at h
      exact .inr (Set.eq_empty_of_forall_notMem fun c hc => h c hc.1 hc.2)

theorem SlotContext.IsPrimary.offered (h : context.IsPrimary candidates c) :
    c ∈ context.offers candidates := by
  rcases h with h | ⟨-, h⟩
  · exact h.mem.1
  · exact h.mem

/-- What the scheduler selects is the batch. -/
theorem isBatch_selectBatch (hids : (candidates.map Candidate.generationId).Nodup) :
    IsBatch context candidates (selectBatch context candidates) := by
  unfold selectBatch
  cases hprimary : selectNext context candidates with
  | none =>
    have hidle := selectNext_eq_none hprimary
    exact ⟨Nat.zero_le _, List.nodup_nil, nofun, nofun, fun _ => hidle, nofun, nofun⟩
  | some primary =>
    obtain ⟨hfree, hprimary⟩ := isPrimary_of_selectNext hprimary
    dsimp only
    let remaining := candidates.filter fun c => c.generationId ≠ primary.generationId &&
      c.version = primary.version && context.eligible c
    -- the companions are those that are left, of the same version
    have hremaining : {c | c ∈ remaining} = context.companions candidates primary := by
      ext c
      simp only [remaining, Set.mem_ofPred_eq, List.mem_filter, Bool.and_eq_true, decide_eq_true_eq]
      constructor
      · rintro ⟨hmem, ⟨hne, hversion⟩, heligible⟩
        exact ⟨⟨hmem, heligible⟩, hversion, fun heq => hne (heq ▸ rfl)⟩
      · rintro ⟨⟨hmem, heligible⟩, hversion, hne⟩
        exact ⟨hmem,
          ⟨fun heq => hne (eq_of_generationId hids hmem hprimary.offered.1 heq), hversion⟩,
            heligible⟩
    have hranked := @ranked_take _ _ _ Candidate.urgency remaining (hids.of_map.filter _)
      (fun c hc d hd h => eq_of_generationId hids (List.mem_filter.1 hc).1 (List.mem_filter.1 hd).1
        (Candidate.generationId_of_urgency h)) (context.freeSlots - 1)
    rw [hremaining] at hranked
    let rest := (remaining.insertionSort fun a b => a.urgency ≤ b.urgency).take
      (context.freeSlots - 1)
    change IsBatch context candidates (primary :: rest)
    have hversion : ∀ c ∈ primary :: rest, c.version = primary.version := by
      intro c hc
      rcases List.mem_cons.1 hc with rfl | hc
      · rfl
      · exact (hranked.subset c hc).2.1
    refine ⟨?_, ?_, ?_, ?_, nofun, ?_, ?_⟩
    · -- no more than there are Slots: one goes to the first
      have hrest : rest.length ≤ context.freeSlots - 1 := hranked.length_le
      rw [List.length_cons]
      omega
    · exact List.nodup_cons.2 ⟨fun h => (hranked.subset primary h).2.2 rfl, hranked.nodup⟩
    · intro c hc
      rcases List.mem_cons.1 hc with rfl | hc
      · exact hprimary.offered
      · exact (hranked.subset c hc).1
    · exact fun c hc d hd => (hversion c hc).trans (hversion d hd).symm
    · rintro _ ⟨⟩
      exact hprimary
    · rintro _ ⟨⟩
      exact hranked

/-- What a Slot is given, whatever the order of the candidates. -/
theorem selectBatch_spec (hids : (candidates.map Candidate.generationId).Nodup) :
    IsBatch context candidates (selectBatch context candidates) ∧
    ∀ candidates', candidates'.Perm candidates →
      selectBatch context candidates' = selectBatch context candidates := by
  have hbatch : IsBatch context candidates (selectBatch context candidates) :=
    isBatch_selectBatch hids
  refine ⟨hbatch, fun candidates' hperm => ?_⟩
  have hids' : (candidates'.map Candidate.generationId).Nodup := (hperm.map _).nodup_iff.2 hids
  exact (isBatch_selectBatch hids').unique hids' (hbatch.congr fun c => hperm.mem_iff)

end

namespace Sample

/-- A Slot of a Pool that holds the model. -/
def slot (workerId poolId : Uuid) : SlotCapability where
  tenantId := 1
  workerId
  poolId
  slotId := poolId
  accelerator := "cuda"
  acceleratorVersion := "12.8"
  modelManifests := [(version, ⟨.qwenImage21, ∅, [], ⟨40, 0x40C00000#32, []⟩⟩)]
  imageLoras := []
  residentModel := none
  acceleratorMemoryBytes := none
  shapeLimits := {}

/-- A queued image. -/
def queuedImage (generationId : Uuid) (createdAt : Time) : Candidate where
  generationId
  createdAt
  priority := 5
  requirement := ⟨1, .image, version, [], ⟨1024, 1024, some 40, none⟩⟩

end Sample

/-- Of Generations of the same instant, the one with the smallest identity is first, and the
    others follow while Slots are free. -/
theorem selectBatch_spec_tied :
    let context : SlotContext := ⟨Sample.slot 11 21, 2, .default, 0⟩
    let candidates := [Sample.queuedImage 33 0, Sample.queuedImage 32 0, Sample.queuedImage 31 0]
    IsBatch context candidates (selectBatch context candidates) ∧
    selectBatch context candidates.reverse = selectBatch context candidates ∧
    (selectBatch context candidates).map Candidate.generationId = [31, 32] := by
  intro context candidates
  obtain ⟨hbatch, hperm⟩ := @selectBatch_spec context candidates (by decide)
  exact ⟨hbatch, hperm _ (List.reverse_perm _), by decide +kernel⟩

end Gpq
