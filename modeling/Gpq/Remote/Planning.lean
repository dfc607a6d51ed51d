import Mathlib.Data.List.MinMax
import Mathlib.Data.Prod.Lex
import Gpq.Remote.Scheduler

/-!
# Planning

A scheduling pass: which queued Generation goes to which Pool. Among the Generations that a
Slot is eligible for, an overdue one comes first, and otherwise a resident model, the priority
and the age decide (`selectNext`); the rest of the Pool's free Slots get Generations of the same
version (`selectBatch`). A pass does this for every Pool with a free Slot whose Worker is online
(`planAssignments`), over the oldest queued Generations (`trySchedule`).
-/

namespace Gpq

open Sql DbKey

/-- Times are compared first, and then identities. -/
instance : Preorder (Time ×ₗ Uuid) :=
  @Prod.Lex.instPreorder Time Uuid Int.instLinearOrder.toPreorder Nat.instPreorder

namespace Candidate

/-- How long the Generation has been queued. -/
def age (self : Candidate) (now : Time) : ℕ := (now - self.createdAt).toNat

/-- Its pinned version. -/
def version (self : Candidate) : ContentHash := self.requirement.version

/-- Older submissions come first. -/
def seniority (self : Candidate) : Time ×ₗ Uuid := toLex (self.createdAt, self.generationId)

/-- Higher priorities come first, and then older submissions. -/
def urgency (self : Candidate) : ℕ ×ₗ (Time ×ₗ Uuid) := toLex (9 - self.priority.val, self.seniority)

end Candidate

/-- Whether a Generation queued for `age` is overdue. -/
def TenantSettings.isOverdue (self : TenantSettings) (age : ℕ) : Bool := self.maximumQueueAge ≤ age

/-- Whether the Slot holds the required model in memory. -/
def SlotCapability.holdsResidentModel (self : SlotCapability) (requirement : Requirement) : Bool :=
  self.residentModel = some requirement.version

/-- The Slot asking for work. -/
structure SlotContext where
  capability : SlotCapability
  freeSlots : ℕ
  settings : TenantSettings
  now : Time

namespace SlotContext

/-- Whether the Slot can run the Generation. -/
def eligible (self : SlotContext) (candidate : Candidate) : Bool :=
  (self.capability.admits candidate.requirement).isOk

/-- Whether the Generation is overdue. -/
def isOverdue (self : SlotContext) (candidate : Candidate) : Bool :=
  self.settings.isOverdue (candidate.age self.now)

end SlotContext

/-- The next Generation for the Slot. -/
def selectNext (context : SlotContext) (candidates : List Candidate) : Option Candidate :=
  if context.freeSlots = 0 then none
  else
    let eligible := candidates.filter context.eligible
    -- overdue work ignores the resident model and the priority
    match (eligible.filter context.isOverdue).argmin Candidate.seniority with
    | some overdue => some overdue
    | none => eligible.argmin fun c =>
        toLex ((!context.capability.holdsResidentModel c.requirement).toNat, c.urgency)

/-- A batch of Generations for the Slot: the next one, and others of its version. -/
def selectBatch (context : SlotContext) (candidates : List Candidate) : List Candidate :=
  match selectNext context candidates with
  | none => []
  | some primary =>
    let companions := (candidates.filter fun c => c.generationId ≠ primary.generationId &&
      c.version = primary.version && context.eligible c).insertionSort
        fun a b => a.urgency ≤ b.urgency
    primary :: companions.take (context.freeSlots - 1)

/-- The decisions for one Pool, given with its free Slots, its Worker and its key. -/
def planPool (candidates : List Candidate) (exclusions : Uuid → List Uuid) (settings : TenantSettings)
    (now : Time) (isOnline : Uuid → Bool) : SlotCapability × ℕ × Uuid × String → List SlotAssignment
  | (capability, freeSlots, workerId, _) =>
    if freeSlots = 0 || !isOnline workerId then []
    else
      let context : SlotContext := { capability, freeSlots, settings, now }
      let poolRejected (c : Candidate) : Bool := capability.poolId ∈ exclusions c.generationId
      let selected := if candidates.any poolRejected then
          -- the filtered slice's choices are mapped back to the scheduler's snapshot
          (selectBatch context (candidates.filter fun c => !poolRejected c)).filterMap fun selected =>
            candidates.find? fun c => c.generationId = selected.generationId
        else selectBatch context candidates
      selected.map fun c => ⟨workerId, capability.poolId, c.generationId⟩

/-- The decisions of one pass. -/
def planAssignments (capabilities : List (SlotCapability × ℕ × Uuid × String))
    (candidates : List Candidate) (exclusions : Uuid → List Uuid) (settings : TenantSettings)
    (now : Time)
    (isOnline : Uuid → Bool) :
    List SlotAssignment :=
  capabilities.flatMap (planPool candidates exclusions settings now isOnline)

/-- How many queued Generations one pass considers. -/
def candidateFetchLimit : ℕ := 500

variable [ManifestHash]

/-- A scheduling pass up to its decisions, of which each is then a transaction of its own
    (`tryAssign`); `onlineWorkers` are the Tenant's Workers with a control session. -/
def trySchedule (onlineWorkers : List Uuid) (now : Time) : Body (Verdict (List SlotAssignment)) := do
  if onlineWorkers.isEmpty then return .rollback []
  let capabilities ← Workers.poolCapabilities
  let settings := (← tenantSettings).getD .default
  let candidates ← Generations.queuedCandidates candidateFetchLimit
  let exclusions ← .exec (.read fun db => NativeExclusions.excluded db)
  if candidates.isEmpty then return .commit []
  return .commit (planAssignments capabilities candidates exclusions settings now (· ∈ onlineWorkers))

end Gpq
