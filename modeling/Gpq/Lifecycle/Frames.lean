import Gpq.Lib.Rowwise
import Gpq.Lifecycle.Interleaving

/-!
# What settlements leave alone

The transactions that lease, settle, cancel and expire neither create nor delete a
Generation, keep its parameters, and end only what they say (`lifecycleRel`). They touch no
Artifact but the inputs of a Generation that ends, and the outputs of an accepted result.
-/

namespace Gpq

open Sql DbKey Prog

/-- Which Artifacts a body touches. -/
inductive Touch
  | nothing
  | outputs
  | deletions
  | unbegun
  | anything

/-- Whether the delivery of an Artifact has begun. -/
def ArtifactRow.begun (r : ArtifactRow) : Bool := r.state ≠ .pending && r.state ≠ .available

/-- How an Artifact changes that is no output whose delivery has begun. -/
structure LeavesBegun (o o' : Option ArtifactRow) : Prop where
  kept : ∀ r ∈ o, r.direction = .output → r.begun → o' = some r
  begins : ∀ r' ∈ o', r'.state = .delivering → o' = o
  fresh : ∀ r' ∈ o', r'.begun = false →
    r'.committedOffset = 0 ∨ ∃ r ∈ o, r.begun = false ∧ r'.committedOffset = r.committedOffset

theorem LeavesBegun.refl (o : Option ArtifactRow) : LeavesBegun o o where
  kept _ hr _ _ := hr
  begins _ _ _ := rfl
  fresh r hr hb := .inr ⟨r, hr, hb, rfl⟩

/-- Two steps that leave begun downloads alone are one. -/
theorem LeavesBegun.trans {o₁ o₂ o₃ : Option ArtifactRow} (h : LeavesBegun o₁ o₂)
    (h' : LeavesBegun o₂ o₃) : LeavesBegun o₁ o₃ where
  kept r hr hout hb := h'.kept r (h.kept r hr hout hb) hout hb
  begins r hr hd := by
    have he := h'.begins r hr hd
    exact he.trans (h.begins r (he ▸ hr) hd)
  fresh r hr hb := by
    -- what is begun at the end is fresh, or was begun in between
    rcases h'.fresh r hr hb with hzero | ⟨r₂, hr₂, hb₂, he⟩
    · exact .inl hzero
    rcases h.fresh r₂ hr₂ hb₂ with hzero | ⟨r₁, hr₁, hb₁, he'⟩
    · exact .inl (he.trans hzero)
    · exact .inr ⟨r₁, hr₁, hb₁, he.trans he'⟩

/-- How the row of an Artifact may change. -/
def Touch.Rel : Touch → Option ArtifactRow → Option ArtifactRow → Prop
  | nothing, o, o' => o' = o
  | outputs, o, o' => o' = o ∨ (∀ r ∈ o, r.direction = .output) ∧ ∀ r ∈ o', r.direction = .output
  | deletions, o, o' => o' = o ∨ o' = none
  | unbegun, o, o' => LeavesBegun o o'
  | anything, _, _ => True

/-- Inputs may be deleted. -/
def Touch.DeletesInputs (touch : Touch) : Prop :=
  ∀ r : ArtifactRow, r.direction = .input → touch.Rel (some r) none

/-- Outputs may be recorded. -/
def Touch.RecordsOutputs (touch : Touch) : Prop := ∀ r : ArtifactRow, r.direction = .output →
  r.state = .available → r.committedOffset = 0 → touch.Rel none (some r)

/-- An output may be recorded where outputs may be touched. -/
theorem Touch.outputs_recordsOutputs : Touch.outputs.RecordsOutputs := by
  intro r hout _ _
  refine Or.inr ⟨?_, ?_⟩
  · rintro r' ⟨⟩
  · rintro r' ⟨⟩
    exact hout

/-- No input was begun. -/
theorem Touch.unbegun_deletesInputs : Touch.unbegun.DeletesInputs := by
  intro r hin
  refine LeavesBegun.mk ?_ ?_ ?_
  · rintro r' ⟨⟩ hout
    cases hin.symm.trans hout
  · rintro r' ⟨⟩
  · rintro r' ⟨⟩

/-- An output that is recorded was not begun. -/
theorem Touch.unbegun_recordsOutputs : Touch.unbegun.RecordsOutputs := by
  intro r _ hstate hzero
  refine LeavesBegun.mk ?_ ?_ ?_
  · rintro r' ⟨⟩
  · rintro r' ⟨⟩ hd
    cases hstate.symm.trans hd
  · rintro r' ⟨⟩ _
    exact .inl hzero

/-- How the row of a Generation may change: it stays, with its parameters, and ends only
    where it may. -/
def Ages (ends : Prop) : Option GenerationRow → Option GenerationRow → Prop
  | none, o' => o' = none
  | some r, o' => ∃ r', o' = some r' ∧ r'.parameters = r.parameters ∧
      (r.state.isTerminal → r'.state.isTerminal) ∧ (r'.state.isTerminal → ends ∨ r.state.isTerminal)

theorem Ages.refl (ends : Prop) : ∀ o, Ages ends o o
  | none => rfl
  | some r => ⟨r, rfl, rfl, id, .inr⟩

theorem Ages.trans {ends : Prop} : ∀ {o₁ o₂ o₃}, Ages ends o₁ o₂ → Ages ends o₂ o₃ → Ages ends o₁ o₃
  | none, _, _, rfl, h => h
  | some _, _, _, ⟨_, rfl, hp, ht, he⟩, ⟨r₃, h₃, hp', ht', he'⟩ =>
    ⟨r₃, h₃, hp'.trans hp, ht' ∘ ht, fun h => (he' h).elim .inl he⟩

theorem Ages.mono {p q : Prop} (hpq : p → q) : ∀ {o o'}, Ages p o o' → Ages q o o'
  | none, _, h => h
  | some _, _, ⟨r', h, hp, ht, he⟩ => ⟨r', h, hp, ht, fun h => (he h).imp_left hpq⟩

/-- How a row may change where the Generations `ends` may end. -/
def LifecycleRel (ends : Uuid → Prop) (touch : Touch) :
    (k : DbKey) → Option (Db.Row k) → Option (Db.Row k) → Prop
  | .generation g, o, o' => Ages (ends g) o o'
  | .artifact _, o, o' => touch.Rel o o'
  | .tenant, o, o' => o' = o
  | _, _, _ => True

/-- The changes of a transaction that ends some Generations, and touches some Artifacts. -/
def lifecycleRel (ends : Uuid → Prop) (touch : Touch) : RowRel Db where
  rel := LifecycleRel ends touch
  refl k o := by
    cases k with
    | generation g => exact .refl _ o
    | artifact a => cases touch <;> first | exact rfl | exact .inl rfl | exact .refl o | trivial
    | tenant => rfl
    | _ => trivial
  trans k o₁ o₂ o₃ h h' := by
    cases k with
    | generation g => exact Ages.trans h h'
    | artifact a =>
      cases touch with
      | nothing => exact Eq.trans h' h
      | unbegun => exact LeavesBegun.trans h h'
      | anything => trivial
      | outputs =>
        rcases h with rfl | h
        · exact h'
        rcases h' with rfl | h'
        · exact .inr h
        · exact .inr ⟨h.1, h'.2⟩
      | deletions =>
        rcases h with rfl | rfl
        · exact h'
        rcases h' with rfl | rfl
        · exact .inr rfl
        · exact .inr rfl
    | tenant => exact Eq.trans h' h
    | _ => trivial

/-! ## Bodies -/

section Bodies

variable {ends : Uuid → Prop} {touch : Touch}

/-- Writes to other tables. -/
theorem keeps_write_other {α : Type} {f : Db → Except DbError (α × List (Write Db))}
    (h : ∀ db b ws, f db = .ok (b, ws) → ∀ w ∈ ws, ∃ i, w.1 = attempt i ∨ ∃ j, w.1 = rejection i j) :
    (exec (.write f)).Keeps (lifecycleRel ends touch) := by
  refine keeps_write fun db b ws hws w hw => ?_
  obtain ⟨k, r⟩ := w
  obtain ⟨i, rfl | ⟨j, rfl⟩⟩ := h db b ws hws _ hw
  · trivial
  · trivial

/-- A Generation that is moved was not over, and is over only where it may end. -/
theorem transition_keeps {id : Uuid} {source : GenerationState → Bool}
    {f : GenerationRow → GenerationRow} (hsource : ∀ s, source s → s.isTerminal = false)
    (hf : ∀ r, (f r).parameters = r.parameters) (hends : ∀ r, (f r).state.isTerminal → ends id) :
    (exec (Generations.transition id source f)).Keeps (lifecycleRel ends touch) := by
  refine keeps_update fun r hr => ⟨f r, rfl, hf r, fun ht => ?_, fun ht => .inl (hends r ht)⟩
  rw [hsource r.state hr] at ht
  cases ht

theorem markRunning_keeps (g : Uuid) (now : Time) :
    (Generations.markRunning g now).Keeps (lifecycleRel ends touch) :=
  transition_keeps (by rintro ⟨⟩ <;> decide) (fun _ => rfl) fun _ => nofun

theorem requeue_keeps (g : Uuid) : (Generations.requeue g).Keeps (lifecycleRel ends touch) := by
  refine .labelled (transition_keeps ?_ ?_ ?_) _
  · rintro ⟨⟩ <;> decide
  · exact fun _ => rfl
  · exact fun _ => nofun

theorem requestCancelRunning_keeps (g : Uuid) :
    (Generations.requestCancelRunning g).Keeps (lifecycleRel ends touch) := by
  refine .labelled (transition_keeps ?_ ?_ ?_) _
  · rintro ⟨⟩ <;> decide
  · exact fun _ => rfl
  · exact fun _ => nofun

section Ends

variable {g : Uuid} (hg : ends g)
include hg

theorem fail_keeps (kind : FailureKind) (message : String) (now : Time) :
    (Generations.fail g kind message now).Keeps (lifecycleRel ends touch) := by
  refine .require (transition_keeps ?_ ?_ fun _ _ => hg) _ _
  · rintro ⟨⟩ <;> decide
  · exact fun _ => rfl

theorem cancelQueued_keeps (now : Time) :
    (Generations.cancelQueued g now).Keeps (lifecycleRel ends touch) :=
  transition_keeps (by rintro ⟨⟩ <;> decide) (fun _ => rfl) fun _ _ => hg

theorem finishCancelled_keeps (now : Time) :
    (Generations.finishCancelled g now).Keeps (lifecycleRel ends touch) :=
  transition_keeps (by rintro ⟨⟩ <;> decide) (fun _ => rfl) fun _ _ => hg

theorem expire_keeps (now : Time) : (Generations.expire g now).Keeps (lifecycleRel ends touch) :=
  transition_keeps (by rintro ⟨⟩ <;> decide) (fun _ => rfl) fun _ _ => hg

end Ends

theorem updateAttempt_keeps (id : Uuid) (guard : AttemptRow → Bool) (f : AttemptRow → AttemptRow) :
    (exec (updateAttempt id guard f)).Keeps (lifecycleRel ends touch) :=
      keeps_update fun _ _ => trivial

theorem releaseSlot_keeps (p : Uuid) : (Workers.releaseSlot p).Keeps (lifecycleRel ends touch) :=
  .bind (keeps_update fun _ _ => trivial) fun _ => keeps_done _

/-- Inputs are deleted, and nothing else. -/
theorem deleteInputs_keeps (hdel : touch.DeletesInputs) (g : Uuid) :
    (Artifacts.deleteInputsForGeneration g).Keeps (lifecycleRel ends touch) := by
  refine keeps_write fun db b ws hws w hw => ?_
  cases hws
  obtain ⟨⟨a, r⟩, he, rfl⟩ := List.mem_map.1 hw
  obtain ⟨hr, hin⟩ := List.mem_filter.1 he
  have hr : fetch db (artifact a) = some r := Table.mem_rows.1 hr
  simp only [Bool.and_eq_true, decide_eq_true_eq] at hin
  change touch.Rel (fetch db (artifact a)) none
  rw [hr]
  exact hdel r hin.2

theorem authenticated_keeps {α : Type} {R : RowRel Db} {w : AuthenticatedWorker} {refused : α}
    {body : Body (Verdict α)} (h : body.Keeps R) : (authenticated w refused body).Keeps R := by
  refine .bind (.bind (keeps_lock _ _) fun _ => keeps_done _) fun ok => ?_
  split
  · exact keeps_done _
  · exact h

/-- To end an Attempt changes no Generation. -/
theorem finish_keeps (id : Uuid) (w : Option Uuid) (target : AttemptState)
    (failure : Option Attempts.FailureDetails) (now : Time) :
    (Attempts.finish id w target failure now).Keeps (lifecycleRel ends touch) := by
  unfold Attempts.finish
  split
  · exact keeps_done _
  refine .bind (Keeps.require (keeps_updateReturning fun _ _ => trivial) _ _) fun settled => ?_
  cases settled with
  | none => exact keeps_done _
  | some p => exact .bind (releaseSlot_keeps p) fun _ => keeps_done _

theorem deleteInputsOnFail_keeps (hdel : touch.DeletesInputs) (out : Option (Uuid × RetryDecision)) :
    (deleteInputsOnFail out).Keeps (lifecycleRel ends touch) := by
  unfold deleteInputsOnFail
  split
  · exact deleteInputs_keeps hdel _
  · exact keeps_done _

/-- A result that is accepted ends its Generation. -/
theorem acceptResult_keeps (hends : ∀ g, ends g) (id w : Uuid) (now : Time) :
    (Generations.acceptResult id w now).Keeps (lifecycleRel ends touch) := by
  refine .bind (keeps_lock _ _) fun lease => ?_
  cases lease with
  | none => exact keeps_done _
  | some lease =>
    refine .bind (keeps_lock _ _) fun row => ?_
    cases row with
    | none => exact keeps_done _
    | some row =>
      dsimp only
      split
      · exact keeps_done _
      split
      · exact keeps_done _
      split
      · exact keeps_done _
      split
      · exact keeps_done _
      -- the Attempt, its Slot, and the Generation
      refine .bind (keeps_update fun _ _ => trivial) fun _ => .bind (releaseSlot_keeps _) fun _ =>
        .bind (keeps_update fun r _ => ⟨_, rfl, rfl, fun _ => rfl, fun _ => .inl (hends _)⟩) fun _ =>
          keeps_done _

/-- An output that is recorded is new. -/
theorem recordReportedOutput_keeps (hrec : touch.RecordsOutputs) (tenantId w id g : Uuid)
    (output : AttemptOutput) (now : Time) :
    (recordReportedOutput tenantId w id g output now).Keeps (lifecycleRel ends touch) := by
  -- the record itself, wherever the output is
  have hrecord : ∀ (worker : Option Uuid) manifest placement objectKey token,
      (Artifacts.recordOutput output.artifactId g id worker manifest placement objectKey token
        now).Keeps
        (lifecycleRel ends touch) := by
    intro worker manifest placement objectKey token
    refine keeps_write fun db b ws hws w hw => ?_
    obtain ⟨r, rfl, hnew, hrow⟩ := Artifacts.insertion_eq_ok hws
    rw [List.mem_singleton.1 hw]
    obtain ⟨hout, hstate, -⟩ := Artifacts.outputRow_eq_ok hrow
    change touch.Rel (fetch db (artifact _)) (some r)
    rw [hnew]
    exact hrec r hout hstate (Artifacts.outputRow_committedOffset hrow)
  unfold recordReportedOutput
  split
  · dsimp only
    split
    · split
      · exact keeps_done _
      · exact .bind (hrecord ..) fun _ => keeps_done _
    · split
      · exact keeps_done _
      · exact .bind (hrecord ..) fun _ => keeps_done _
    · exact keeps_done _
  · exact keeps_done _

/-- What follows an accepted result records outputs and deletes inputs. -/
theorem recordAcceptedResult_keeps (hdel : touch.DeletesInputs) (hrec : touch.RecordsOutputs)
    (tenantId w id g : Uuid) (outputs : List AttemptOutput) (now : Time) :
    (recordAcceptedResult tenantId w id g outputs now).Keeps (lifecycleRel ends touch) := by
  refine .bind (.forEach (fun output => recordReportedOutput_keeps hrec _ _ _ _ output now) outputs)
    fun recorded => ?_
  split
  · exact keeps_done _
  · exact .bind (deleteInputs_keeps hdel _) fun _ => keeps_done _

/-- A lease that is rejected ends no Generation. -/
theorem rejectLease_keeps (id w : Uuid) (now : Time) :
    (Attempts.rejectLease id w now).Keeps (lifecycleRel ends touch) := by
  refine .bind (keeps_lock _ _) fun lease => ?_
  cases lease with
  | none => exact keeps_done _
  | some lease =>
    dsimp only
    split
    · exact keeps_done _
    refine .bind (keeps_lock _ _) fun row => ?_
    split
    · exact keeps_done _
    refine .bind (keeps_write_other fun db b ws hws w hw => ?_) fun _ =>
      .bind (keeps_write_other fun db b ws hws w hw => ?_) fun _ =>
        .bind (releaseSlot_keeps _) fun _ =>
        .bind (keeps_update fun r hr => ⟨_, rfl, rfl, fun ht => ?_, by rintro ⟨⟩⟩) fun _ =>
          keeps_done _
    · exact ⟨lease.generationId, .inr ⟨lease.poolId, NativeExclusions.recorded_eq_ok hws w hw⟩⟩
    · split at hws
      · cases hws
        cases hw
      · split at hws
        · cases hws
        · cases hws
          rw [List.mem_singleton.1 hw]
          exact ⟨id, .inl rfl⟩
    · -- a running Generation is not terminal
      rw [of_decide_eq_true hr] at ht
      cases ht

/-- A cancellation that is acknowledged ends its Generation. -/
theorem acknowledgeCancel_keeps (hends : ∀ g, ends g) (id w : Uuid) (now : Time) :
    (Attempts.acknowledgeCancel id w now).Keeps (lifecycleRel ends touch) := by
  refine .bind (keeps_lock _ _) fun lock => ?_
  cases lock with
  | none => exact keeps_done _
  | some lock =>
    have hrest : ∀ settled : Bool, (do
        return if settled then some lock.generationId else none : Body (Option Uuid)).Keeps
          (lifecycleRel ends touch) := fun _ => keeps_done _
    refine .bind (keeps_read _) fun row => ?_
    split
    · exact keeps_done _
    dsimp only
    split
    · refine .bind (keeps_write_other fun db b ws hws w hw => ?_) fun p => ?_
      · split at hws
        · cases hws
          rw [List.mem_singleton.1 hw]
          exact ⟨id, .inl rfl⟩
        · cases hws
          cases hw
      · cases p with
        | none => exact keeps_done _
        | some p => exact .bind (releaseSlot_keeps p) fun _ => .bind (finishCancelled_keeps
          (hends _) now) hrest
    · exact .bind (finishCancelled_keeps (hends _) now) hrest

/-- An Attempt that is created counts in its Generation. -/
theorem create_keeps (a g w p : Uuid) (slotKey : String) (leaseExpiry now : Time) :
    (Attempts.create a g w p slotKey leaseExpiry now).Keeps (lifecycleRel ends touch) := by
  refine .bind (keeps_lock _ _) fun row => ?_
  cases row with
  | none => exact keeps_done _
  | some row =>
    dsimp only
    split
    · exact keeps_done _
    refine .bind (keeps_read _) fun excluded => ?_
    split
    · exact keeps_done _
    split
    · exact keeps_done _
    refine .bind (Keeps.require (keeps_write_other fun db b ws hws w hw => ?_) _ _) fun _ =>
      .bind (keeps_update fun r _ => ⟨_, rfl, rfl, id, .inr⟩) fun _ => keeps_done _
    split at hws
    · split at hws
      · cases hws
      split at hws
      · cases hws
      cases hws
      rw [List.mem_singleton.1 hw]
      exact ⟨a, .inl rfl⟩
    · cases hws

/-- An assignment ends no Generation. -/
theorem tryAssign_keeps (assignment : SlotAssignment) (a : Uuid) (now : Time) (sent : Bool) :
    (tryAssign assignment a now sent).Keeps (lifecycleRel ends touch) := by
  refine .bind (keeps_read _) fun excluded => ?_
  split
  · exact keeps_done _
  refine .bind (keeps_update fun _ _ => trivial) fun claimed => ?_
  split
  · exact keeps_done _
  refine .bind (create_keeps ..) fun created => ?_
  split
  · exact keeps_done _
  refine .bind (markRunning_keeps ..) fun _ => .bind (keeps_read _) fun row => ?_
  cases row with
  | none => exact keeps_done _
  | some row =>
    refine .bind (keeps_read _) fun version => ?_
    split
    · exact keeps_done _
    split
    · exact keeps_done _
    · exact keeps_done _

/-- A cancellation ends the Generation that it is for. -/
theorem cancelGeneration_keeps (hdel : touch.DeletesInputs) {g : Uuid} (hg : ends g) (now : Time) :
    (cancelGeneration g now).Keeps (lifecycleRel ends touch) := by
  have hrest : (cancelRunning g).Keeps (lifecycleRel ends touch) := by
    rw [cancelRunning, cancelAnswer]
    refine .bind (requestCancelRunning_keeps g) fun _ => .bind (keeps_read _) fun row => ?_
    split
    · exact keeps_done _
    · exact keeps_done _
  refine .bind (cancelQueued_keeps hg now) fun cancelled => ?_
  dsimp only
  split
  · exact .bind (deleteInputs_keeps hdel g) fun _ => hrest
  · exact hrest

theorem requestCancel_keeps (a : Uuid) (now : Time) :
    (Attempts.requestCancel a now).Keeps (lifecycleRel ends touch) := updateAttempt_keeps a _ _

theorem heartbeat_keeps (w : Uuid) (ids : List Uuid) (now clock : Time) :
    (Attempts.heartbeat w ids now clock).Keeps (lifecycleRel ends touch) := by
  unfold Attempts.heartbeat
  split
  · exact keeps_done _
  refine keeps_write_other fun db b ws hws v hv => ?_
  cases hws
  obtain ⟨e, -, rfl⟩ := List.mem_map.1 hv
  exact ⟨e.1, .inl rfl⟩

theorem tryHandleHeartbeat_keeps (w : AuthenticatedWorker) (ids : List Uuid) (now clock : Time) :
    (tryHandleHeartbeat w ids now clock).Keeps (lifecycleRel ends touch) :=
  authenticated_keeps (.bind (heartbeat_keeps ..) fun _ => keeps_done _)

theorem leaseRejected_keeps (w : AuthenticatedWorker) (a : Uuid) (now : Time) :
    (tryHandleLeaseRejected w a now).Keeps (lifecycleRel ends touch) :=
  authenticated_keeps (.bind (rejectLease_keeps ..) fun _ => keeps_done _)

/-- An Attempt that runs ends no Generation. -/
theorem attemptRunning_keeps (w : AuthenticatedWorker) (a : Uuid) (now : Time) :
    (tryHandleAttemptRunning w a now).Keeps (lifecycleRel ends touch) := by
  refine authenticated_keeps (.bind (keeps_write_other fun db b ws hws v hv => ?_) fun running => ?_)
  · split at hws
    · cases hws
      cases hv
    · split at hws
      · cases hws
        cases hv
      · cases hws
        rw [List.mem_singleton.1 hv]
        exact ⟨a, .inl rfl⟩
  · split
    · exact keeps_done _
    refine .bind (keeps_read _) fun g => ?_
    cases g with
    | none => exact keeps_done _
    | some g => exact .bind (markRunning_keeps g now) fun _ => keeps_done _

/-- Nor does one that reports progress. -/
theorem attemptProgress_keeps (w : AuthenticatedWorker) (a : Uuid) (progress : ProgressSnapshot)
    (now : Time) : (tryHandleAttemptProgress w a progress now).Keeps (lifecycleRel ends touch) := by
  refine authenticated_keeps (.bind (keeps_read _) fun g => ?_)
  cases g with
  | none => exact keeps_done _
  | some g =>
    refine .bind (.require (keeps_update fun r _ => ?_) _ _) fun _ => keeps_done _
    exact ⟨_, rfl, rfl, id, .inr⟩

theorem propagateCancellations_keeps (now : Time) :
    (propagateCancellations now).Keeps (lifecycleRel ends touch) :=
  .bind (keeps_read _) fun cancelling =>
    .bind (.forEach (fun a => requestCancel_keeps a now) cancelling) fun _ => keeps_done _

variable [ManifestHash]

/-- To end an Attempt may end its Generation. -/
theorem finishAndDecide_keeps (hends : ∀ g, ends g) (id : Uuid) (w : Option Uuid)
    (target : AttemptState) (failure : Attempts.FailureDetails) (now : Time) :
    (Attempts.finishAndDecide id w target failure now).Keeps (lifecycleRel ends touch) := by
  refine .bind (keeps_read _) fun g => ?_
  cases g with
  | none => exact keeps_done _
  | some g =>
    refine .bind (finish_keeps ..) fun settled => ?_
    split
    · exact keeps_done _
    refine .bind (keeps_tryRead _) fun row => ?_
    split
    · exact .bind (finishCancelled_keeps (hends g) now) fun _ => keeps_done _
    refine .bind (keeps_read _) fun requirement => .bind (keeps_read _) fun excluded =>
      .bind (keeps_read _) fun capabilities => ?_
    dsimp only
    split
    · exact .bind (requeue_keeps g) fun _ => keeps_done _
    · exact .bind (fail_keeps (hends g) ..) fun _ => keeps_done _

section Sweeps

variable (hends : ∀ g, ends g) (hdel : touch.DeletesInputs)
include hends hdel

theorem settleAttemptFailure_keeps (w : AuthenticatedWorker) (id : Uuid)
    (failure : Attempts.FailureDetails) (now : Time) :
    (settleAttemptFailure w id failure now).Keeps (lifecycleRel ends touch) := by
  refine authenticated_keeps (.bind (finishAndDecide_keeps hends ..) fun out => ?_)
  dsimp only
  split
  · exact .bind (deleteInputs_keeps hdel _) fun _ => keeps_done _
  · exact keeps_done _

omit [ManifestHash] in
theorem cancelAcknowledged_keeps (w : AuthenticatedWorker) (a : Uuid) (now : Time) :
    (tryHandleCancelAcknowledged w a now).Keeps (lifecycleRel ends touch) := by
  refine authenticated_keeps (.bind (acknowledgeCancel_keeps hends ..) fun out => ?_)
  cases out with
  | none => exact keeps_done _
  | some g => exact .bind (deleteInputs_keeps hdel g) fun _ => keeps_done _

theorem expireLeases_keeps (now : Time) (skip : Uuid → Bool) :
    (expireLeases now skip).Keeps (lifecycleRel ends touch) :=
  .bind (keeps_lockAll _ _) fun expired => .bind (.forEach (fun a =>
    .bind (requestCancel_keeps a now) fun _ =>
      .bind (finishAndDecide_keeps hends ..) (deleteInputsOnFail_keeps hdel)) expired) fun _ =>
        keeps_done _

theorem enforceExecutionDeadlines_keeps (now : Time) (skip : Uuid → Bool) :
    (enforceExecutionDeadlines now skip).Keeps (lifecycleRel ends touch) :=
  .bind (keeps_lockAll _ _) fun overdue => .bind (.forEach (fun _ =>
    .bind (finishAndDecide_keeps hends ..) (deleteInputsOnFail_keeps hdel)) overdue) fun _ =>
      keeps_done _

/-- The sweep ends Generations and deletes their inputs. -/
theorem expireStarvedQueue_keeps (now : Time) :
    (expireStarvedQueue now).Keeps (lifecycleRel ends touch) := by
  refine .bind (keeps_read _) fun settings => .bind (keeps_read _) fun candidates => ?_
  split
  · exact keeps_done _
  refine .bind (keeps_read _) fun capabilities => .bind (keeps_read _) fun exclusions =>
    .bind (.forEach (fun candidate => ?_) _) fun _ => keeps_done _
  split
  · refine .bind (expire_keeps (hends _) now) fun expired => ?_
    split
    · exact deleteInputs_keeps hdel _
    · exact keeps_done _
  · exact keeps_done _

end Sweeps

/-- A result ends its Generation, records outputs and deletes inputs. -/
theorem attemptResult_keeps (hends : ∀ g, ends g) (hdel : touch.DeletesInputs)
    (hrec : touch.RecordsOutputs) (w : AuthenticatedWorker) (id : Uuid) (outputs : List AttemptOutput)
    (now : Time) : (tryHandleAttemptResult w id outputs now).Keeps (lifecycleRel ends touch) := by
  refine .bind (keeps_tryRead _) fun loaded => ?_
  dsimp only
  split
  · refine .bind (settleAttemptFailure_keeps hends hdel ..) fun v => ?_
    split
    · exact keeps_done _
    · exact keeps_done _
  · refine authenticated_keeps (.bind (acceptResult_keeps hends ..) fun out => ?_)
    cases out with
    | accepted g => exact recordAcceptedResult_keeps hdel hrec ..
    | _ => exact keeps_done _

/-- No transaction but an admission creates a Generation. -/
theorem Txn.body_keeps (t : Txn) : t.body.2.Keeps (lifecycleRel (fun _ => True) .anything) := by
  have hends : ∀ _ : Uuid, True := fun _ => trivial
  have hdel : Touch.anything.DeletesInputs := fun _ _ => trivial
  cases t with
  | settleAttemptFailure w a failure now =>
    exact settleAttemptFailure_keeps hends hdel w a failure now
  | expireLeases now skip => exact expireLeases_keeps hends hdel now skip
  | enforceExecutionDeadlines now skip => exact enforceExecutionDeadlines_keeps hends hdel now skip
  | cancelGeneration g now => exact cancelGeneration_keeps hdel trivial now
  | attemptResult w a outputs now =>
    exact attemptResult_keeps hends hdel (fun _ _ _ _ => trivial) w a outputs now
  | leaseRejected w a now => exact leaseRejected_keeps w a now
  | tryAssign assignment a now sent => exact tryAssign_keeps assignment a now sent
  | cancelAcknowledged w a now => exact cancelAcknowledged_keeps hends hdel w a now
  | attemptRunning w a now => exact attemptRunning_keeps w a now
  | heartbeat w ids now clock => exact tryHandleHeartbeat_keeps w ids now clock
  | propagateCancellations now => exact propagateCancellations_keeps now
  | expireStarvedQueue now => exact expireStarvedQueue_keeps hends hdel now

end Bodies

end Gpq
