import Gpq.Lifecycle.Begun

/-!
# Leases

A lease is granted when an Attempt is created, and renewed by the heartbeats of its Worker that
name it (`heartbeat_yields`). Nothing else moves the end of a lease (`Op.granted`): where all
times are read from one clock, no lease ends later than one granted now, and a renewed one
does not end earlier than before (`heartbeat_renews`).
-/

namespace Gpq

open Sql DbKey Prog

/-- The lease was granted by then. -/
def GrantedBy (clock : Time) : (k : DbKey) → Db.Row k → Prop
  | .attempt _, r => r.leaseExpiresAt ≤ leaseExpiryFrom clock
  | _, _ => True

/-- The changes that grant no lease later than `clock`. -/
abbrev leaseRel (clock : Time) : RowRel Db := .preserving Db (GrantedBy clock)

/-- Every lease was granted by then. -/
def Granted (clock : Time) (db : Db) : Prop :=
  ∀ a r, fetch db (attempt a) = some r → r.leaseExpiresAt ≤ leaseExpiryFrom clock

/-- The catalogue is no Attempt. -/
theorem leaseRel_catalogued (clock : Time) : Catalogued (leaseRel clock) where
  row k _ _ hk := by
    cases k with
    | generation | artifact | attempt | idempotencyKey => cases hk
    | _ => exact fun _ _ _ => trivial
  cascade _ _ _ r hr := by cases hr

section Bodies

variable {α : Type} {clock : Time}

/-! ## Generations and Artifacts -/

theorem grantedBy_of_ne {k : DbKey} (hk : ∀ a, k ≠ attempt a) (r : Db.Row k) :
    GrantedBy clock k r := by
  cases k with
  | attempt a => exact absurd rfl (hk a)
  | _ => trivial

/-- Writes to a table that holds no Attempts. -/
theorem write_leases {f : Db → Except DbError (α × List (Write Db))}
    (h : ∀ db b ws, f db = .ok (b, ws) → ∀ w ∈ ws, ∀ a, w.1 ≠ attempt a) :
    (exec (.write f)).Keeps (leaseRel clock) :=
  keeps_write fun db b ws hws w hw _ r _ => grantedBy_of_ne (h db b ws hws w hw) r

theorem transition_leases (id : Uuid) (source : GenerationState → Bool)
    (f : GenerationRow → GenerationRow) :
    (exec (Generations.transition id source f)).Keeps (leaseRel clock) :=
      keeps_update fun _ _ _ _ _ => trivial

theorem updateArtifact_leases (id : Uuid) (guard : ArtifactRow → Bool)
    (f : ArtifactRow → ArtifactRow) :
    (exec (updateArtifact id guard f)).Keeps (leaseRel clock) := keeps_update fun _ _ _ _ _ => trivial

theorem releaseSlot_leases (p : Uuid) : (Workers.releaseSlot p).Keeps (leaseRel clock) :=
  .bind (keeps_update fun _ _ _ _ _ => trivial) fun _ => keeps_done _

/-- Nor are inputs. -/
theorem deleteInputs_leases (g : Uuid) :
    (Artifacts.deleteInputsForGeneration g).Keeps (leaseRel clock) := by
  refine write_leases fun db b ws hws w hw a => ?_
  cases hws
  obtain ⟨e, -, rfl⟩ := List.mem_map.1 hw
  exact nofun

theorem deleteInputsOnFail_leases (out : Option (Uuid × RetryDecision)) :
    (deleteInputsOnFail out).Keeps (leaseRel clock) := by
  unfold deleteInputsOnFail
  split
  · exact deleteInputs_leases _
  · exact keeps_done _

/-- Nor is an Artifact that is inserted. -/
theorem insertArtifact_leases (id : Uuid) (row : Except DbError ArtifactRow) :
    (exec (.write (Artifacts.insertion id row))).Keeps (leaseRel clock) := by
  refine write_leases fun db b ws hws w hw a => ?_
  obtain ⟨_, rfl, -⟩ := Artifacts.insertion_eq_ok hws
  rw [List.mem_singleton.1 hw]
  exact nofun

theorem setState_leases (id : Uuid) (target : ArtifactState) (now : Time) :
    (Artifacts.setState id target now).Keeps (leaseRel clock) := by
  refine .bind (keeps_read _) fun row => ?_
  cases row with
  | none => exact keeps_done _
  | some row =>
    dsimp only
    split
    · exact keeps_done _
    refine .bind (updateArtifact_leases ..) fun moved => ?_
    split
    · exact keeps_done _
    refine .bind (keeps_read _) fun row => ?_
    cases row <;> exact keeps_done _

theorem setRemoteLocalContent_leases (id : Uuid) (bytes : Bytes) (now time : Time) :
    (Artifacts.setRemoteLocalContent id bytes now time).Keeps (leaseRel clock) := by
  refine .bind (updateArtifact_leases ..) fun stored => .bind (keeps_read _) fun row => ?_
  cases stored <;> cases row <;> exact keeps_done _

theorem expireArtifacts_leases (now : Time) : (expireArtifacts now).Keeps (leaseRel clock) := by
  refine .bind (write_leases fun db b ws hws w hw a => ?_) fun _ => keeps_done _
  cases hws
  obtain ⟨e, -, rfl⟩ := List.mem_map.1 hw
  exact nofun

/-! ## Admissions -/

/-- An admission writes a Generation, Artifacts and a key. -/
theorem admitNew_leases (request : AdmissionRequest) (new : NewGeneration) (time : Time) :
    (admitNew request new time).Keeps (leaseRel clock) := by
  have hrest : ∀ linked : ℕ, (admitLinked request new linked).Keeps (leaseRel clock) := by
    intro linked
    rw [admitLinked]
    split
    · exact keeps_done _
    dsimp only
    split
    · refine .bind (Keeps.require (write_leases fun db b ws hws w hw a => ?_) _ _) fun _ =>
        keeps_done _
      split at hws
      · cases hws
      · cases hws
        rw [List.mem_singleton.1 hw]
        simp
    · exact keeps_done _
  refine .bind (Keeps.require (write_leases fun db b ws hws w hw a => ?_) _ _) fun _ => ?_
  · obtain ⟨-, _, rfl, -⟩ := Generations.insertion_eq_ok hws
    rw [List.mem_singleton.1 hw]
    simp
  dsimp only
  split
  · exact hrest 0
  · refine .bind (write_leases fun db b ws hws w hw a => ?_) hrest
    cases hws
    obtain ⟨e, -, rfl⟩ := List.mem_map.1 hw
    simp

theorem admitFresh_leases (request : AdmissionRequest) (id : Uuid) (uploaded : Uuid → Bool)
    (now time : Time) : (admitFresh request id uploaded now time).Keeps (leaseRel clock) := by
  refine .bind (keeps_read _) fun settings => ?_
  cases settings with
  | none => exact keeps_done _
  | some settings =>
    refine .bind (keeps_read _) fun nonterminal => ?_
    split
    · exact keeps_done _
    refine .bind (.require (keeps_read _) _ _) fun model => ?_
    cases model with
    | none => exact keeps_done _
    | some model =>
      dsimp only
      split
      · exact keeps_done _
      refine .bind (.forEach (fun i => .bind (keeps_read _) fun _ => keeps_done _) _) fun inputs => ?_
      split
      · exact keeps_done _
      · exact keeps_done _
      · exact admitNew_leases ..

/-- So an admission leaves all leases as they are. -/
theorem admitGeneration_leases (request : AdmissionRequest) (id : Uuid) (available : Bool)
    (uploaded : Uuid → Bool) (now time : Time) :
    (admitGeneration request id available uploaded now time).Keeps (leaseRel clock) := by
  unfold admitGeneration
  split
  · exact keeps_done _
  split
  · exact keeps_done _
  split
  · exact admitFresh_leases ..
  refine Keeps.bind (.bind (.require (keeps_read _) _ _) fun existing => ?_) fun replayed => ?_
  · cases existing with
    | none => exact keeps_done _
    | some row =>
      dsimp only
      split
      · exact keeps_done _
      · refine .bind (keeps_read _) fun found => ?_
        cases found <;> exact keeps_done _
  · split
    · exact keeps_done _
    · exact keeps_done _
    · exact admitFresh_leases ..

/-! ## Attempts -/

/-- An update that leaves the lease alone. -/
theorem updateAttempt_leases (id : Uuid) (guard : AttemptRow → Bool) (f : AttemptRow → AttemptRow)
    (hf : ∀ r, (f r).leaseExpiresAt = r.leaseExpiresAt) :
    (exec (updateAttempt id guard f)).Keeps (leaseRel clock) := by
  refine keeps_update fun r _ h r' hr' => ?_
  cases hr'
  exact (hf r).trans_le (h r rfl)

/-- Writes that only move an Attempt in its lifecycle, or delete it. -/
theorem writeAttempt_leases {f : Db → Except DbError (α × List (Write Db))}
    (h : ∀ db b ws, f db = .ok (b, ws) → ∀ w ∈ ws, ∃ a o, w = ⟨attempt a, o⟩ ∧
      ∀ r' ∈ o, ∃ r, fetch db (attempt a) = some r ∧ r'.leaseExpiresAt = r.leaseExpiresAt) :
    (exec (.write f)).Keeps (leaseRel clock) := by
  refine keeps_write fun db b ws hws w hw hgranted r' hr' => ?_
  obtain ⟨a, o, rfl, ho⟩ := h db b ws hws w hw
  obtain ⟨r, hr, hsame⟩ := ho r' hr'
  exact hsame.trans_le (hgranted r hr)

/-- An Attempt that ends keeps the expiry of its lease. -/
theorem finish_leases (id : Uuid) (w : Option Uuid) (target : AttemptState)
    (failure : Option Attempts.FailureDetails) (now : Time) :
    (Attempts.finish id w target failure now).Keeps (leaseRel clock) := by
  unfold Attempts.finish
  split
  · exact keeps_done _
  refine .bind (Keeps.require (keeps_updateReturning fun r _ h r' hr' => ?_) _ _) fun settled => ?_
  · cases hr'
    exact h r rfl
  cases settled with
  | none => exact keeps_done _
  | some p => exact .bind (releaseSlot_leases p) fun _ => keeps_done _

/-- So does one that succeeds. -/
theorem acceptResult_leases (id w : Uuid) (now : Time) :
    (Generations.acceptResult id w now).Keeps (leaseRel clock) := by
  refine .bind (keeps_lock _ _) fun lease => ?_
  cases lease with
  | none => exact keeps_done _
  | some lease =>
    refine .bind (keeps_lock _ _) fun row => ?_
    cases row with
    | none => exact keeps_done _
    | some row =>
      dsimp only
      split
      · exact keeps_done _
      split
      · exact keeps_done _
      split
      · exact keeps_done _
      split
      · exact keeps_done _
      exact .bind (updateAttempt_leases _ _ _ fun _ => rfl) fun _ =>
        .bind (releaseSlot_leases _) fun _ =>
        .bind (keeps_update fun _ _ _ _ _ => trivial) fun _ => keeps_done _

theorem recordAcceptedResult_leases (tenantId w id g : Uuid) (outputs : List AttemptOutput)
    (now : Time) :
    (recordAcceptedResult tenantId w id g outputs now).Keeps (leaseRel clock) := by
  refine .bind (.forEach (fun output => ?_) outputs) fun recorded => ?_
  · unfold recordReportedOutput
    split
    · dsimp only
      split
      · split
        · exact keeps_done _
        · exact .bind (insertArtifact_leases ..) fun _ => keeps_done _
      · split
        · exact keeps_done _
        · exact .bind (insertArtifact_leases ..) fun _ => keeps_done _
      · exact keeps_done _
    · exact keeps_done _
  · split
    · exact keeps_done _
    · exact .bind (deleteInputs_leases _) fun _ => keeps_done _

/-- A lease that is rejected is deleted. -/
theorem rejectLease_leases (id w : Uuid) (now : Time) :
    (Attempts.rejectLease id w now).Keeps (leaseRel clock) := by
  refine .bind (keeps_lock _ _) fun lease => ?_
  cases lease with
  | none => exact keeps_done _
  | some lease =>
    dsimp only
    split
    · exact keeps_done _
    refine .bind (keeps_lock _ _) fun row => ?_
    split
    · exact keeps_done _
    refine .bind (write_leases fun db b ws hws w hw a => ?_) fun _ =>
      .bind (writeAttempt_leases fun db b ws hws w hw => ?_) fun _ =>
        .bind (releaseSlot_leases _) fun _ =>
        .bind (keeps_update fun _ _ _ _ _ => trivial) fun _ => keeps_done _
    · rw [NativeExclusions.recorded_eq_ok hws w hw]
      simp
    · split at hws
      · cases hws
        cases hw
      split at hws
      · cases hws
      cases hws
      refine ⟨id, none, List.mem_singleton.1 hw, ?_⟩
      rintro _ ⟨⟩

/-- A cancellation that is acknowledged ends its Attempt, whose lease keeps its expiry. -/
theorem acknowledgeCancel_leases (id w : Uuid) (now : Time) :
    (Attempts.acknowledgeCancel id w now).Keeps (leaseRel clock) := by
  refine .bind (keeps_lock _ _) fun lock => ?_
  cases lock with
  | none => exact keeps_done _
  | some lock =>
    -- what follows the end of the Attempt
    have hrest : (do
        let settled ← Generations.finishCancelled lock.generationId now
        return if settled then some lock.generationId else none : Body (Option Uuid)).Keeps
          (leaseRel clock) :=
      .bind (transition_leases ..) fun _ => keeps_done _
    refine .bind (keeps_read _) fun row => ?_
    split
    · exact keeps_done _
    dsimp only
    split
    · refine .bind (writeAttempt_leases fun db b ws hws w hw => ?_) fun p => ?_
      · split at hws
        · rename_i hr _
          cases hws
          refine ⟨id, _, List.mem_singleton.1 hw, ?_⟩
          rintro _ ⟨⟩
          exact ⟨_, (Option.filter_eq_some_iff.1 hr).1, rfl⟩
        · cases hws
          cases hw
      · cases p with
        | none => exact keeps_done _
        | some p => exact .bind (releaseSlot_leases p) fun _ => hrest
    · exact hrest

theorem cancelGeneration_leases (g : Uuid) (now : Time) :
    (cancelGeneration g now).Keeps (leaseRel clock) := by
  have hrest : (cancelRunning g).Keeps (leaseRel clock) := by
    rw [cancelRunning, cancelAnswer]
    refine .bind (.labelled (transition_leases ..) _) fun _ => .bind (keeps_read _) fun row => ?_
    cases row <;> exact keeps_done _
  refine .bind (transition_leases ..) fun cancelled => ?_
  dsimp only
  split
  · exact .bind (deleteInputs_leases g) fun _ => hrest
  · exact hrest

theorem requestCancel_leases (a : Uuid) (now : Time) :
    (Attempts.requestCancel a now).Keeps (leaseRel clock) := updateAttempt_leases a _ _ fun _ => rfl

/-- An Attempt that runs keeps the expiry of its lease. -/
theorem attemptRunning_leases (w : AuthenticatedWorker) (a : Uuid) (now : Time) :
    (tryHandleAttemptRunning w a now).Keeps (leaseRel clock) := by
  refine authenticated_keeps
    (.bind (writeAttempt_leases fun db b ws hws v hv => ?_) fun running => ?_)
  · split at hws
    · cases hws
      cases hv
    · rename_i r hr
      split at hws
      · cases hws
        cases hv
      · cases hws
        refine ⟨a, _, List.mem_singleton.1 hv, ?_⟩
        rintro _ ⟨⟩
        exact ⟨r, (Option.filter_eq_some_iff.1 hr).1, rfl⟩
  · split
    · exact keeps_done _
    refine .bind (keeps_read _) fun g => ?_
    cases g with
    | none => exact keeps_done _
    | some g => exact .bind (transition_leases ..) fun _ => keeps_done _

theorem attemptProgress_leases (w : AuthenticatedWorker) (a : Uuid) (progress : ProgressSnapshot)
    (now : Time) : (tryHandleAttemptProgress w a progress now).Keeps (leaseRel clock) := by
  refine authenticated_keeps (.bind (keeps_read _) fun g => ?_)
  cases g with
  | none => exact keeps_done _
  | some g => exact .bind (.require (keeps_update fun _ _ _ _ _ => trivial) _ _) fun _ => keeps_done _

theorem propagateCancellations_leases (now : Time) :
    (propagateCancellations now).Keeps (leaseRel clock) :=
  .bind (keeps_read _) fun cancelling =>
    .bind (.forEach (fun a => requestCancel_leases a now) cancelling) fun _ => keeps_done _

variable [ManifestHash]

/-- What follows the end of an Attempt is about its Generation. -/
theorem finishAndDecide_leases (id : Uuid) (w : Option Uuid) (target : AttemptState)
    (failure : Attempts.FailureDetails) (now : Time) :
    (Attempts.finishAndDecide id w target failure now).Keeps (leaseRel clock) := by
  refine .bind (keeps_read _) fun g => ?_
  cases g with
  | none => exact keeps_done _
  | some g =>
    refine .bind (finish_leases ..) fun settled => ?_
    split
    · exact keeps_done _
    refine .bind (keeps_tryRead _) fun row => ?_
    split
    · exact .bind (transition_leases ..) fun _ => keeps_done _
    refine .bind (keeps_read _) fun requirement => .bind (keeps_read _) fun excluded =>
      .bind (keeps_read _) fun capabilities => ?_
    dsimp only
    split
    · exact .bind (.labelled (transition_leases ..) _) fun _ => keeps_done _
    · exact .bind (.require (transition_leases ..) _ _) fun _ => keeps_done _

theorem settleAttemptFailure_leases (w : AuthenticatedWorker) (id : Uuid)
    (failure : Attempts.FailureDetails) (now : Time) :
    (settleAttemptFailure w id failure now).Keeps (leaseRel clock) := by
  refine authenticated_keeps (.bind (finishAndDecide_leases ..) fun out => ?_)
  dsimp only
  split
  · exact .bind (deleteInputs_leases _) fun _ => keeps_done _
  · exact keeps_done _

theorem attemptResult_leases (w : AuthenticatedWorker) (id : Uuid) (outputs : List AttemptOutput)
    (now : Time) : (tryHandleAttemptResult w id outputs now).Keeps (leaseRel clock) := by
  refine .bind (keeps_tryRead _) fun loaded => ?_
  dsimp only
  split
  · refine .bind (settleAttemptFailure_leases ..) fun v => ?_
    cases v <;> exact keeps_done _
  · refine authenticated_keeps (.bind (acceptResult_leases ..) fun out => ?_)
    cases out with
    | accepted g => exact recordAcceptedResult_leases ..
    | _ => exact keeps_done _

omit [ManifestHash] in
theorem cancelAcknowledged_leases (w : AuthenticatedWorker) (a : Uuid) (now : Time) :
    (tryHandleCancelAcknowledged w a now).Keeps (leaseRel clock) := by
  refine authenticated_keeps (.bind (acknowledgeCancel_leases ..) fun out => ?_)
  cases out with
  | none => exact keeps_done _
  | some g => exact .bind (deleteInputs_leases g) fun _ => keeps_done _

theorem expireLeases_leases (now : Time) (skip : Uuid → Bool) :
    (expireLeases now skip).Keeps (leaseRel clock) :=
  .bind (keeps_lockAll _ _) fun expired => .bind (.forEach (fun a =>
    .bind (requestCancel_leases a now) fun _ =>
      .bind (finishAndDecide_leases ..) deleteInputsOnFail_leases) expired) fun _ => keeps_done _

theorem enforceExecutionDeadlines_leases (now : Time) (skip : Uuid → Bool) :
    (enforceExecutionDeadlines now skip).Keeps (leaseRel clock) :=
  .bind (keeps_lockAll _ _) fun overdue => .bind (.forEach (fun _ =>
    .bind (finishAndDecide_leases ..) deleteInputsOnFail_leases) overdue) fun _ => keeps_done _

theorem expireStarvedQueue_leases (now : Time) : (expireStarvedQueue now).Keeps (leaseRel clock) := by
  refine .bind (keeps_read _) fun settings => .bind (keeps_read _) fun candidates => ?_
  split
  · exact keeps_done _
  refine .bind (keeps_read _) fun capabilities => .bind (keeps_read _) fun exclusions =>
    .bind (.forEach (fun candidate => ?_) _) fun _ => keeps_done _
  split
  · refine .bind (transition_leases ..) fun expired => ?_
    split
    · exact deleteInputs_leases _
    · exact keeps_done _
  · exact keeps_done _

/-! ## Grants -/

omit [ManifestHash] in
/-- A lease that ends no later than one granted at `clock`. -/
theorem create_leases (a g w p : Uuid) (slotKey : String) {leaseExpiry : Time} (now : Time)
    (hexpiry : leaseExpiry ≤ leaseExpiryFrom clock) :
    (Attempts.create a g w p slotKey leaseExpiry now).Keeps (leaseRel clock) := by
  refine .bind (keeps_lock _ _) fun row => ?_
  cases row with
  | none => exact keeps_done _
  | some row =>
    dsimp only
    split
    · exact keeps_done _
    refine .bind (keeps_read _) fun excluded => ?_
    split
    · exact keeps_done _
    split
    · exact keeps_done _
    refine .bind (Keeps.require (keeps_write fun db b ws hws w hw => ?_) _ _) fun _ =>
      .bind (keeps_update fun _ _ _ _ _ => trivial) fun _ => keeps_done _
    split at hws
    · split at hws
      · cases hws
      split at hws
      · cases hws
      cases hws
      rw [List.mem_singleton.1 hw]
      rintro - _ ⟨⟩
      exact hexpiry
    · cases hws

omit [ManifestHash] in
/-- A new lease runs out its TTL after now. -/
theorem tryAssign_leases (assignment : SlotAssignment) (a : Uuid) {now : Time} (sent : Bool)
    (hnow : now ≤ clock) : (tryAssign assignment a now sent).Keeps (leaseRel clock) := by
  refine .bind (keeps_read _) fun excluded => ?_
  split
  · exact keeps_done _
  refine .bind (keeps_update fun _ _ _ _ _ => trivial) fun claimed => ?_
  split
  · exact keeps_done _
  refine .bind (create_leases _ _ _ _ _ _ (add_le_add_left hnow _)) fun created => ?_
  split
  · exact keeps_done _
  refine .bind (transition_leases ..) fun _ => .bind (keeps_read _) fun row => ?_
  cases row with
  | none => exact keeps_done _
  | some row =>
    refine .bind (keeps_read _) fun version => ?_
    split
    · exact keeps_done _
    split
    · exact keeps_done _
    · exact keeps_done _

omit [ManifestHash] in
/-- A lease that is renewed runs out its TTL after the database's clock. -/
theorem heartbeat_leases (w : Uuid) (ids : List Uuid) (now : Time) {time : Time}
    (htime : time ≤ clock) :
    (Attempts.heartbeat w ids now time).Keeps (leaseRel clock) := by
  unfold Attempts.heartbeat
  split
  · exact keeps_done _
  refine keeps_write fun db b ws hws v hv => ?_
  cases hws
  obtain ⟨e, -, rfl⟩ := List.mem_map.1 hv
  rintro - _ ⟨⟩
  change time + (now + leaseTtl - now) ≤ clock + leaseTtl
  -- what is added is the TTL, whatever now was
  rw [add_sub_cancel_left]
  exact add_le_add_left htime _

end Bodies

/-! ## One clock -/

/-- The times that an operation reads, in order. -/
def Op.readings : Op → List Time
  | .deleteTenant now | .revokeWorker _ now | .createInput _ _ _ _ now | .setArtifactState _ _ now
  | .tryAssign _ _ now _ | .cancelGeneration _ now | .attemptRunning _ _ now
  | .attemptProgress _ _ _ now | .attemptResult _ _ _ now | .attemptFailed _ _ _ now
  | .leaseRejected _ _ now
  | .cancelAcknowledged _ _ now | .expireLeases now _ | .enforceExecutionDeadlines now _
  | .propagateCancellations now | .expireStarvedQueue now | .expireArtifacts now => [now]
  | .beginDelivery _ clock => [clock]
  | .setRemoteLocalContent _ _ now clock | .submit _ _ _ _ now clock | .heartbeat _ _ now clock =>
    [now, clock]
  | .updateSettings _ | .enroll _ _ _ | .setModelAlias _ _ | .deleteModelAlias _ | .commitOffset _ _
  | .capabilityReport _ _ => []

section Clock

variable {α : Type} {clock : Time} {db : Db}

theorem Granted.commit (h : Granted clock db) {p : Body (Verdict α)} (hp : p.Keeps (leaseRel clock)) :
    Granted clock (p.commit db) := by
  have hrel : (leaseRel clock).Of db (p.commit db) := Ensures.commit
    (Ensures.mono (hp.ensures db) fun _ _ hs _ _ => hs) (RowRel.of_refl db)
  exact fun a r hr => hrel (attempt a) (fun r' hr' => h a r' hr') r hr

variable [ManifestHash]

/-- An operation grants no lease later than the times it reads. -/
theorem Op.granted (op : Op) (h : Granted clock db) (hclock : ∀ t ∈ op.readings, t ≤ clock) :
    Granted clock (op.apply db) := by
  have hcat := leaseRel_catalogued clock
  cases op with
  | deleteTenant now => exact h.commit (deleteTenant_keeps hcat now)
  | updateSettings settings => exact h.commit (committed_keeps (updateSettings_keeps hcat settings))
  | enroll id name credentialHash => exact h.commit (committed_keeps (enroll_keeps hcat ..))
  | revokeWorker id now => exact h.commit (committed_keeps (revokeWorker_keeps hcat id now))
  | setModelAlias aliasName version => exact h.commit (setModelAlias_keeps hcat ..)
  | deleteModelAlias aliasName => exact h.commit (deleteModelAlias_keeps hcat ..)
  | createInput id manifest placement objectKey now =>
    exact h.commit (committed_keeps (insertArtifact_leases id _))
  | setRemoteLocalContent id bytes now time =>
    exact h.commit (committed_keeps (setRemoteLocalContent_leases id bytes now time))
  | beginDelivery id time => exact h.commit (committed_keeps (updateArtifact_leases id _ _))
  | commitOffset id offset =>
    exact h.commit (committed_keeps ((updateArtifact_leases id _ _).require _ _))
  | setArtifactState id target now => exact h.commit (committed_keeps (setState_leases id target now))
  | submit request id available uploaded now time => exact h.commit (admitGeneration_leases ..)
  | tryAssign assignment a now sent =>
    exact h.commit (tryAssign_leases assignment a sent (hclock now (List.mem_singleton_self now)))
  | cancelGeneration g now => exact h.commit (cancelGeneration_leases g now)
  | capabilityReport w pools => exact h.commit (capabilityReport_keeps hcat w pools)
  | heartbeat w ids now time =>
    have htime := hclock time (List.mem_cons_of_mem now (List.mem_singleton_self time))
    exact h.commit
      (authenticated_keeps (.bind (heartbeat_leases _ ids now htime) fun _ => keeps_done _))
  | attemptRunning w a now => exact h.commit (attemptRunning_leases w a now)
  | attemptProgress w a progress now => exact h.commit (attemptProgress_leases w a progress now)
  | attemptResult w a outputs now => exact h.commit (attemptResult_leases w a outputs now)
  | attemptFailed w a failure now => exact h.commit (settleAttemptFailure_leases w a failure now)
  | leaseRejected w a now =>
    exact h.commit (authenticated_keeps (.bind (rejectLease_leases a _ now) fun _ => keeps_done _))
  | cancelAcknowledged w a now => exact h.commit (cancelAcknowledged_leases w a now)
  | expireLeases now skip => exact h.commit (expireLeases_leases now skip)
  | enforceExecutionDeadlines now skip => exact h.commit (enforceExecutionDeadlines_leases now skip)
  | propagateCancellations now => exact h.commit (propagateCancellations_leases now)
  | expireStarvedQueue now => exact h.commit (expireStarvedQueue_leases now)
  | expireArtifacts now => exact h.commit (expireArtifacts_leases now)

/-- In a run whose times are not after `clock`, no lease ends later than one granted then. -/
theorem granted_run (h : Granted clock db) (ops : List Op)
    (hclock : ∀ op ∈ ops, ∀ t ∈ op.readings, t ≤ clock) :
    Granted clock (Machine.run Op.apply db ops) := by
  induction ops generalizing db with
  | nil => exact h
  | cons op ops ih =>
    obtain ⟨hop, hops⟩ := List.forall_mem_cons.1 hclock
    exact ih (op.granted h hop) hops

omit [ManifestHash] in
theorem Granted.initial (tenantId : Uuid) : Granted clock (.initial tenantId) := by
  intro a r hr
  cases hr

end Clock

/-! ## Heartbeats -/

/-- The lease renewed at `clock`. -/
def AttemptRow.renewed (r : AttemptRow) (clock : Time) : AttemptRow :=
  { r with leaseExpiresAt := leaseExpiryFrom clock, lastHeartbeatAt := some clock }

/-- The Attempt is reported, is the Worker's, is leased or running, and its lease has not
    expired. -/
def Renews (workerId : Uuid) (ids : List Uuid) (clock : Time) (db : Db) (id : Uuid) : Prop :=
  id ∈ ids ∧ ∃ r, fetch db (attempt id) = some r ∧ r.workerId = workerId ∧
    (r.state = .leased ∨ r.state = .running) ∧ clock < r.leaseExpiresAt

section Heartbeat

variable {db : Db} {workerId : Uuid} {ids : List Uuid} {now clock : Time} {id : Uuid}

theorem AttemptState.isLive_iff {s : AttemptState} : s.isLive ↔ s = .leased ∨ s = .running := by
  cases s <;> simp [AttemptState.isLive]

theorem renewable_iff {r : AttemptRow} : Attempts.renewable workerId ids clock id r ↔
    id ∈ ids ∧ r.workerId = workerId ∧ (r.state = .leased ∨ r.state = .running) ∧
    clock < r.leaseExpiresAt := by
  rw [← AttemptState.isLive_iff]
  simp only [Attempts.renewable, Bool.and_eq_true, decide_eq_true_eq, gt_iff_lt]
  tauto

/-- A lease is renewed exactly if its row can be. -/
theorem renews_iff : Renews workerId ids clock db id ↔
    ∃ r, fetch db (attempt id) = some r ∧ Attempts.renewable workerId ids clock id r := by
  constructor
  · rintro ⟨hid, r, hr, h⟩
    exact ⟨r, hr, renewable_iff.2 ⟨hid, h⟩⟩
  · rintro ⟨r, hr, h⟩
    obtain ⟨hid, h⟩ := renewable_iff.1 h
    exact ⟨hid, r, hr, h⟩

instance : Decidable (Renews workerId ids clock db id) :=
  decidable_of_iff ((fetch db (attempt id)).any (Attempts.renewable workerId ids clock id))
    ((Option.any_eq_true _ _).trans renews_iff.symm)

/-- What a heartbeat writes. -/
def renewals (workerId : Uuid) (ids : List Uuid) (clock : Time) (db : Db) : List (Write Db) :=
  (db.attempts.rows.filter fun e => Attempts.renewable workerId ids clock e.1 e.2).map fun e =>
    ⟨attempt e.1, some (e.2.renewed clock)⟩

/-- A heartbeat writes the rows that can be renewed. -/
theorem mem_renewals {w : Write Db} : w ∈ renewals workerId ids clock db ↔
    ∃ id r, fetch db (attempt id) = some r ∧ Attempts.renewable workerId ids clock id r ∧
      w = ⟨attempt id, some (r.renewed clock)⟩ := by
  rw [renewals, List.mem_map]
  constructor
  · rintro ⟨⟨id, r⟩, he, rfl⟩
    obtain ⟨hr, hrenew⟩ := List.mem_filter.1 he
    exact ⟨id, r, Table.mem_rows.1 hr, hrenew, rfl⟩
  · rintro ⟨id, r, hr, hrenew, rfl⟩
    exact ⟨(id, r), List.mem_filter.2 ⟨Table.mem_rows.2 hr, hrenew⟩, rfl⟩

/-- A heartbeat never fails. -/
theorem run_heartbeat : (Attempts.heartbeat workerId ids now clock).run db =
    .ok (ids.filter (¬ Renews workerId ids clock db ·),
      applyAll db (renewals workerId ids clock db)) := by
  unfold Attempts.heartbeat
  split
  · rename_i hempty
    rw [List.isEmpty_iff] at hempty
    subst hempty
    have hnone : renewals workerId [] clock db = [] := by
      refine List.eq_nil_iff_forall_not_mem.2 fun w hw => ?_
      obtain ⟨id, r, -, hrenew, -⟩ := mem_renewals.1 hw
      exact List.not_mem_nil (renewable_iff.1 hrenew).1
    rw [hnone]
    rfl
  · have hexpiry : clock + (leaseExpiryFrom now - now) = leaseExpiryFrom clock := by
      rw [leaseExpiryFrom, leaseExpiryFrom, add_sub_cancel_left]
    have hfilter : ∀ id ∈ ids, decide (id ∉ (db.attempts.rows.filter fun e =>
        Attempts.renewable workerId ids clock e.1 e.2).map Prod.fst) =
          decide (¬ Renews workerId ids clock db id) := by
      intro id _
      refine decide_eq_decide.2 (not_congr ?_)
      rw [List.mem_map, renews_iff]
      constructor
      · rintro ⟨⟨id, r⟩, he, rfl⟩
        obtain ⟨hr, hrenew⟩ := List.mem_filter.1 he
        exact ⟨r, Table.mem_rows.1 hr, hrenew⟩
      · rintro ⟨r, hr, hrenew⟩
        exact ⟨(id, r), List.mem_filter.2 ⟨Table.mem_rows.2 hr, hrenew⟩, rfl⟩
    rw [hexpiry, ← List.filter_congr hfilter, renewals]
    rfl

/-- Every row is written once, so that what it is renewed to is what is found afterwards. -/
theorem fetch_renewals {r : AttemptRow} (h : Renews workerId ids clock db id)
    (hr : fetch db (attempt id) = some r) :
    fetch (applyAll db (renewals workerId ids clock db)) (attempt id) = some (r.renewed clock) := by
  obtain ⟨_, hr', hrenew⟩ := renews_iff.1 h
  obtain rfl := Option.some_inj.1 (hr'.symm.trans hr)
  refine fetch_applyAll_of_unique db (mem_renewals.2 ⟨id, _, hr, hrenew, rfl⟩) fun o ho => ?_
  obtain ⟨_, r', hr', -, he⟩ := mem_renewals.1 ho
  cases he
  obtain rfl := Option.some_inj.1 (hr'.symm.trans hr)
  rfl

theorem fetch_renewals_of_not {k : DbKey}
    (h : ∀ id, k = attempt id → ¬ Renews workerId ids clock db id) :
    fetch (applyAll db (renewals workerId ids clock db)) k = fetch db k := by
  refine fetch_applyAll_of_notMem db fun w hw hk => ?_
  obtain ⟨id, r, hr, hrenew, rfl⟩ := mem_renewals.1 hw
  exact h id hk.symm (renews_iff.2 ⟨r, hr, hrenew⟩)

/-- A heartbeat renews what can be renewed, and answers with the rest. -/
theorem heartbeat_yields {w : AuthenticatedWorker} (hw : w.isCurrent db) :
    (tryHandleHeartbeat w ids now clock).run db =
      .ok (.commit (ids.filter (¬ Renews w.workerId ids clock db ·)),
        applyAll db (renewals w.workerId ids clock db)) := by
  have hbody : (do return .commit (← Attempts.heartbeat w.workerId ids now clock) :
      Body (Verdict (List Uuid))).Yields (fun v db' =>
        v = .commit (ids.filter (¬ Renews w.workerId ids clock db ·)) ∧
          db' = applyAll db (renewals w.workerId ids clock db)) db :=
    yields_bind ⟨_, _, run_heartbeat, yields_done ⟨rfl, rfl⟩⟩
  obtain ⟨v, db', hrun, rfl, rfl⟩ := authenticated_yields hw hbody
  exact hrun

/-- One message for each report of an Attempt. -/
theorem countP_notRenewedCancelMessages (notRenewed : List Uuid) (id : Uuid) :
    (notRenewedCancelMessages notRenewed).countP (·.attemptId = displayUuid id) =
      notRenewed.count id := by
  rw [notRenewedCancelMessages, List.countP_map, List.count]
  refine List.countP_congr fun i _ => ?_
  simp only [Function.comp_apply, decide_eq_true_eq, beq_iff_eq]
  exact displayUuid_injective.eq_iff

/-- What is answered is each identifier that is not renewed, as often as it was asked for. -/
theorem count_notRenewed : (ids.filter (¬ Renews workerId ids clock db ·)).count id =
    if Renews workerId ids clock db id then 0 else ids.count id := by
  split
  · rename_i h
    refine List.count_eq_zero.2 fun hmem => ?_
    exact of_decide_eq_true (List.mem_filter.1 hmem).2 h
  · rename_i h
    exact List.count_filter (decide_eq_true h)

variable [ManifestHash]

/-- A heartbeat renews the reported Attempts that are live, the Worker's and not expired, and
    leaves every other row alone. It names the other reports, one message each. With one clock
    no lease ends earlier than before. -/
theorem heartbeat_renews (db : Db) (w : AuthenticatedWorker) (ids : List Uuid) (now clock : Time) :
    ∃ notRenewed db', (Attempts.heartbeat w.workerId ids now clock).run db = .ok (notRenewed, db') ∧
      (∀ id r, Renews w.workerId ids clock db id → fetch db (attempt id) = some r →
        fetch db' (attempt id) = some (r.renewed clock)) ∧
      (∀ k, (∀ id, k = attempt id → ¬ Renews w.workerId ids clock db id) → fetch db' k = fetch db k) ∧
      (∀ id r, fetch db (attempt id) = some r → r.leaseExpiresAt ≤ clock →
        fetch db' (attempt id) = some r) ∧
      notRenewed = ids.filter (¬ Renews w.workerId ids clock db ·) ∧
      (w.isCurrent db → (tryHandleHeartbeat w ids now clock).commit db = db' ∧
        ∀ id, (heartbeatCancels w ids now clock db).countP (·.attemptId = displayUuid id) =
          if Renews w.workerId ids clock db id then 0 else ids.count id) ∧
      ∀ tenantId ops, db = Machine.run Op.apply (.initial tenantId) ops →
        (∀ op ∈ ops, ∀ t ∈ op.readings, t ≤ clock) → ∀ id r, fetch db (attempt id) = some r →
          ∃ r', fetch db' (attempt id) = some r' ∧ r.leaseExpiresAt ≤ r'.leaseExpiresAt := by
  refine ⟨_, _, run_heartbeat, fun id r => fetch_renewals, fun k => fetch_renewals_of_not, ?_,
    rfl, ?_, ?_⟩
  · intro id r hr hexpired
    rw [fetch_renewals_of_not, hr]
    rintro _ ⟨⟩ ⟨-, r', hr', -, -, hlive⟩
    obtain rfl := Option.some_inj.1 (hr'.symm.trans hr)
    exact absurd hexpired (not_le.2 hlive)
  · intro hcurrent
    have hrun : (tryHandleHeartbeat w ids now clock).run db = _ := heartbeat_yields hcurrent
    rw [Prog.commit, heartbeatCancels, hrun]
    refine ⟨rfl, fun id => ?_⟩
    rw [countP_notRenewedCancelMessages, count_notRenewed]
  · rintro tenantId ops rfl hclock id r hr
    by_cases hrenews : Renews w.workerId ids clock (Machine.run Op.apply (.initial tenantId) ops) id
    · exact ⟨_, fetch_renewals hrenews hr, granted_run (.initial tenantId) ops hclock id r hr⟩
    · refine ⟨r, ?_, le_refl _⟩
      rw [fetch_renewals_of_not, hr]
      rintro _ ⟨⟩
      exact hrenews

end Heartbeat

end Gpq
