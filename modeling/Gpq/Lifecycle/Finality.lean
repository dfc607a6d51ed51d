import Gpq.Lifecycle.Edges

/-!
# Finality

A terminal Generation, Attempt or Artifact never changes state again, whatever the
Remote does next (`state_changes_are_edges`). Each write moves a row along an edge, and
no edge leaves a terminal state; what remains is that a row which is there before and
after a transaction was there throughout. No transaction inserts a row with a state
after it deleted one, so its states have `Evolved` in two phases.
-/

namespace Gpq

open Sql DbKey Machine

/-- Every row that is there before and after keeps its state or moves along an edge. -/
def Edges (db db' : Db) : Prop :=
  ∀ k s s', stateOf db k = some s → stateOf db' k = some s' → s' = s ∨ s.canTransitionTo s'

/-- The stored states of two databases, one reached from the other by edges: rows are
    first only added, then only removed. -/
def Evolved (db db' : Db) : Prop :=
  ∃ db₁, Relation.ReflTransGen (StatesEvolve True False) db db₁ ∧
    Relation.ReflTransGen (StatesEvolve False True) db₁ db'

section Transactions

variable {α : Type} {db db' : Db} {grows shrinks : Prop}

theorem Evolved.refl (db : Db) : Evolved db db := ⟨db, .refl, .refl⟩

/-- A row that is there before and after made steps of its own machine. -/
theorem Evolved.steps (h : Evolved db db') {k : DbKey} {s s' : LifecycleState}
    (hs : stateOf db k = some s) (hs' : stateOf db' k = some s') :
    Relation.ReflTransGen StateEdge s s' := by
  obtain ⟨db₁, hgrow, hshrink⟩ := h
  exact Evolves.steps (hgrow.lift stateOf fun _ _ h => h) (hshrink.lift stateOf fun _ _ h => h) hs hs'

/-- What a body leaves that only adds rows. -/
theorem Edged.evolved_grow {p : Body (Verdict α)} (h : Edged True False p) (db : Db) :
    Evolved db (p.commit db) := by
  refine Prog.Ensures.commit ((h.path db).mono fun _ db' hpath _ _ => ?_) (.refl db)
  exact ⟨db', hpath, .refl⟩

/-- What a body leaves that only removes rows. -/
theorem Edged.evolved_shrink {p : Body (Verdict α)} (h : Edged False True p) (db : Db) :
    Evolved db (p.commit db) := by
  refine Prog.Ensures.commit ((h.path db).mono fun _ db' hpath _ _ => ?_) (.refl db)
  exact ⟨db, .refl, hpath⟩

theorem deleteTenant_edged (now : Time) : Edged grows shrinks (deleteTenant now) :=
  .bind (.update_same fun _ => rfl) fun _ => .done _

theorem updateSettings_edged (settings : TenantSettings) :
    Edged grows shrinks (updateSettings settings) :=
  .require (.require (.update_same fun _ => rfl))

theorem revokeWorker_edged (id : Uuid) (now : Time) :
    Edged grows shrinks (Workers.revokeWorker id now) :=
  .update_same fun _ => rfl

/-- A Worker that is enrolled has no state. -/
theorem enroll_edged (id : Uuid) (name : String) (credentialHash : Bytes) :
    Edged grows shrinks (Workers.enroll id name credentialHash) := by
  refine .require (.write_stateless fun db b ws hws v hv => ?_)
  obtain ⟨k, r, rfl⟩ : ∃ (k : Uuid) (r : WorkerRow), ws = [⟨worker k, some r⟩] := by
    repeat' split at hws
    all_goals cases hws
    all_goals exact ⟨_, _, rfl⟩
  obtain rfl := List.mem_singleton.1 hv
  rfl

/-- Nor has an alias. -/
theorem setModelAlias_edged (aliasName : String) (version : ContentHash) :
    Edged grows shrinks (Catalog.setModelAlias aliasName version) := by
  refine .bind (.read _) fun known => ?_
  split
  · exact .done _
  refine .bind (.require (.write_stateless fun db b ws hws v hv => ?_)) fun _ => .done _
  cases hws
  obtain rfl := List.mem_singleton.1 hv
  rfl

theorem deleteModelAlias_edged (aliasName : String) :
    Edged grows shrinks (Catalog.deleteModelAlias aliasName) := by
  refine .bind (.require (.write_stateless fun db b ws hws v hv => ?_)) fun _ => .done _
  split at hws
  · cases hws
    obtain rfl := List.mem_singleton.1 hv
    rfl
  · cases hws
    cases hv

theorem recordIdempotencyKey_edged (key : String) (digest : Bytes) (id : Uuid) :
    Edged grows shrinks (recordIdempotencyKey key digest id) := by
  refine .require (.write_stateless fun db b ws hws v hv => ?_)
  split at hws
  · cases hws
  · cases hws
    obtain rfl := List.mem_singleton.1 hv
    rfl

/-- An admission inserts its Generation; links and keys have no state. -/
theorem admitNew_edged (request : AdmissionRequest) (new : NewGeneration) (clock : Time) :
    Edged True shrinks (admitNew request new clock) := by
  refine .bind (insertGeneration_edged new) fun _ => ?_
  have hrest : ∀ linked : ℕ, @Edged (Verdict (Except AdmissionError Uuid)) True shrinks
      (admitLinked request new linked) := by
    intro linked
    rw [admitLinked]
    split
    · exact .done _
    dsimp only
    split
    · exact .bind (recordIdempotencyKey_edged _ _ _) fun _ => .done _
    · exact .done _
  dsimp only
  split
  · exact hrest 0
  · exact .bind (linkInputArtifacts_edged _ _ _) hrest

/-- What comes before that only reads. -/
theorem admitFresh_edged (request : AdmissionRequest) (id : Uuid) (uploaded : Uuid → Bool)
    (now clock : Time) : Edged True shrinks (admitFresh request id uploaded now clock) := by
  refine .bind (.read _) fun settings => ?_
  cases settings with
  | none => exact .done _
  | some settings =>
    refine .bind (.read _) fun nonterminal => ?_
    split
    · exact .done _
    refine .bind (.require (.read _)) fun model => ?_
    cases model with
    | none => exact .done _
    | some model =>
      dsimp only
      split
      · exact .done _
      refine .bind (.forEach (fun id => .bind (.read _) fun _ => .done _) _) fun inputs => ?_
      split
      · exact .done _
      · exact .done _
      · exact admitNew_edged _ _ _

theorem replayIdempotent_edged (key : String) (digest : Bytes) :
    Edged grows shrinks (replayIdempotent key digest) := by
  refine .bind (.require (.read _)) fun existing => ?_
  cases existing with
  | none => exact .done _
  | some row =>
    dsimp only
    split
    · exact .done _
    · refine .bind (.read _) fun found => ?_
      cases found <;> exact .done _

theorem admitGeneration_edged (request : AdmissionRequest) (id : Uuid) (objectStoreAvailable : Bool)
    (uploaded : Uuid → Bool) (now clock : Time) :
    Edged True shrinks (admitGeneration request id objectStoreAvailable uploaded now clock) := by
  unfold admitGeneration
  split
  · exact .done _
  split
  · exact .done _
  split
  · exact admitFresh_edged _ _ _ _ _
  · refine .bind (replayIdempotent_edged _ _) fun replayed => ?_
    split
    · exact .done _
    · exact .done _
    · exact admitFresh_edged _ _ _ _ _

/-- An assignment makes an Attempt, and its Generation runs. -/
theorem tryAssign_edged (assignment : SlotAssignment) (id : Uuid) (now : Time) (sent : Bool) :
    Edged True shrinks (tryAssign assignment id now sent) := by
  refine .bind (.read _) fun excluded => ?_
  split
  · exact .done _
  refine .bind (.update_same fun _ => rfl) fun claimed => ?_
  split
  · exact .done _
  refine .bind (create_edged _ _ _ _ _ _ _) fun out => ?_
  split
  · exact .done _
  refine .bind (markRunning_edged _ _) fun _ => .bind (.read _) fun row => ?_
  cases row with
  | none => exact .done _
  | some row =>
    refine .bind (.read _) fun version => ?_
    split
    · exact .done _
    split <;> exact .done _

/-- A cancellation ends a queued Generation, or a running one is cancelling. -/
theorem cancelGeneration_edged (id : Uuid) (now : Time) :
    Edged grows True (cancelGeneration id now) := by
  refine .bind (cancelQueued_edged id now) fun cancelled => ?_
  have hrest : @Edged (Verdict (Option GenerationState)) grows True (cancelRunning id) := by
    rw [cancelRunning, cancelAnswer]
    refine .bind (requestCancelRunning_edged id) fun _ => .bind (.read _) fun row => ?_
    cases row <;> exact .done _
  cases cancelled with
  | false => exact hrest
  | true => exact .bind (deleteInputsForGeneration_edged id) fun _ => hrest

/-- A capability report deletes Pools, with their Attempts; what it writes has no state. -/
theorem capabilityReport_edged [ManifestHash] (w : AuthenticatedWorker)
    (pools : List (Uuid × PoolAdvertisement)) :
    Edged grows True (tryHandleCapabilityReport w pools) := by
  refine .authenticated (.bind ?_ fun _ => .bind ?_ fun _ => .done _)
  · refine .bind (.forEach (fun v => .write_stateless fun db b ws hws u hu => ?_) _) fun _ => .done _
    split at hws
    · cases hws
      cases hu
    · cases hws
      obtain rfl := List.mem_singleton.1 hu
      rfl
  refine .bind (.require (.write fun db b ws hws v hv => ?_)) fun _ =>
    .bind (.forEach (fun p => .require (.write_stateless fun db b ws hws v hv => ?_)) _)
      fun _ => .done _
  · dsimp only at hws
    split at hws
    · cases hws
    cases hws
    -- each of the three kinds of rows that go
    simp only [List.mem_append, List.mem_map] at hv
    rcases hv with (⟨p, -, rfl⟩ | ⟨a, -, rfl⟩) | ⟨e, -, rfl⟩ <;> exact Change.deletion
  · -- the Pool that is written
    obtain ⟨q, r, rfl⟩ : ∃ (q : Uuid) (r : DevicePoolRow), ws = [⟨devicePool q, some r⟩] := by
      simp only [bind, Except.bind, pure, Except.pure, throw, throwThe, MonadExceptOf.throw] at hws
      repeat' split at hws
      all_goals cases hws
      all_goals exact ⟨_, _, rfl⟩
    obtain rfl := List.mem_singleton.1 hv
    rfl

theorem recordReportedOutput_edged (tenantId w id g : Uuid) (output : AttemptOutput) (now : Time) :
    Edged True shrinks (recordReportedOutput tenantId w id g output now) := by
  unfold recordReportedOutput
  split
  · dsimp only
    split
    · split
      · exact .done _
      · exact .bind (insertArtifact_edged _ _) fun _ => .done _
    · split
      · exact .done _
      · exact .bind (insertArtifact_edged _ _) fun _ => .done _
    · exact .done _
  · exact .done _

theorem deleteInputsOnFail_edged (out : Option (Uuid × RetryDecision)) :
    Edged grows True (deleteInputsOnFail out) := by
  unfold deleteInputsOnFail
  split
  · exact deleteInputsForGeneration_edged _
  · exact .done _

theorem propagateCancellations_edged (now : Time) :
    Edged grows shrinks (propagateCancellations now) :=
  .bind (.read _) fun _ => .bind (.forEach (fun id => requestCancel_edged id now) _) fun _ => .done _

theorem expireArtifacts_edged (now : Time) : Edged grows shrinks (expireArtifacts now) :=
  .bind (expireDue_edged now) fun _ => .done _

theorem attemptRunning_edged (w : AuthenticatedWorker) (id : Uuid) (now : Time) :
    Edged grows shrinks (tryHandleAttemptRunning w id now) := by
  refine .authenticated (.bind (markRunningAttempt_edged id _ now) fun running => ?_)
  split
  · exact .done _
  refine .bind (.read _) fun g => ?_
  cases g with
  | none => exact .done _
  | some g => exact .bind (markRunning_edged g now) fun _ => .done _

theorem attemptProgress_edged (w : AuthenticatedWorker) (id : Uuid) (progress : ProgressSnapshot)
    (now : Time) : Edged grows shrinks (tryHandleAttemptProgress w id progress now) := by
  refine .authenticated (.bind (.read _) fun g => ?_)
  cases g with
  | none => exact .done _
  | some g => exact .bind (recordProgress_edged _ _) fun _ => .done _

theorem cancelAcknowledged_edged (w : AuthenticatedWorker) (id : Uuid) (now : Time) :
    Edged grows True (tryHandleCancelAcknowledged w id now) := by
  refine .authenticated (.bind (acknowledgeCancel_edged id _ now) fun out => ?_)
  cases out with
  | none => exact .done _
  | some g => exact .bind (deleteInputsForGeneration_edged g) fun _ => .done _

variable [ManifestHash]

theorem settleAttemptFailure_edged (w : AuthenticatedWorker) (id : Uuid)
    (failure : Attempts.FailureDetails) (now : Time) :
    Edged grows True (settleAttemptFailure w id failure now) := by
  refine .authenticated (.bind (finishAndDecide_edged _ _ _ _ _) fun out => ?_)
  dsimp only
  split
  · exact .bind (deleteInputsForGeneration_edged _) fun _ => .done _
  · exact .done _

/-- Leases that have run out end their Attempts. -/
theorem expireLeases_edged (now : Time) (skip : Uuid → Bool) :
    Edged grows True (expireLeases now skip) := by
  refine .bind (.lockAll _ _) fun expired => .bind (.forEach (fun id => ?_) _) fun _ => .done _
  refine .bind (requestCancel_edged id now) fun _ => ?_
  exact .bind (finishAndDecide_edged _ _ _ _ _) fun out => deleteInputsOnFail_edged out

theorem enforceExecutionDeadlines_edged (now : Time) (skip : Uuid → Bool) :
    Edged grows True (enforceExecutionDeadlines now skip) := by
  refine .bind (.lockAll _ _) fun overdue => .bind (.forEach (fun id => ?_) _) fun _ => .done _
  exact .bind (finishAndDecide_edged _ _ _ _ _) fun out => deleteInputsOnFail_edged out

/-- A Generation that is starved expires. -/
theorem expireStarvedQueue_edged (now : Time) : Edged grows True (expireStarvedQueue now) := by
  refine .bind (.read _) fun settings => .bind (.read _) fun candidates => ?_
  split
  · exact .done _
  refine .bind (.read _) fun capabilities => .bind (.read _) fun exclusions => ?_
  refine .bind (.forEach (fun candidate => ?_) _) fun _ => .done _
  split
  · refine .bind (expire_edged _ _) fun expired => ?_
    cases expired with
    | false => exact .done _
    | true => exact deleteInputsForGeneration_edged _
  · exact .done _

/-- The one transaction of two phases: the outputs of an accepted result are inserted,
    and then the inputs of its Generation deleted. -/
theorem attemptResult_evolved (w : AuthenticatedWorker) (id : Uuid) (outputs : List AttemptOutput)
    (now : Time) (db : Db) : Evolved db ((tryHandleAttemptResult w id outputs now).commit db) := by
  refine Prog.Ensures.commit (R := ⊤) ?_ (.refl db)
  unfold tryHandleAttemptResult
  simp only [Prog.bind_eq, Prog.exec_bind, Prog.pure_eq]
  refine Prog.ensures_tryRead fun settings _ => ?_
  split
  · refine Prog.ensures_bind (((@settleAttemptFailure_edged False _ w id _ now).path db).mono
      fun v db' h => ?_)
    cases v <;> exact fun _ _ => ⟨db, .refl, h⟩
  refine authenticated_ensures nofun fun _ => ?_
  refine Prog.ensures_bind
    (((@acceptResult_edged True False id _ now).path db).mono fun out db₁ h₁ => ?_)
  cases out with
  | accepted g =>
    have hrecord : Edged True False (Prog.forEach
        (fun output => recordReportedOutput settings.1 w.workerId id g output now) outputs) :=
      .forEach (fun output => recordReportedOutput_edged _ _ _ _ output now) outputs
    refine Prog.ensures_bind ((hrecord.path db₁).mono fun recorded db₂ h₂ => ?_)
    split
    · exact nofun
    refine Prog.ensures_bind (((@deleteInputsForGeneration_edged False g).path db₂).mono
      fun _ db' h' => ?_)
    exact fun _ _ => ⟨db₂, h₁.trans h₂, h'⟩
  | _ => exact fun _ _ => ⟨db₁, h₁, .refl⟩

/-- Every transaction moves the stored states along edges, in two phases. -/
theorem Op.evolved (op : Op) (db : Db) : Evolved db (op.apply db) := by
  cases op with
  | deleteTenant now => exact (deleteTenant_edged now).evolved_grow db
  | updateSettings settings => exact (updateSettings_edged settings).committed.evolved_grow db
  | enroll id name credentialHash =>
    exact (enroll_edged id name credentialHash).committed.evolved_grow db
  | revokeWorker id now => exact (revokeWorker_edged id now).committed.evolved_grow db
  | setModelAlias aliasName version => exact (setModelAlias_edged aliasName version).evolved_grow db
  | deleteModelAlias aliasName => exact (deleteModelAlias_edged aliasName).evolved_grow db
  | createInput id manifest placement objectKey now =>
    exact Edged.evolved_grow (.committed (insertArtifact_edged id _)) db
  | setRemoteLocalContent id bytes now clock =>
    exact (setRemoteLocalContent_edged id bytes now clock).committed.evolved_grow db
  | beginDelivery id clock => exact (beginDelivery_edged id clock).committed.evolved_grow db
  | commitOffset id offset => exact (commitOffset_edged id offset).committed.evolved_grow db
  | setArtifactState id target now => exact (setState_edged id target now).committed.evolved_grow db
  | submit request id available uploaded now clock =>
    exact (admitGeneration_edged request id available uploaded now clock).evolved_grow db
  | tryAssign assignment id now sent => exact (tryAssign_edged assignment id now sent).evolved_grow db
  | cancelGeneration id now => exact (cancelGeneration_edged id now).evolved_shrink db
  | capabilityReport w pools => exact (capabilityReport_edged w pools).evolved_shrink db
  | heartbeat w ids now clock =>
    exact Edged.evolved_grow (.authenticated (heartbeat_edged _ ids now clock).committed) db
  | attemptRunning w id now => exact (attemptRunning_edged w id now).evolved_grow db
  | attemptProgress w id progress now =>
    exact (attemptProgress_edged w id progress now).evolved_grow db
  | attemptResult w id outputs now => exact attemptResult_evolved w id outputs now db
  | attemptFailed w id failure now =>
    exact (settleAttemptFailure_edged w id failure now).evolved_shrink db
  | leaseRejected w id now =>
    exact Edged.evolved_shrink (.authenticated (rejectLease_edged id _ now).committed) db
  | cancelAcknowledged w id now => exact (cancelAcknowledged_edged w id now).evolved_shrink db
  | expireLeases now skip => exact (expireLeases_edged now skip).evolved_shrink db
  | enforceExecutionDeadlines now skip =>
    exact (enforceExecutionDeadlines_edged now skip).evolved_shrink db
  | propagateCancellations now => exact (propagateCancellations_edged now).evolved_shrink db
  | expireStarvedQueue now => exact (expireStarvedQueue_edged now).evolved_shrink db
  | expireArtifacts now => exact (expireArtifacts_edged now).evolved_grow db

end Transactions

/-! ## Terminal states -/

/-- The row under the key is there throughout a run. -/
def Present [ManifestHash] (k : DbKey) : Db → List Op → Prop
  | db, [] => (stateOf db k).isSome
  | db, op :: ops => (stateOf db k).isSome ∧ Present k (op.apply db) ops

/-- No path of edges leaves a terminal state. -/
theorem eq_of_isTerminal {s s' : LifecycleState} (h : s.isTerminal)
    (hpath : Relation.ReflTransGen StateEdge s s') : s' = s := by
  rcases hpath.cases_head with rfl | ⟨t, hedge, -⟩
  · rfl
  · exact absurd hedge (LifecycleState.not_canTransitionTo_of_isTerminal h t)

/-- What is present throughout is there at first. -/
theorem Present.isSome [ManifestHash] {k : DbKey} {db : Db} {ops : List Op} (h : Present k db ops) :
    (stateOf db k).isSome := by
  cases ops with
  | nil => exact h
  | cons op ops => exact h.1

/-- A terminal row stays in its state for as long as it is there. -/
theorem terminal_run [ManifestHash] {k : DbKey} {db : Db} {ops : List Op} {s : LifecycleState}
    (hs : stateOf db k = some s) (hterm : s.isTerminal) (h : Present k db ops) :
    stateOf (Machine.run Op.apply db ops) k = some s := by
  induction ops generalizing db with
  | nil => exact hs
  | cons op ops ih =>
    obtain ⟨s₁, hs₁⟩ := Option.isSome_iff_exists.1 h.2.isSome
    obtain rfl := eq_of_isTerminal hterm ((op.evolved db).steps hs hs₁)
    exact ih hs₁ h.2

/-- Each change that an operation makes to a stored state is an edge of the domain's
    machine, and over any run a terminal Generation, Attempt or Artifact that is not
    deleted keeps its state. -/
theorem state_changes_are_edges [ManifestHash] :
    (∀ (α : Type) (p : Body α), Operation p → ∀ db, Reaches db →
      p.Ensures Edges (fun _ _ => True) db) ∧
    ∀ db, Reaches db → ∀ k s, stateOf db k = some s → s.isTerminal →
      ∀ ops, Present k db ops → stateOf (Machine.run Op.apply db ops) k = some s := by
  refine ⟨fun α p hp db _ => ?_, fun db _ k s hs hterm ops h => terminal_run hs hterm h⟩
  refine (hp.edged db).mono_writes fun db₁ db₂ hev k s s' hs hs' => ?_
  have hk := hev k
  rw [hs, hs'] at hk
  exact hk.eq_or_step

/-- The expiry of a lease moves along edges, and the expired Attempt stays expired while
    its Generation is leased again. -/
theorem state_changes_are_edges_expired :
    (@Attempts.recordLeaseExpiry Sample.manifestHash 41 45000000).Ensures Edges (fun _ _ => True)
      (Sample.after [Sample.firstLease]) ∧
    stateOf (Sample.after Sample.retried) (attempt 41) = some (.attempt .leaseExpired) := by
  let _ := Sample.manifestHash
  let settled : List Op := [Sample.firstLease, .expireLeases 45000000 fun _ => false]
  let lease : Op := .tryAssign ⟨12, 22, 31⟩ 42 45000000 true
  have hstate : stateOf (Sample.after settled) (attempt 41) = some (.attempt .leaseExpired) ∧
    (stateOf (Sample.after (settled ++ [lease])) (attempt 41)).isSome := by decide +kernel
  refine ⟨state_changes_are_edges.1 _ _ (.recordLeaseExpiry 41 45000000) _ (Sample.reaches_after _),
    ?_⟩
  have hsplit : Sample.retried = settled ++ [lease] := rfl
  have hreach := Sample.reaches_after settled
  rw [hsplit, Sample.after_append]
  rw [Sample.after_append] at hstate
  generalize Sample.after settled = db at hstate hreach
  refine state_changes_are_edges.2 db hreach _ _ hstate.1 rfl [lease] ⟨?_, hstate.2⟩
  rw [hstate.1]
  rfl

end Gpq
