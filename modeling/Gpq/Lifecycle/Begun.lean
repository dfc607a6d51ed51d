import Gpq.Lifecycle.Ownership
import Gpq.Remote.Process

/-!
# Deliveries that have begun

No operation but the transactions of a delivery touches an output whose delivery has begun,
or begins one (`Op.leavesBegun`).
-/

namespace Gpq

open Sql DbKey Prog

/-- How a row may change where no delivery makes progress. -/
def BegunRel : (k : DbKey) → Option (Db.Row k) → Option (Db.Row k) → Prop
  | .artifact _, o, o' => LeavesBegun o o'
  | _, _, _ => True

/-- The changes of an operation that leaves begun deliveries alone. -/
def begunRel : RowRel Db where
  rel := BegunRel
  refl k o := by
    cases k with
    | artifact a => exact LeavesBegun.refl o
    | _ => trivial
  trans k o₁ o₂ o₃ h h' := by
    cases k with
    | artifact a => exact LeavesBegun.trans h h'
    | _ => trivial

/-- What is said of begun downloads is said of Artifacts only. -/
theorem begunRel_catalogued : Catalogued begunRel where
  row k _ _ hk := by
    cases k with
    | artifact => cases hk
    | _ => trivial
  cascade _ _ := trivial

section Begun

variable {α : Type} {db db' : Db}

/-- An Artifact whose delivery has not begun, before and after. -/
theorem LeavesBegun.of_unbegun {r r' : ArtifactRow} (h : r.begun = false)
    (hd : r'.state ≠ .delivering) (ho : r'.committedOffset = r.committedOffset) :
    LeavesBegun (some r) (some r') := by
  refine LeavesBegun.mk ?_ ?_ ?_
  · rintro _ ⟨⟩ _ hb
    rw [h] at hb
    cases hb
  · rintro _ ⟨⟩ hdel
    exact absurd hdel hd
  · rintro _ ⟨⟩ _
    exact .inr ⟨r, rfl, h, ho⟩

/-- Nobody but a download moves one that was begun. -/
theorem begun_of_lifecycle {ends : Uuid → Prop} (h : (lifecycleRel ends .unbegun).Of db db') :
    begunRel.Of db db' := by
  intro k
  have hk := h k
  cases k with
  | artifact a => exact hk
  | _ => trivial

/-- An admission only takes inputs, none of which is being downloaded. -/
theorem begun_of_claims {id : Uuid} (h : Claims id db db') : begunRel.Of db db' := by
  obtain ⟨row, clock, -, -, hlink⟩ := h
  intro k
  cases k with
  | artifact a =>
    have hsame :=
      Db.fetch_store_ne db (k := generation id) (j := artifact a) (some row) (by exact nofun)
    by_cases ha : a ∈ row.parameters.stagingArtifactIds
    · obtain ⟨r, hr, hclaim, hr'⟩ := hlink.claimed a ha
      change LeavesBegun (fetch db (artifact a)) (fetch db' (artifact a))
      rw [← hsame, hr, hr']
      -- an input that is claimed is pending or available
      have hstate := (ArtifactRow.secured_claimed id hclaim).2.state
      have hb : r.begun = false := by
        rcases hstate with hs | hs
        · simp [ArtifactRow.begun, show r.state = _ from hs]
        · simp [ArtifactRow.begun, show r.state = _ from hs]
      refine LeavesBegun.of_unbegun hb ?_ rfl
      rcases hstate with hs | hs
      · rw [hs]
        exact nofun
      · rw [hs]
        exact nofun
    · change LeavesBegun (fetch db (artifact a)) (fetch db' (artifact a))
      rw [hlink.others a ha, hsame]
      exact LeavesBegun.refl _
  | _ => trivial

theorem commit_begun {p : Body (Verdict α)}
    (h : p.Ensures ⊤ (fun v db' => ∀ a, v = .commit a → begunRel.Of db db') db) :
    begunRel.Of db (p.commit db) := h.commit (RowRel.of_refl db)

theorem commit_begun_of_keeps {p : Body (Verdict α)} (h : p.Keeps begunRel) :
    begunRel.Of db (p.commit db) :=
  commit_begun (Ensures.mono (h.ensures db) fun _ _ hs _ _ => hs)

theorem commit_begun_of_lifecycle {p : Body (Verdict α)}
    (h : p.Keeps (lifecycleRel (fun _ => True) .unbegun)) : begunRel.Of db (p.commit db) :=
  commit_begun (Ensures.mono (h.ensures db) fun _ _ hs _ _ => begun_of_lifecycle hs)

/-- Only what was not begun expires. -/
theorem expireArtifacts_leavesBegun (now : Time) : (expireArtifacts now).Keeps begunRel := by
  refine .bind (keeps_write fun db b ws hws w hw => ?_) fun _ => keeps_done _
  cases hws
  obtain ⟨⟨a, r⟩, he, rfl⟩ := List.mem_map.1 hw
  obtain ⟨hr, hdue⟩ := List.mem_filter.1 he
  have hr : fetch db (artifact a) = some r := Table.mem_rows.1 hr
  simp only [Bool.and_eq_true, Bool.or_eq_true, decide_eq_true_eq] at hdue
  change LeavesBegun (fetch db (artifact a)) _
  rw [hr]
  refine LeavesBegun.of_unbegun ?_ nofun rfl
  rcases hdue.1 with hs | hs
  · simp [ArtifactRow.begun, hs]
  · simp [ArtifactRow.begun, hs]

/-- An input is new. -/
theorem createInput_leavesBegun (id : Uuid) (manifest : ArtifactManifest)
    (placement : ArtifactPlacement) (objectKey : Option String) (now : Time) :
    (Artifacts.createInput id manifest placement objectKey now).Keeps begunRel := by
  refine keeps_write fun db b ws hws w hw => ?_
  obtain ⟨r, rfl, hnew, hrow⟩ := Artifacts.insertion_eq_ok hws
  rw [List.mem_singleton.1 hw]
  -- it is pending, without any bytes
  have hr : r.state = .pending ∧ r.committedOffset = 0 := by
    unfold Artifacts.inputRow at hrow
    repeat' split at hrow
    all_goals cases hrow
    exact ⟨rfl, rfl⟩
  change LeavesBegun (fetch db (artifact id)) (some r)
  rw [hnew]
  refine LeavesBegun.mk ?_ ?_ ?_
  · rintro _ ⟨⟩
  · rintro _ ⟨⟩ hd
    cases hr.1.symm.trans hd
  · rintro _ ⟨⟩ _
    exact .inl hr.2

/-- Content is stored for an input that is pending. -/
theorem setRemoteLocalContent_leavesBegun (id : Uuid) (bytes : Bytes) (now clock : Time) :
    (Artifacts.setRemoteLocalContent id bytes now clock).Keeps begunRel := by
  refine .bind (keeps_update fun r hr => ?_) fun stored => .bind (keeps_read _) fun row => ?_
  · simp only [Bool.and_eq_true, decide_eq_true_eq] at hr
    exact LeavesBegun.of_unbegun (by simp [ArtifactRow.begun, hr.1.2]) nofun rfl
  · cases stored <;> cases row <;> exact keeps_done _

variable [ManifestHash]

/-- Only the transactions of a delivery touch an output whose delivery has begun. -/
theorem Op.leavesBegun (op : Op) (hop : op.delivers = false) (db : Db) :
    begunRel.Of db (op.apply db) := by
  have hends : ∀ _ : Uuid, True := fun _ => trivial
  have hdel := Touch.unbegun_deletesInputs
  cases op with
  | beginDelivery | commitOffset | setArtifactState => cases hop
  | deleteTenant now => exact commit_begun_of_keeps (deleteTenant_keeps begunRel_catalogued now)
  | updateSettings settings =>
    exact commit_begun_of_keeps (committed_keeps (updateSettings_keeps begunRel_catalogued settings))
  | enroll id name credentialHash =>
    exact commit_begun_of_keeps (committed_keeps (enroll_keeps begunRel_catalogued ..))
  | revokeWorker id now =>
    exact commit_begun_of_keeps (committed_keeps (revokeWorker_keeps begunRel_catalogued id now))
  | setModelAlias aliasName version =>
    exact commit_begun_of_keeps (setModelAlias_keeps begunRel_catalogued ..)
  | deleteModelAlias aliasName =>
    exact commit_begun_of_keeps (deleteModelAlias_keeps begunRel_catalogued ..)
  | createInput id manifest placement objectKey now =>
    exact commit_begun_of_keeps (committed_keeps (createInput_leavesBegun ..))
  | setRemoteLocalContent id bytes now clock =>
    exact commit_begun_of_keeps (committed_keeps (setRemoteLocalContent_leavesBegun ..))
  | submit request id available uploaded now clock =>
    refine commit_begun (Ensures.mono
      (admitGeneration_claims request id available uploaded now clock db)
      fun _ db' hv a ha => ?_)
    obtain ⟨-, rfl | hclaims⟩ := hv a ha
    · exact RowRel.of_refl _
    · exact begun_of_claims hclaims
  | tryAssign assignment a now sent => exact commit_begun_of_lifecycle (tryAssign_keeps ..)
  | cancelGeneration g now =>
    exact commit_begun_of_lifecycle (cancelGeneration_keeps hdel trivial now)
  | capabilityReport w pools =>
    exact commit_begun_of_keeps (capabilityReport_keeps begunRel_catalogued w pools)
  | heartbeat w ids now clock => exact commit_begun_of_lifecycle (tryHandleHeartbeat_keeps ..)
  | attemptRunning w a now => exact commit_begun_of_lifecycle (attemptRunning_keeps ..)
  | attemptProgress w a progress now => exact commit_begun_of_lifecycle (attemptProgress_keeps ..)
  | attemptResult w a outputs now =>
    exact commit_begun_of_lifecycle (attemptResult_keeps hends hdel Touch.unbegun_recordsOutputs ..)
  | attemptFailed w a failure now =>
    exact commit_begun_of_lifecycle (settleAttemptFailure_keeps hends hdel w a failure now)
  | leaseRejected w a now => exact commit_begun_of_lifecycle (leaseRejected_keeps ..)
  | cancelAcknowledged w a now =>
    exact commit_begun_of_lifecycle (cancelAcknowledged_keeps hends hdel w a now)
  | expireLeases now skip => exact commit_begun_of_lifecycle (expireLeases_keeps hends hdel now skip)
  | enforceExecutionDeadlines now skip =>
    exact commit_begun_of_lifecycle (enforceExecutionDeadlines_keeps hends hdel now skip)
  | propagateCancellations now => exact commit_begun_of_lifecycle (propagateCancellations_keeps now)
  | expireStarvedQueue now =>
    exact commit_begun_of_lifecycle (expireStarvedQueue_keeps hends hdel now)
  | expireArtifacts now => exact commit_begun_of_keeps (expireArtifacts_leavesBegun now)

end Begun

end Gpq
