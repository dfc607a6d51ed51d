import Gpq.Lifecycle.Ownership

/-!
# Reported outputs

What an accepted result records of the outputs that it reports. An output without a readable
manifest or with an unknown placement is skipped, and a Worker-local output without a
delivery token is recorded although no delivery can name it; all others are recorded
(`outputs_recorded_iff`). A result that is not accepted makes no Generation succeed.
-/

namespace Gpq

open Sql DbKey Prog

/-- A report that names a readable manifest, a known placement and, where the Worker keeps the
    bytes, a delivery token. -/
def AttemptOutput.wellReported (o : AttemptOutput) : Bool :=
  o.manifest.isSome && match o.placement with
    | none => false
    | some .workerLocal => !o.deliveryToken.isEmpty
    | some _ => true

/-- The Attempt whose result is recorded. -/
structure Reporter where
  tenantId : Uuid
  workerId : Uuid
  attemptId : Uuid
  generationId : Uuid

/-- The row of a reported output. -/
structure Records (who : Reporter) (o : AttemptOutput) (r : ArtifactRow) : Prop where
  direction : r.direction = .output
  state : r.state = .available
  generation : r.generationId = some who.generationId
  attempt : r.attemptId = some who.attemptId
  manifest : o.manifest = some r.manifest
  placement : o.placement = some r.placement
  token : r.deliveryToken = if o.deliveryToken.isEmpty then none else some o.deliveryToken
  worker : r.placement = .workerLocal → r.workerId = some who.workerId
  key : r.placement = .objectStore →
    r.objectKey = some (leasedOutputKey who.tenantId who.generationId who.attemptId)

/-- A delivery can find the bytes: by the token that the Worker reported, or under the leased
    key. -/
def Deliverable (who : Reporter) (o : AttemptOutput) (r : ArtifactRow) : Prop :=
  match r.placement with
  | .workerLocal => o.deliveryToken ≠ "" ∧ r.deliveryToken = some o.deliveryToken ∧
      r.workerId = some who.workerId
  | .objectStore => r.objectKey = some (leasedOutputKey who.tenantId who.generationId who.attemptId)
  | .remoteLocal => False

/-- Each reported output has one new row of its own, and there are no other new rows. -/
structure OutputsRecorded (who : Reporter) (outputs : List AttemptOutput) (db db' : Db) : Prop where
  distinct : (outputs.map AttemptOutput.artifactId).Nodup
  recorded : ∀ o ∈ outputs, fetch db (artifact o.artifactId) = none ∧
    ∃ r, fetch db' (artifact o.artifactId) = some r ∧ Records who o r ∧ Deliverable who o r
  only : ∀ a r, fetch db (artifact a) = none → fetch db' (artifact a) = some r →
    ∃ o ∈ outputs, o.artifactId = a

section Recording

variable {who : Reporter} {o : AttemptOutput} {outputs : List AttemptOutput} {db db' db'' : Db}

/-- What one report leaves: its row if it has a manifest and a placement. -/
inductive RecordedOne (who : Reporter) (o : AttemptOutput) (db : Db) : Db → Prop
  | skipped (h : o.manifest = none ∨ o.placement = none) : RecordedOne who o db db
  | recorded (r : ArtifactRow) (h : Records who o r)
    (hnew : fetch db (artifact o.artifactId) = none) :
      RecordedOne who o db (store db (artifact o.artifactId) (some r))

/-- What the reports leave, one after the other. -/
def RecordedAll (who : Reporter) : List AttemptOutput → Db → Db → Prop
  | [], db, db' => db' = db
  | o :: os, db, db' => ∃ db₁, RecordedOne who o db db₁ ∧ RecordedAll who os db₁ db'

/-- An output is recorded, or skipped where it has no manifest or no placement. -/
theorem recordReportedOutput_ensures (who : Reporter) (o : AttemptOutput) (now : Time) (db : Db) :
    (recordReportedOutput who.tenantId who.workerId who.attemptId who.generationId o now).Ensures ⊤
      (fun ok db' => ok = true → RecordedOne who o db db') db := by
  unfold recordReportedOutput
  split
  · rename_i manifest placement hmanifest hplacement
    -- the statement that inserts the row
    have hrecord : ∀ worker key, (placement = .workerLocal → worker = some who.workerId) →
        (placement = .objectStore →
          key = some (leasedOutputKey who.tenantId who.generationId who.attemptId)) →
        (Artifacts.recordOutput o.artifactId who.generationId who.attemptId worker manifest
          placement key
          (if o.deliveryToken.isEmpty then none else some o.deliveryToken) now).Ensures ⊤
          (fun _ db' => RecordedOne who o db db') db := by
      intro worker key hworker hkey
      refine ensures_write fun _ ws hws => ⟨fun _ => trivial, ?_⟩
      obtain ⟨r, rfl, hnew, hrow⟩ := Artifacts.insertion_eq_ok hws
      obtain ⟨hdir, hstate, hgen, hatt, hm, hp, htoken, hw, hk⟩ := Artifacts.outputRow_eq_ok hrow
      exact .recorded r ⟨hdir, hstate, hgen, hatt, hm ▸ hmanifest, hp ▸ hplacement, htoken,
        fun h => hw.trans (hworker (hp ▸ h)), fun h => hk.trans (hkey (hp ▸ h))⟩ hnew
    dsimp only
    split
    · split
      · exact ensures_done nofun
      · -- the key is that of the lease
        rename_i hkey
        exact ensures_bind (Ensures.mono (hrecord none _ nofun fun _ => by rw [not_not.1 hkey])
          fun _ _ h => ensures_done fun _ => h)
    · split
      · exact ensures_done nofun
      · exact ensures_bind (Ensures.mono (hrecord _ none (fun _ => rfl) nofun)
          fun _ _ h => ensures_done fun _ => h)
    · exact ensures_done nofun
  · rename_i hnone
    refine ensures_done fun _ => .skipped ?_
    cases hmanifest : o.manifest with
    | none => exact .inl rfl
    | some manifest =>
      cases hplacement : o.placement with
      | none => exact .inr rfl
      | some placement => exact absurd hplacement (hnone manifest placement hmanifest)

/-- Outputs are recorded one after the other. -/
theorem recordOutputs_ensures (who : Reporter) (outputs : List AttemptOutput) (now : Time) (db : Db) :
    (Prog.forEach (fun o =>
      recordReportedOutput who.tenantId who.workerId who.attemptId who.generationId
      o now) outputs).Ensures ⊤
      (fun oks db' => oks.any (!·) = false → RecordedAll who outputs db db') db := by
  induction outputs generalizing db with
  | nil => exact ensures_done fun _ => rfl
  | cons o os ih =>
    refine ensures_bind (Ensures.mono (recordReportedOutput_ensures who o now db) fun ok db₁ h₁ => ?_)
    refine ensures_bind (Ensures.mono (ih db₁) fun oks db₂ h₂ => ensures_done fun hall => ?_)
    simp only [List.any_cons, Bool.or_eq_false_iff, Bool.not_eq_false'] at hall
    exact ⟨db₁, h₁ hall.1, h₂ hall.2⟩

/-- What was recorded before stays, for an output that is recorded is new. -/
theorem RecordedOne.stays (h : RecordedOne who o db db') {a : Uuid} {r : ArtifactRow}
    (hr : fetch db (artifact a) = some r) : fetch db' (artifact a) = some r := by
  cases h with
  | skipped => exact hr
  | recorded r' _ hnew =>
    rwa [Db.fetch_store_ne]
    intro he
    obtain rfl := artifact.inj he
    cases hnew.symm.trans hr

/-- So it does when several are recorded. -/
theorem RecordedAll.stays {a : Uuid} {r : ArtifactRow} (h : RecordedAll who outputs db db')
    (hr : fetch db (artifact a) = some r) : fetch db' (artifact a) = some r := by
  induction outputs generalizing db with
  | nil =>
    rw [show db' = db from h]
    exact hr
  | cons o os ih =>
    obtain ⟨db₁, h₁, h₂⟩ := h
    exact ih h₂ (h₁.stays hr)

/-- A row is from before, or of one of the reports. -/
theorem RecordedAll.origin {a : Uuid} {r : ArtifactRow} (h : RecordedAll who outputs db db')
    (hr : fetch db' (artifact a) = some r) :
    fetch db (artifact a) = some r ∨ ∃ o ∈ outputs, Records who o r := by
  induction outputs generalizing db with
  | nil =>
    obtain rfl : db' = db := h
    exact .inl hr
  | cons o os ih =>
    obtain ⟨db₁, h₁, h₂⟩ := h
    rcases ih h₂ with hr₁ | ⟨o', ho', hrec⟩
    · cases h₁ with
      | skipped => exact .inl hr₁
      | recorded r' hr' hnew =>
        by_cases ha : a = o.artifactId
        · subst ha
          obtain rfl : r' = r := Option.some_inj.1 ((Database.fetch_store_self ..).symm.trans hr₁)
          exact .inr ⟨o, List.mem_cons_self, hr'⟩
        · exact .inl ((Db.fetch_store_ne db _ fun he => ha (artifact.inj he)).symm.trans hr₁)
    · exact .inr ⟨o', List.mem_cons_of_mem _ ho', hrec⟩

/-- No Generation changes. -/
theorem RecordedAll.generations (h : RecordedAll who outputs db db') (g : Uuid) :
    fetch db' (generation g) = fetch db (generation g) := by
  induction outputs generalizing db with
  | nil =>
    obtain rfl : db' = db := h
    rfl
  | cons o os ih =>
    obtain ⟨db₁, h₁, h₂⟩ := h
    rw [ih h₂]
    cases h₁ with
    | skipped => rfl
    | recorded r' => exact Db.fetch_store_ne db _ nofun

/-- The row of a report that is well formed is deliverable. -/
theorem Records.deliverable {r : ArtifactRow} (h : Records who o r) (hwell : o.wellReported) :
    Deliverable who o r := by
  simp only [AttemptOutput.wellReported, h.placement, Bool.and_eq_true] at hwell
  unfold Deliverable
  cases hp : r.placement with
  | workerLocal =>
    simp only [hp, Bool.not_eq_true', String.isEmpty_eq_false_iff] at hwell
    exact ⟨hwell.2, by rw [h.token, if_neg (by simpa using hwell.2)], h.worker hp⟩
  | objectStore => exact h.key hp
  | remoteLocal => cases h.direction.symm.trans (r.remote_local_is_input hp)

/-- Reports that are well formed are recorded, each in a row of its own. -/
theorem RecordedAll.outputsRecorded (h : RecordedAll who outputs db db')
    (hall : ∀ o ∈ outputs, o.wellReported) : OutputsRecorded who outputs db db' := by
  induction outputs generalizing db with
  | nil =>
    obtain rfl : db' = db := h
    exact ⟨List.nodup_nil, nofun, fun a r hnone hr => by cases hnone.symm.trans hr⟩
  | cons o os ih =>
    obtain ⟨db₁, h₁, h₂⟩ := h
    have hwell := hall o List.mem_cons_self
    have hrest := ih h₂ fun o' ho' => hall o' (List.mem_cons_of_mem _ ho')
    cases h₁ with
    | skipped hskip =>
      simp only [AttemptOutput.wellReported, Bool.and_eq_true] at hwell
      rcases hskip with hm | hp
      · simp [hm] at hwell
      · simp [hp] at hwell
    | recorded r hr hnew =>
      have hself : fetch (store db (artifact o.artifactId) (some r)) (artifact o.artifactId) =
          some r :=
        Database.fetch_store_self ..
      have hother : ∀ a, a ≠ o.artifactId →
          fetch (store db (artifact o.artifactId) (some r)) (artifact a) = fetch db (artifact a) :=
        fun a ha => Db.fetch_store_ne db _ fun he => ha (artifact.inj he)
      -- the rows of the later reports are new where this one is there
      have hne : ∀ o' ∈ os, o'.artifactId ≠ o.artifactId := by
        intro o' ho' he
        have hnone := (hrest.recorded o' ho').1
        rw [he] at hnone
        cases hnone.symm.trans hself
      refine ⟨?_, fun o' ho' => ?_, fun a r' hnone hr' => ?_⟩
      · rw [List.map_cons, List.nodup_cons]
        refine ⟨fun hmem => ?_, hrest.distinct⟩
        obtain ⟨o', ho', he⟩ := List.mem_map.1 hmem
        exact hne o' ho' he
      · rcases List.mem_cons.1 ho' with rfl | ho'
        · exact ⟨hnew, r, h₂.stays hself, hr, hr.deliverable hwell⟩
        · obtain ⟨hnone, hrow⟩ := hrest.recorded o' ho'
          exact ⟨(hother _ (hne o' ho')).symm.trans hnone, hrow⟩
      · by_cases ha : a = o.artifactId
        · exact ⟨o, List.mem_cons_self, ha.symm⟩
        · obtain ⟨o', ho', he⟩ := hrest.only a r' ((hother a ha).trans hnone) hr'
          exact ⟨o', List.mem_cons_of_mem _ ho', he⟩

/-- What a result records is recorded of well-formed reports only. -/
theorem OutputsRecorded.wellReported (h : OutputsRecorded who outputs db db') (ho : o ∈ outputs) :
    o.wellReported := by
  obtain ⟨-, r, -, hr, hdel⟩ := h.recorded o ho
  unfold Deliverable at hdel
  cases hp : r.placement with
  | workerLocal =>
    rw [hp] at hdel
    simp [AttemptOutput.wellReported, hr.manifest, hr.placement, hp, hdel.1]
  | objectStore => simp [AttemptOutput.wellReported, hr.manifest, hr.placement, hp]
  | remoteLocal =>
    rw [hp] at hdel
    exact hdel.elim

/-- The deletion of the inputs leaves the outputs. -/
theorem OutputsRecorded.deleted {g : Uuid} (h : OutputsRecorded who outputs db db')
    (hd : InputsDeleted g db' db'') : OutputsRecorded who outputs db db'' := by
  refine ⟨h.distinct, fun o ho => ?_, fun a r hnone hr => ?_⟩
  · obtain ⟨hnone, r, hr, hrec, hdel⟩ := h.recorded o ho
    refine ⟨hnone, r, (hd.kept _ fun r' hr' hin => ?_).trans hr, hrec, hdel⟩
    obtain rfl : r' = r := Option.some_inj.1 (hr'.symm.trans hr)
    cases hin.1.symm.trans hrec.direction
  · by_cases hof : ∃ r', fetch db' (artifact a) = some r' ∧ InputOf g r'
    · obtain ⟨r', hr', hin⟩ := hof
      cases hr.symm.trans (hd.deleted a r' hr' hin)
    · exact h.only a r hnone ((hd.kept a fun r' hr' hin => hof ⟨r', hr', hin⟩).symm.trans hr)

end Recording

/-! ## Results that are not accepted -/

/-- How a row changes where no Generation succeeds. -/
def NoneSucceeds : (k : DbKey) → Option (Db.Row k) → Option (Db.Row k) → Prop
  | .generation _, o, o' => ∀ r' ∈ o', r'.state = .succeeded → ∃ r ∈ o, r.state = .succeeded
  | _, _, _ => True

/-- The changes by which no Generation succeeds. -/
def noneSucceeds : RowRel Db where
  rel := NoneSucceeds
  refl k o := by
    cases k with
    | generation g => exact fun r hr hs => ⟨r, hr, hs⟩
    | _ => trivial
  trans k o₁ o₂ o₃ h h' := by
    cases k with
    | generation g =>
      intro r hr hs
      obtain ⟨r₂, hr₂, hs₂⟩ := h' r hr hs
      exact h r₂ hr₂ hs₂
    | _ => trivial

section Refusals

/-- A transition to any other state is no success. -/
theorem transition_noneSucceeds {g : Uuid} {source : GenerationState → Bool}
    {f : GenerationRow → GenerationRow} (hf : ∀ r, (f r).state ≠ .succeeded) :
    (exec (Generations.transition g source f)).Keeps noneSucceeds := by
  refine keeps_update fun r _ r' hr' hs => ?_
  cases hr'
  exact absurd hs (hf r)

theorem deleteInputs_noneSucceeds (g : Uuid) :
    (Artifacts.deleteInputsForGeneration g).Keeps noneSucceeds := by
  refine keeps_write fun db b ws hws w hw => ?_
  cases hws
  obtain ⟨e, -, rfl⟩ := List.mem_map.1 hw
  trivial

/-- To end an Attempt is none. -/
theorem finish_noneSucceeds (id : Uuid) (w : Option Uuid) (target : AttemptState)
    (failure : Option Attempts.FailureDetails) (now : Time) :
    (Attempts.finish id w target failure now).Keeps noneSucceeds := by
  unfold Attempts.finish
  split
  · exact keeps_done _
  refine .bind (Keeps.require (keeps_updateReturning fun _ _ => trivial) _ _) fun settled => ?_
  cases settled with
  | none => exact keeps_done _
  | some p =>
    have hrelease : (exec (updatePool p (fun _ => true) DevicePoolRow.release)).Keeps noneSucceeds :=
      keeps_update fun _ _ => trivial
    exact .bind (.bind hrelease fun _ => keeps_done _) fun _ => keeps_done _

variable [ManifestHash]

/-- A failure makes no Generation succeed. -/
theorem settleAttemptFailure_noneSucceeds (w : AuthenticatedWorker) (a : Uuid)
    (failure : Attempts.FailureDetails) (now : Time) :
    (settleAttemptFailure w a failure now).Keeps noneSucceeds := by
  have hdecide : (Attempts.recordFailureForWorker a w.workerId failure now).Keeps noneSucceeds := by
    refine .bind (keeps_read _) fun g => ?_
    cases g with
    | none => exact keeps_done _
    | some g =>
      refine .bind (finish_noneSucceeds ..) fun settled => ?_
      split
      · exact keeps_done _
      refine .bind (keeps_tryRead _) fun row => ?_
      split
      · exact .bind (transition_noneSucceeds fun _ => nofun) fun _ => keeps_done _
      refine .bind (keeps_read _) fun requirement => .bind (keeps_read _) fun excluded =>
        .bind (keeps_read _) fun capabilities => ?_
      dsimp only
      split
      · exact .bind (.labelled (transition_noneSucceeds fun _ => by exact nofun) _) fun _ =>
          keeps_done _
      · exact .bind (.require (transition_noneSucceeds fun _ => by exact nofun) _ _) fun _ =>
          keeps_done _
  refine .bind (.bind (keeps_lock _ _) fun _ => keeps_done _) fun ok => ?_
  split
  · exact keeps_done _
  refine .bind hdecide fun out => ?_
  dsimp only
  split
  · exact .bind (deleteInputs_noneSucceeds _) fun _ => keeps_done _
  · exact keeps_done _

end Refusals

/-! ## Results -/

section Results

variable [ManifestHash] {w : AuthenticatedWorker} {a : Uuid} {outputs : List AttemptOutput}
    {now : Time}
  {db : Db}

/-- The Attempt of a Worker's result. -/
def reporterOf (db : Db) (w : AuthenticatedWorker)
    (a g : Uuid) : Reporter := ⟨db.tenantId, w.workerId, a, g⟩

/-- What a result that commits leaves. -/
def ResultLeaves (db : Db) (w : AuthenticatedWorker) (a : Uuid) (outputs : List AttemptOutput) :
    ResultReply → Db → Prop
  | .accepted g, db' => ∃ db₁ db₂, (∀ i, fetch db₁ (artifact i) = fetch db (artifact i)) ∧
      (∃ row, fetch db₁ (generation g) = some row ∧ row.acceptedAttemptId = some a) ∧
      RecordedAll (reporterOf db w a g) outputs db₁ db₂ ∧ InputsDeleted g db₂ db'
  | _, db' => noneSucceeds.Of db db' ∧ (lifecycleRel (fun _ => True) .deletions).Of db db'

omit [ManifestHash] in
/-- A Generation with an accepted result names the Attempt. -/
theorem acceptResult_accepts (id w : Uuid) (now : Time) (db : Db) :
    (Generations.acceptResult id w now).Ensures ⊤ (fun out db' => ∀ g, out = .accepted g →
      ∃ row, fetch db' (generation g) = some row ∧ row.acceptedAttemptId = some id) db := by
  refine ensures_lock (fun lease _ _ => ?_) fun _ => ensures_done (by simp)
  rw [done_bind]
  refine ensures_lock (fun row hrow _ => ?_) fun _ => ensures_done (by simp)
  rw [done_bind]
  dsimp only
  split
  · exact ensures_done (by simp)
  split
  · exact ensures_done (by simp)
  split
  · exact ensures_done (by simp)
  split
  · exact ensures_done (by simp)
  refine ensures_bind (Ensures.mono ((updateAttempt_keeps id _ _).ensures db)
    fun _ db₁ (h₁ : quietRel.Of db db₁) => ?_)
  refine ensures_bind (Ensures.mono ((releaseSlot_keeps lease.poolId).ensures db₁)
    fun _ db₂ (h₂ : quietRel.Of db₁ db₂) => ?_)
  obtain ⟨row₂, hrow₂, -⟩ : Ages False (some row) (fetch db₂ (generation lease.generationId)) :=
    hrow ▸ (h₁.trans h₂) (generation lease.generationId)
  refine ensures_update_of_fetch hrow₂ rfl trivial (ensures_done fun g hg => ?_)
  cases hg
  exact ⟨_, Database.fetch_store_self .., rfl⟩

/-- What a result leaves: nothing, a failure, or the outputs of an accepted one. -/
theorem attemptResult_ensures (w : AuthenticatedWorker) (a : Uuid) (outputs : List AttemptOutput)
    (now : Time) (db : Db) : (tryHandleAttemptResult w a outputs now).Ensures ⊤
      (fun v db' => ∀ reply, v = .commit reply → ResultLeaves db w a outputs reply db') db := by
  refine ensures_tryRead fun loaded hloaded => ?_
  have htenant : loaded.1 = db.tenantId := by
    split at hloaded
    · cases hloaded
      rfl
    · cases hloaded
  rw [done_bind]
  dsimp only
  split
  · -- a malformed result fails its Attempt
    have hsettle (failure : Attempts.FailureDetails) :
        (settleAttemptFailure w a failure now).Ensures ⊤ (fun _ db' => noneSucceeds.Of db db' ∧
          (lifecycleRel (fun _ => True) .deletions).Of db db') db :=
      ((settleAttemptFailure_noneSucceeds w a failure now).ensures db).and
        ((@settleAttemptFailure_keeps _ .deletions _ (fun _ => trivial)
          (fun _ _ => .inr rfl) w a failure now).ensures db)
    refine ensures_bind (Ensures.mono (hsettle _) fun v db' h => ?_)
    split
    · rintro reply ⟨⟩
      exact h
    · exact ensures_done nofun
  -- a well formed one is accepted, or not
  have haccept :=
    ((acceptResult_ensures a w.workerId now).and (acceptResult_accepts a w.workerId now db)).and
    ((@acceptResult_keeps _ .nothing (fun _ => trivial : ∀ _ : Uuid, True) a w.workerId now).ensures
      db)
  refine authenticated_ensures nofun fun _ =>
    ensures_bind (Ensures.mono haccept fun out db₁ ⟨⟨h, hacc⟩, h₁⟩ => ?_)
  rcases h with ⟨hnot, rfl⟩ | ⟨g, rfl, -⟩
  · cases out with
    | accepted g => exact absurd rfl (hnot g)
    | acceptedReplay | staleLease | alreadyAccepted | terminal =>
      rintro reply ⟨⟩
      exact ⟨RowRel.of_refl _, RowRel.of_refl _⟩
  refine ensures_bind (Ensures.mono
    (recordOutputs_ensures ⟨loaded.1, w.workerId, a, g⟩ outputs now db₁)
    fun oks db₂ h₂ => ?_)
  split
  · exact ensures_done nofun
  rename_i hall
  refine ensures_bind (Ensures.mono (deleteInputs_ensures g db₂) fun _ db₃ hd => ?_)
  rintro reply ⟨⟩
  rw [htenant] at h₂
  exact ⟨db₁, db₂, fun i => h₁ (artifact i), hacc g rfl, h₂ (by simpa using hall), hd⟩

/-- An accepted result has recorded the outputs that it reports exactly where every report is
    well formed. A result that is not accepted makes no Generation succeed. -/
theorem outputs_recorded_iff (w : AuthenticatedWorker) (a : Uuid) (outputs : List AttemptOutput)
    (now : Time) (db : Db) :
    (∀ g db', (tryHandleAttemptResult w a outputs now).run db = .ok (.commit (.accepted g), db') →
      (OutputsRecorded (reporterOf db w a g) outputs db db' ↔ ∀ o ∈ outputs, o.wellReported)) ∧
    ((∀ g db', (tryHandleAttemptResult w a outputs now).run db ≠ .ok (.commit (.accepted g), db')) →
      ∀ g row', fetch ((Op.attemptResult w a outputs now).apply db) (generation g) = some row' →
        row'.state = .succeeded → ∃ row, fetch db (generation g) = some row ∧
          row.state = .succeeded) := by
  have hensures := attemptResult_ensures w a outputs now db
  refine ⟨fun g db' hrun => ⟨fun h o ho => h.wellReported ho, fun hall => ?_⟩, fun hno => ?_⟩
  · obtain ⟨db₁, db₂, hsame, -, hrec, hd⟩ := hensures.of_run hrun _ rfl
    have h := (hrec.outputsRecorded hall).deleted hd
    exact ⟨h.distinct, fun o ho => ⟨(hsame _).symm.trans (h.recorded o ho).1, (h.recorded o ho).2⟩,
      fun i r hnone hr => h.only i r ((hsame i).trans hnone) hr⟩
  · have hrel : noneSucceeds.Of db ((Op.attemptResult w a outputs now).apply db) := by
      change noneSucceeds.Of db ((tryHandleAttemptResult w a outputs now).commit db)
      rw [Prog.commit]
      split
      · rename_i reply db' hrun
        have hleaves := hensures.of_run hrun reply rfl
        cases reply with
        | accepted g => exact absurd hrun (hno g db')
        | _ => exact hleaves.1
      · exact RowRel.of_refl db
    intro g row' hrow' hs
    exact hrel (generation g) row' hrow' hs

end Results

namespace Sample

/-- A reported image that the Worker keeps. -/
def picture : AttemptOutput where
  artifactId := 61
  manifest := some reference
  placement := some .workerLocal
  objectKey := ""
  deliveryToken := "t"

/-- The same report with a manifest that cannot be read. -/
def unreadable : AttemptOutput := { picture with manifest := none }

/-- What the first Worker's result for the first lease leaves. -/
def resultOf (outputs : List AttemptOutput) : Except DbError (Verdict ResultReply × Db) :=
  (@tryHandleAttemptResult manifestHash alpha 41 outputs 0).run (after [firstLease])

end Sample

/-- The result is accepted, and its only output is lost. -/
theorem output_lost : ∃ db', Sample.resultOf [Sample.unreadable] = .ok (.commit (.accepted 31), db') ∧
    ¬ OutputsRecorded (reporterOf (Sample.after [Sample.firstLease]) Sample.alpha 41 31)
      [Sample.unreadable]
      (Sample.after [Sample.firstLease]) db' := by
  have h : (Verdict.committed (Sample.resultOf [Sample.unreadable])).any (fun c =>
      c.1 = .accepted 31 && (fetch c.2 (artifact 61)).isNone) = true := by decide +kernel
  obtain ⟨⟨reply, db'⟩, hcommitted, hlost⟩ := (Option.any_eq_true ..).1 h
  obtain ⟨haccepted, hnone⟩ := Bool.and_eq_true_iff.1 hlost
  obtain rfl : reply = .accepted 31 := of_decide_eq_true haccepted
  refine ⟨db', Verdict.committed_eq_some.1 hcommitted, fun hrec => ?_⟩
  obtain ⟨-, r, hr, -⟩ := hrec.recorded Sample.unreadable List.mem_cons_self
  cases (Option.isNone_iff_eq_none.1 hnone).symm.trans hr

/-- The result is accepted, and its output is recorded. -/
theorem outputs_recorded_picture : ∃ db', Sample.resultOf [Sample.picture] =
    .ok (.commit (.accepted 31), db') ∧
    OutputsRecorded (reporterOf (Sample.after [Sample.firstLease]) Sample.alpha 41 31)
      [Sample.picture]
      (Sample.after [Sample.firstLease]) db' := by
  let _ := Sample.manifestHash
  have h : (Verdict.committed (Sample.resultOf [Sample.picture])).any
      (fun c => c.1 = .accepted 31) = true := by
    decide +kernel
  obtain ⟨⟨reply, db'⟩, hcommitted, haccepted⟩ := (Option.any_eq_true ..).1 h
  obtain rfl : reply = .accepted 31 := of_decide_eq_true haccepted
  have hrun := Verdict.committed_eq_some.1 hcommitted
  exact ⟨db', hrun,
    ((outputs_recorded_iff Sample.alpha 41 [Sample.picture] 0 _).1 31 db' hrun).2 (by decide)⟩

end Gpq
