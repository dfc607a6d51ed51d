import Gpq.Lib.Traverse
import Gpq.Lifecycle.Admissions
import Gpq.Lifecycle.Submission
import Gpq.Remote.Submit

/-!
# Classified answers

When an admission that the database does not fail answers an internal error: where a statement
is given a value that its column cannot hold (`Storable`). No check before the statements is
about these values.

* `admitNew_classified`, `admitNew_fails`: the insertion and what follows it;
* `admitFresh_classified`, `admitFresh_fails`: the checks before it;
* `admit_classified_iff`: the whole admission.
-/

namespace Gpq

open Sql DbKey Prog Traverse

/-- The answer is classified: a refusal that is dropped as a whole, or a Generation. -/
inductive Classified : Except DbError (Verdict (Except AdmissionError Uuid) × Db) → Prop
  | refused {e : AdmissionError} (db : Db) (h : e ≠ .internal) :
    Classified (.ok (.rollback (.error e), db))
  | admitted (g : Uuid) (db : Db) : Classified (.ok (.commit (.ok g), db))

/-! ## The insertion -/

/-- The columns hold the values of a new Generation: no text has a NUL character, and the timeout is a
    positive number of whole microseconds. -/
structure NewGeneration.Storable (new : NewGeneration) : Prop where
  aliasName : storable new.aliasName
  parameters : Generations.storableParameters new.parameters
  microseconds : new.executionTimeout % 1000 = 0
  positive : 0 < new.executionTimeout

/-- What the checks before the insertion see to. -/
structure NewGeneration.Checked (new : NewGeneration) (db : Db) : Prop where
  fresh : fetch db (generation new.id) = none
  seed : ∀ seed ∈ new.seed, seed ≤ i64Max
  placement : new.outputPlacement ≠ .remoteLocal
  timeout : new.executionTimeout / 1000 ≤ i64Max

section Insertion

variable {new : NewGeneration} {db : Db}

/-- A Generation that can be stored is inserted. -/
theorem insertion_ok (h : new.Storable) (hchecked : new.Checked db) :
    ∃ row : GenerationRow, Generations.insertion new db =
      .ok ((), [⟨generation new.id, some row⟩]) := by
  have hseed : ¬ new.seed.any (· > i64Max) := by
    rw [Option.any_eq_true]
    rintro ⟨seed, hseed, hlt⟩
    exact absurd (hchecked.seed seed hseed) (Nat.not_le_of_lt (of_decide_eq_true hlt))
  have htimeout : ¬ (new.executionTimeout % 1000 ≠ 0 ∨ new.executionTimeout / 1000 > i64Max) :=
    not_or.2 ⟨not_not.2 h.microseconds, Nat.not_lt_of_le hchecked.timeout⟩
  have hfresh : ¬ (fetch db (generation new.id)).isSome := by
    rw [hchecked.fresh]
    exact nofun
  have hpositive : 0 < new.executionTimeout / 1000 :=
    Nat.div_pos (Nat.le_of_dvd h.positive (Nat.dvd_of_mod_eq_zero h.microseconds)) (by decide)
  rw [Generations.insertion, if_neg hseed, if_neg htimeout, if_neg hfresh,
    dif_pos ⟨hpositive, hchecked.placement⟩]
  exact ⟨_, rfl⟩

/-- A timeout with a fraction of a microsecond is not converted, and one of zero is not inserted. -/
theorem insertion_error (h : ¬ (new.executionTimeout % 1000 = 0 ∧ 0 < new.executionTimeout)) :
    ∃ e, Generations.insertion new db = .error e := by
  unfold Generations.insertion
  dsimp only
  split
  · exact ⟨_, rfl⟩
  split
  · exact ⟨_, rfl⟩
  rename_i hmicros
  split
  · exact ⟨_, rfl⟩
  have hzero : ¬ (0 < new.executionTimeout / 1000 ∧ new.outputPlacement ≠ .remoteLocal) :=
    fun hpositive => h ⟨not_not.1 (not_or.1 hmicros).1, Nat.pos_of_div_pos hpositive.1⟩
  rw [dif_neg hzero]
  exact ⟨_, rfl⟩

/-- Its insert runs. -/
theorem insert_run_ok (h : new.Storable) (hchecked : new.Checked db) :
    ∃ row : GenerationRow, (Generations.insert new).run db =
      .ok ((), store db (generation new.id) (some row)) := by
  obtain ⟨row, hrow⟩ := insertion_ok h hchecked
  refine ⟨row, ?_⟩
  rw [Generations.insert, Prog.exec, run_step_require, h.aliasName, h.parameters,
    if_pos (show (true && true) = true from rfl), run_step_write, hrow]
  rfl

/-- The insert of any other fails. -/
theorem insert_run_error (h : ¬ new.Storable) : ∃ e, (Generations.insert new).run db = .error e := by
  rw [Generations.insert, Prog.exec, run_step_require]
  split
  · rename_i htexts
    obtain ⟨haliasName, hparameters⟩ := (Bool.and_eq_true _ _).mp htexts
    obtain ⟨e, he⟩ : ∃ e, Generations.insertion new db = .error e :=
      insertion_error fun ⟨hmicros, hpositive⟩ => h ⟨haliasName, hparameters, hmicros, hpositive⟩
    rw [run_step_write, he]
    exact ⟨e, rfl⟩
  · exact ⟨_, rfl⟩

/-- The keys that an admission records are unused, and are texts. -/
def KeyUnused (request : AdmissionRequest) (db : Db) : Prop :=
  ∀ key digest, request.idempotencyKey = some (key, digest) →
    storable key ∧ fetch db (idempotencyKey key) = none

/-- A key that is unused is recorded. -/
theorem recordIdempotencyKey_run {key : String} {digest : Bytes} {g : Uuid} (hkey : storable key)
    (hunused : fetch db (idempotencyKey key) = none) :
    ∃ db', (recordIdempotencyKey key digest g).run db = .ok ((), db') := by
  rw [recordIdempotencyKey, Prog.exec, run_step_require, if_pos hkey, run_step_write, hunused]
  exact ⟨_, rfl⟩

/-- An admission fails with the insert of its Generation. -/
theorem admitNew_fails (request : AdmissionRequest) (clock : Time) (h : ¬ new.Storable) :
    ∃ e, (admitNew request new clock).run db = .error e := by
  obtain ⟨e, he⟩ : ∃ e, (Generations.insert new).run db = .error e := insert_run_error h
  rw [admitNew, bind_eq, run_bind, he]
  exact ⟨e, rfl⟩

/-- Once its Generation can be stored, an admission is answered or refused. -/
theorem admitNew_classified {request : AdmissionRequest} (clock : Time) (h : new.Storable)
    (hchecked : new.Checked db) (hkey : KeyUnused request db) :
    Classified ((admitNew request new clock).run db) := by
  -- what follows the insert and the links
  have hrest : ∀ (linked : ℕ) db₁, KeyUnused request db₁ →
      Classified (Prog.run (admitLinked request new linked) db₁) := by
    intro linked db₁ hkey
    rw [admitLinked]
    split
    · exact .refused db₁ (by simp)
    dsimp only
    cases hrequest : request.idempotencyKey with
    | none => exact .admitted new.id db₁
    | some k =>
      obtain ⟨hstorable, hunused⟩ := hkey k.1 k.2 hrequest
      obtain ⟨db', hrecord⟩ : ∃ db', (recordIdempotencyKey k.1 k.2 new.id).run db₁ = .ok ((), db') :=
        recordIdempotencyKey_run hstorable hunused
      dsimp only
      rw [bind_eq, run_bind, hrecord]
      exact .admitted new.id db'
  obtain ⟨row, hinsert⟩ := insert_run_ok h hchecked
  have hkey' : KeyUnused request (store db (generation new.id) (some row)) :=
    fun key digest hrequest => ⟨(hkey key digest hrequest).1,
      (Db.fetch_store_ne db _ (by simp)).trans (hkey key digest hrequest).2⟩
  rw [admitNew, bind_eq, run_bind, hinsert]
  dsimp only
  split
  · exact hrest 0 _ hkey'
  · -- the links write Artifacts, no key
    rw [bind_eq, Artifacts.linkInputArtifacts, exec_bind, run_step_write]
    refine hrest _ _ fun key digest hrequest => ⟨(hkey' key digest hrequest).1, ?_⟩
    rw [fetch_applyAll_of_notMem _ fun w hw hk => ?_, (hkey' key digest hrequest).2]
    obtain ⟨e, -, rfl⟩ := List.mem_map.1 hw
    cases hk

end Insertion

/-! ## The checks -/

section Checks

variable {request : AdmissionRequest} {id : Uuid} {uploaded : Uuid → Bool} {now clock : Time}
    {db : Db}
  {settings : TenantSettings} {version : ContentHash} {model : ModelVersionRow}

/-- The version that an alias names. -/
def modelOf (db : Db) (aliasName : String) : Option (ContentHash × ModelVersionRow) := do
  let version ← fetch db (modelAlias aliasName)
  let row ← fetch db (modelVersion version)
  return (version, row)

/-- The request passes the checks against the version that its alias names. -/
structure AdmissionRequest.Passes (request : AdmissionRequest) (uploaded : Uuid → Bool) (db : Db)
    (settings : TenantSettings) (model : ModelVersionRow) : Prop where
  parameters : validateParameters request model.manifest = .ok ()
  inputs : ∀ i ∈ request.parameters.stagingArtifactIds,
    validateInputArtifact i (fetch db (artifact i)) settings.maxInputArtifactBytes uploaded = .ok ()
  seed : validateSeed request.seed = .ok ()

/-- The columns hold the request's prompts, and its timeout where that shortens the limit. -/
structure AdmissionRequest.Storable (request : AdmissionRequest) (db : Db) : Prop where
  parameters : Generations.storableParameters request.parameters
  timeout : ∀ t ∈ request.executionTimeout, t < executionLimit db request.aliasName → 0 < t ∧
    t % 1000 = 0

/-- The constraints of the schema that an admission relies on. -/
structure Constrained (db : Db) : Prop where
  /-- An idempotency key refers to a Generation. -/
  keys : ∀ key row, fetch db (idempotencyKey key) = some row →
    (fetch db (generation row.generationId)).isSome
  ceiling : ∀ settings, settingsOf db = some settings →
    0 < settings.executionTimeoutCeiling ∧ settings.executionTimeoutCeiling ≤ i64Max
  versions : ∀ version row, fetch db (modelVersion version) = some row →
    ∀ t ∈ row.executionTimeout, 0 < t

/-- A model is found through its alias. -/
theorem modelOf_eq_some_iff {aliasName : String} : modelOf db aliasName = some (version, model) ↔
    fetch db (modelAlias aliasName) = some version ∧
    fetch db (modelVersion version) = some model := by
  rw [modelOf]
  constructor
  · rintro h
    obtain ⟨v, hversion, h⟩ := Option.bind_eq_some_iff.1 h
    obtain ⟨row, hrow, h⟩ := Option.bind_eq_some_iff.1 h
    cases h
    exact ⟨hversion, hrow⟩
  · rintro ⟨hversion, hmodel⟩
    exact Option.bind_eq_some_iff.2 ⟨version, hversion,
      Option.bind_eq_some_iff.2 ⟨model, hmodel, rfl⟩⟩

/-- The limit is a positive number of whole microseconds, which its column holds. -/
theorem executionLimit_bounds (hdb : Constrained db) (hsettings : settingsOf db = some settings)
    (hmodel : modelOf db request.aliasName = some (version, model)) :
    0 < executionLimit db request.aliasName ∧ executionLimit db request.aliasName % 1000 = 0 ∧
      executionLimit db request.aliasName / 1000 ≤ i64Max ∧
      resolveExecutionTimeout model.manifest.modality (model.executionTimeout.map (1000 * ·)) none
        (1000 * settings.executionTimeoutCeiling) = executionLimit db request.aliasName := by
  obtain ⟨hversion, hrow⟩ := modelOf_eq_some_iff.1 hmodel
  obtain ⟨hpositive, hle⟩ := hdb.ceiling settings hsettings
  have hlimit : executionLimit db request.aliasName = resolveExecutionTimeout model.manifest.modality
      (model.executionTimeout.map (1000 * ·)) none (1000 * settings.executionTimeoutCeiling) := by
    rw [executionLimit, hsettings, hversion, Option.bind_some, hrow]
  have hbase : ∃ micros, 0 < micros ∧
      (model.executionTimeout.map (1000 * ·)).getD model.manifest.modality.defaultExecutionTimeout =
          1000 * micros := by
    cases htimeout : model.executionTimeout with
    | some t => exact ⟨t, hdb.versions version model hrow t htimeout, rfl⟩
    | none =>
      cases model.manifest.modality with
      | image => exact ⟨2 * 3600 * 10 ^ 6, by decide, rfl⟩
      | video => exact ⟨24 * 3600 * 10 ^ 6, by decide, rfl⟩
  obtain ⟨micros, hmicros, hbase⟩ := hbase
  rw [hlimit, resolveExecutionTimeout, hbase, Option.map_none, Option.getD_none]
  exact ⟨by omega, by omega, by omega, rfl⟩

/-- The new Generation can be stored exactly where the request can. -/
theorem newGeneration_storable_iff (hdb : Constrained db) (hsettings : settingsOf db = some settings)
    (hmodel : modelOf db request.aliasName = some (version, model)) :
    (newGeneration request id version model settings now).Storable ↔
      storable request.aliasName ∧ request.Storable db := by
  obtain ⟨hpositive, hmicros, -, hlimit⟩ := executionLimit_bounds hdb hsettings hmodel
  have htimeout : (newGeneration request id version model settings now).executionTimeout =
      (request.executionTimeout.map (min · (executionLimit db request.aliasName))).getD
        (executionLimit db request.aliasName) := by
    rw [← hlimit]
    exact resolveExecutionTimeout_eq ..
  constructor
  · rintro ⟨haliasName, hparameters, hwhole, hsome⟩
    refine ⟨haliasName, hparameters, fun t ht hlt => ?_⟩
    rw [htimeout, Option.mem_def.1 ht, Option.map_some, Option.getD_some,
      min_eq_left hlt.le] at hwhole hsome
    exact ⟨hsome, hwhole⟩
  · rintro ⟨haliasName, hparameters, hshort⟩
    have hmin : (newGeneration request id version model settings now).executionTimeout % 1000 = 0 ∧
        0 < (newGeneration request id version model settings now).executionTimeout := by
      rw [htimeout]
      cases ht : request.executionTimeout with
      | none => exact ⟨hmicros, hpositive⟩
      | some t =>
        rw [Option.map_some, Option.getD_some]
        rcases Nat.lt_or_ge t (executionLimit db request.aliasName) with hlt | hge
        · rw [min_eq_left hlt.le]
          exact (hshort t ht hlt).symm
        · rw [min_eq_right hge]
          exact ⟨hmicros, hpositive⟩
    exact ⟨haliasName, hparameters, hmin.1, hmin.2⟩

/-- What the checks and the constraints see to. -/
theorem newGeneration_checked (hdb : Constrained db) (hsettings : settingsOf db = some settings)
    (hmodel : modelOf db request.aliasName = some (version, model))
    (hfresh : fetch db (generation id) = none) (hplacement : request.outputPlacement ≠ .remoteLocal)
    (hseed : validateSeed request.seed = .ok ()) :
    (newGeneration request id version model settings now).Checked db := by
  obtain ⟨-, -, hle, hlimit⟩ := executionLimit_bounds hdb hsettings hmodel
  refine ⟨hfresh, fun seed hmem => ?_, hplacement, ?_⟩
  · obtain ⟨seed, hsome, rfl⟩ := Option.map_eq_some_iff.1 hmem
    unfold validateSeed at hseed
    rw [hsome] at hseed
    dsimp only at hseed
    split at hseed
    · cases hseed
    · exact Nat.le_of_not_lt ‹_›
  · refine (Nat.div_le_div_right ?_).trans hle
    change resolveExecutionTimeout .. ≤ _
    rw [resolveExecutionTimeout_eq, hlimit]
    cases request.executionTimeout with
    | none => exact le_rfl
    | some t => exact min_le_right ..

/-- Parameters are refused with a reason. -/
theorem validateParameters_error {e : AdmissionError}
    (h : validateParameters request model.manifest = .error e) :
    e ≠ .internal := by
  rcases bind_eq_error_iff.1 h with h | ⟨_, -, h⟩
  · obtain ⟨err, -, rfl⟩ := mapError_eq_error_iff.1 h
    exact nofun
  · rcases bind_eq_error_iff.1 h with h | ⟨_, -, h⟩
    · obtain ⟨err, -, rfl⟩ := mapError_eq_error_iff.1 h
      exact nofun
    · cases h

/-- So is an input. -/
theorem validateInputArtifact_error {i : Uuid} {row : Option ArtifactRow} {limit : UInt64}
    {e : AdmissionError}
    (h : validateInputArtifact i row limit uploaded = .error e) : e ≠ .internal := by
  rintro rfl
  cases row with
  | none => cases h
  | some r =>
    simp only [validateInputArtifact, Bind.bind, Except.bind, throw, throwThe, MonadExceptOf.throw,
      Pure.pure, Except.pure] at h
    repeat' split at h
    all_goals simp at h

/-- So is a seed. -/
theorem validateSeed_error {e : AdmissionError} (h : validateSeed request.seed = .error e) :
    e ≠ .internal := by
  unfold validateSeed at h
  split at h
  · split at h
    · cases h
      exact nofun
    · cases h
  · cases h

/-- The checks of the inputs, one by one. -/
theorem checkInputs_run (ids : List Uuid) (limit : UInt64) (uploaded : Uuid → Bool) (db : Db) :
    (Prog.forEach (fun artifactId => do
      return validateInputArtifact artifactId (← Artifacts.get artifactId) limit uploaded) ids).run
        db =
        .ok (ids.map fun i => validateInputArtifact i (fetch db (artifact i)) limit uploaded,
          db) := by
  induction ids with
  | nil => rfl
  | cons i ids ih =>
    have hget : Prog.run (do
        return validateInputArtifact i (← Artifacts.get i) limit uploaded : Body
          (Except AdmissionError Unit)) db =
          .ok (validateInputArtifact i (fetch db (artifact i)) limit uploaded, db) := rfl
    rw [Prog.forEach, run_bind, hget]
    dsimp only
    rw [run_bind, ih]
    rfl

/-- The request is admitted or refused once its alias is looked up. -/
def AdmissionRequest.Resolvable (request : AdmissionRequest) (uploaded : Uuid → Bool) (db : Db)
    (settings : TenantSettings) : Prop :=
  storable request.aliasName ∧ ∀ version model, modelOf db request.aliasName = some (version, model) →
    request.Passes uploaded db settings model → request.Storable db

/-- Whether the queue has room. -/
def HasRoom (db : Db) (settings : TenantSettings) : Prop :=
  queueCapacityExceeded
    (db.generations.count fun _ r => !r.state.isTerminal) settings.maxQueuedGenerations = false

/-- Nothing is written before the insertion. -/
theorem admitFresh_run (hsettings : settingsOf db = some settings) :
    (admitFresh request id uploaded now clock).run db =
      if queueCapacityExceeded
        (db.generations.count fun _ r => !r.state.isTerminal) settings.maxQueuedGenerations then
        .ok (.rollback (.error .capacityExceeded), db)
      else if storable request.aliasName then
        match modelOf db request.aliasName with
        | none => .ok (.rollback (.error .unknownAlias), db)
        | some (version, model) =>
          match validateParameters request model.manifest with
          | .error e => .ok (.rollback (.error e), db)
          | .ok _ =>
            match (request.parameters.stagingArtifactIds.map fun i => validateInputArtifact i
                (fetch db (artifact i)) settings.maxInputArtifactBytes uploaded).forM
                  (fun checked => checked),
              validateSeed request.seed with
            | .error e, _ => .ok (.rollback (.error e), db)
            | .ok _, .error e => .ok (.rollback (.error e), db)
            | .ok _, .ok _ =>
              (admitNew request (newGeneration request id version model settings now) clock).run db
      else .error .encoding := by
  have hread : tenantSettings.run db = .ok (some settings, db) :=
    congrArg (fun o => Except.ok (o, db)) hsettings
  rw [admitFresh, bind_eq, run_bind, hread]
  dsimp only
  rw [Generations.countNonterminal, bind_eq, exec_bind, run_step_read]
  split
  · rfl
  rw [resolveModelAlias, bind_eq, exec_bind, run_step_require]
  split
  swap
  · rfl
  rw [run_step_read, ← modelOf]
  rcases modelOf db request.aliasName with _ | ⟨version, model⟩
  · rfl
  dsimp only
  cases validateParameters request model.manifest with
  | error e => rfl
  | ok _ =>
    dsimp only
    rw [bind_eq, run_bind, checkInputs_run]
    dsimp only
    generalize (request.parameters.stagingArtifactIds.map fun i => validateInputArtifact i
      (fetch db (artifact i)) settings.maxInputArtifactBytes uploaded).forM
        (fun checked => checked) = inputs
    generalize validateSeed request.seed = seed
    rcases inputs with e | _ <;> rcases seed with e' | _ <;> rfl

/-- A request that passes is inserted. -/
theorem admitFresh_run_passes (hsettings : settingsOf db = some settings)
    (hroom : HasRoom db settings) (haliasName : storable request.aliasName)
    (hmodel : modelOf db request.aliasName = some (version, model))
    (hpasses : request.Passes uploaded db settings model) :
    (admitFresh request id uploaded now clock).run db =
      (admitNew request (newGeneration request id version model settings now) clock).run db := by
  have hinputs : (request.parameters.stagingArtifactIds.map fun i => validateInputArtifact i
      (fetch db (artifact i)) settings.maxInputArtifactBytes uploaded).forM
          (fun checked => checked) = .ok () := by
    refine forM_eq_ok_iff.2 fun x hx => ?_
    obtain ⟨i, hi, rfl⟩ := List.mem_map.1 hx
    exact hpasses.inputs i hi
  rw [admitFresh_run hsettings, hroom, if_neg Bool.false_ne_true, if_pos haliasName, hmodel]
  dsimp only
  rw [hpasses.parameters]
  dsimp only
  rw [hinputs, hpasses.seed]

/-- An admission without a former one is answered or refused, if whatever passes its checks can be
    stored. -/
theorem admitFresh_classified (hdb : Constrained db) (hsettings : settingsOf db = some settings)
    (hfresh : fetch db (generation id) = none) (hplacement : request.outputPlacement ≠ .remoteLocal)
    (hkey : KeyUnused request db)
    (h : HasRoom db settings → request.Resolvable uploaded db settings) :
    Classified ((admitFresh request id uploaded now clock).run db) := by
  rw [admitFresh_run hsettings]
  split
  · exact .refused db nofun
  -- the queue has room
  rename_i hroom
  obtain ⟨haliasName, hstorable⟩ := h (Bool.eq_false_iff.2 hroom)
  rw [if_pos haliasName]
  cases hmodel : modelOf db request.aliasName with
  | none => exact .refused db nofun
  | some resolved =>
    obtain ⟨version, model⟩ := resolved
    dsimp only
    cases hparameters : validateParameters request model.manifest with
    | error e => exact .refused db (validateParameters_error hparameters)
    | ok _ =>
      dsimp only
      split
      · rename_i e hinputs
        obtain ⟨i, -, hi⟩ := List.mem_map.1 (mem_of_forM_eq_error hinputs)
        exact .refused db (validateInputArtifact_error hi)
      · rename_i e hseed
        exact .refused db (validateSeed_error hseed)
      · rename_i hinputs hseed
        -- every check is passed, so that it can be stored
        have hpasses : request.Passes uploaded db settings model :=
          ⟨hparameters, fun i hi => forM_eq_ok_iff.1 hinputs _ (List.mem_map_of_mem hi), hseed⟩
        have hnew : (newGeneration request id version model settings now).Storable :=
          (newGeneration_storable_iff hdb hsettings hmodel).2 ⟨haliasName,
            hstorable version model hmodel hpasses⟩
        exact admitNew_classified clock hnew
          (newGeneration_checked hdb hsettings hmodel hfresh hplacement hseed) hkey

/-- Otherwise it fails. -/
theorem admitFresh_fails (hdb : Constrained db) (hsettings : settingsOf db = some settings)
    (hroom : HasRoom db settings) (h : ¬ request.Resolvable uploaded db settings) :
    ∃ e, (admitFresh request id uploaded now clock).run db = .error e := by
  by_cases haliasName : storable request.aliasName
  · obtain ⟨version, model, hmodel, hpasses, hnot⟩ : ∃ version model,
        modelOf db request.aliasName = some (version, model) ∧
          request.Passes uploaded db settings model ∧
          ¬ request.Storable db := by
      by_contra hnone
      push Not at hnone
      exact h ⟨haliasName, hnone⟩
    rw [admitFresh_run_passes hsettings hroom haliasName hmodel hpasses]
    exact admitNew_fails request clock fun hnew =>
      hnot ((newGeneration_storable_iff hdb hsettings hmodel).1 hnew).2
  · rw [admitFresh_run hsettings, hroom, if_neg Bool.false_ne_true, if_neg haliasName]
    exact ⟨_, rfl⟩

/-! ## The whole admission -/

/-- The request is not decided by its placement or its key. -/
structure AdmissionRequest.Considered (request : AdmissionRequest) (objectStoreAvailable : Bool)
    (db : Db) : Prop where
  placement : request.outputPlacement ≠ .remoteLocal
  objectStore : request.outputPlacement = .objectStore → objectStoreAvailable
  key : ∀ key digest, request.idempotencyKey = some (key, digest) →
    fetch db (DbKey.idempotencyKey key) = none

/-- Every key that the request carries is a text. -/
def AdmissionRequest.KeyStorable (request : AdmissionRequest) : Prop :=
  ∀ key digest, request.idempotencyKey = some (key, digest) → storable key

/-- What is found of an idempotency key. -/
theorem replayIdempotent_run {key : String} {digest : Bytes} (hkey : storable key) :
    (replayIdempotent key digest).run db = match fetch db (idempotencyKey key) with
      | none => .ok (.ok none, db)
      | some existing =>
        if existing.requestDigest ≠ digest then
          .ok (.error (.invalidInput "idempotency key was already used with a different request"), db)
        else if (fetch db (generation existing.generationId)).isSome
          then .ok (.ok (some existing.generationId), db)
        else .ok (.error .internal, db) := by
  rw [replayIdempotent, bind_eq, exec_bind, run_step_require, if_pos hkey, run_step_read]
  cases fetch db (idempotencyKey key) with
  | none => rfl
  | some existing =>
    dsimp only
    split
    · rfl
    · rw [Generations.get, bind_eq, exec_bind, run_step_read]
      cases fetch db (generation existing.generationId) <;> rfl

variable {objectStoreAvailable : Bool}

/-- A request that is considered is admitted afresh. -/
theorem admitGeneration_run_considered (hkey : request.KeyStorable)
    (h : request.Considered objectStoreAvailable db) :
    (admitGeneration request id objectStoreAvailable uploaded now clock).run db =
      (admitFresh request id uploaded now clock).run db := by
  have hstore : ¬ (request.outputPlacement = .objectStore && !objectStoreAvailable) := by
    rw [Bool.and_eq_true, decide_eq_true_eq, Bool.not_eq_true']
    rintro ⟨hplacement, hnot⟩
    rw [h.objectStore hplacement] at hnot
    cases hnot
  rw [admitGeneration, if_neg h.placement, if_neg hstore]
  cases hrequest : request.idempotencyKey with
  | none => rfl
  | some k =>
    obtain ⟨key, digest⟩ := k
    dsimp only
    rw [bind_eq, run_bind, replayIdempotent_run (hkey key digest hrequest), h.key key digest hrequest]

/-- An admission is answered or refused, if whatever passes its checks can be stored. -/
theorem admitGeneration_classified (hdb : Constrained db) (hsettings : settingsOf db = some settings)
    (hfresh : fetch db (generation id) = none) (hkey : request.KeyStorable)
    (h : request.Considered objectStoreAvailable db → HasRoom db settings →
      request.Resolvable uploaded db settings) :
    Classified ((admitGeneration request id objectStoreAvailable uploaded now clock).run db) := by
  by_cases hconsidered : request.Considered objectStoreAvailable db
  · rw [admitGeneration_run_considered hkey hconsidered]
    exact admitFresh_classified hdb hsettings hfresh hconsidered.placement
      (fun key digest hrequest => ⟨hkey key digest hrequest, hconsidered.key key digest hrequest⟩)
        (h hconsidered)
  rw [admitGeneration]
  split
  · exact .refused db nofun
  -- otherwise it is refused before it looks at anything, or its key is used
  rename_i hplacement
  split
  · exact .refused db nofun
  rename_i hstore
  have hstore : request.outputPlacement = .objectStore → objectStoreAvailable := fun hplacement => by
    by_contra hnot
    exact hstore (by rw [hplacement, Bool.eq_false_iff.2 hnot]; rfl)
  split
  · rename_i hnone
    exact absurd ⟨hplacement, hstore,
      fun key digest hsome => absurd (hnone.symm.trans hsome) nofun⟩ hconsidered
  · rename_i key digest hrequest
    rw [bind_eq, run_bind, replayIdempotent_run (hkey key digest hrequest)]
    cases hrow : fetch db (idempotencyKey key) with
    | none =>
      refine absurd ⟨hplacement, hstore, fun key' digest' hrequest' => ?_⟩ hconsidered
      cases hrequest.symm.trans hrequest'
      exact hrow
    | some existing =>
      dsimp only
      by_cases hdigest : existing.requestDigest ≠ digest
      · rw [if_pos hdigest]
        exact .refused db nofun
      · rw [if_neg hdigest, if_pos (hdb.keys key existing hrow)]
        exact .admitted existing.generationId db

/-- Who is answered or refused is not told of an internal error. -/
theorem Classified.reply {r : Except DbError (Verdict (Except AdmissionError Uuid) × Db)}
    (h : Classified r) :
    admissionReply r ≠ .error .internal := by
  cases h with
  | refused db h => exact fun he => h (Except.error.inj he)
  | admitted g db => exact nofun

end Checks

/-! ## Atomicity -/

/-- What is committed is a Generation, never an error. -/
def CommitsGeneration (p : Body (Verdict (Except AdmissionError Uuid))) : Prop :=
  ∀ db a db', p.run db = .ok (.commit a, db') → ∃ g, a = .ok g

/-- What comes before the end of a transaction does not matter to how it ends. -/
theorem commitsGeneration_bind {β : Type} (p : Body β)
    {f : β → Body (Verdict (Except AdmissionError Uuid))}
    (h : ∀ b, CommitsGeneration (f b)) : CommitsGeneration (p.bind f) := by
  intro db a db' hrun
  rw [run_bind] at hrun
  cases hp : p.run db with
  | error e =>
    rw [hp] at hrun
    cases hrun
  | ok r =>
    rw [hp] at hrun
    exact h r.1 r.2 a db' hrun

theorem commitsGeneration_refused (e : AdmissionError) :
    CommitsGeneration (.done (.rollback (.error e))) := by
  rintro db a db' ⟨⟩

theorem commitsGeneration_admitted (g : Uuid) : CommitsGeneration (.done (.commit (.ok g))) := by
  rintro db a db' ⟨⟩
  exact ⟨g, rfl⟩

/-- An admission only commits with a Generation. -/
theorem admitNew_commitsGeneration (request : AdmissionRequest) (new : NewGeneration) (clock : Time) :
    CommitsGeneration (admitNew request new clock) := by
  have hrest : ∀ linked : ℕ, CommitsGeneration (admitLinked request new linked) := by
    intro linked
    rw [admitLinked]
    split
    · exact commitsGeneration_refused _
    dsimp only
    split
    · exact commitsGeneration_bind _ fun _ => commitsGeneration_admitted new.id
    · exact commitsGeneration_admitted new.id
  refine commitsGeneration_bind _ fun _ => ?_
  dsimp only
  split
  · exact hrest 0
  · exact commitsGeneration_bind _ hrest

/-- So it does with an idempotency key, which may stand for a former Generation. -/
theorem admitGeneration_commitsGeneration (request : AdmissionRequest) (id : Uuid)
    (objectStoreAvailable : Bool) (uploaded : Uuid → Bool) (now clock : Time) :
    CommitsGeneration (admitGeneration request id objectStoreAvailable uploaded now clock) := by
  have hfresh : CommitsGeneration (admitFresh request id uploaded now clock) :=
    admitFresh_cases request id uploaded now clock commitsGeneration_refused
      (fun p _ _ h => commitsGeneration_bind p h) fun new _ =>
        admitNew_commitsGeneration request new clock
  rw [admitGeneration]
  split
  · exact commitsGeneration_refused _
  split
  · exact commitsGeneration_refused _
  split
  · exact hfresh
  · refine commitsGeneration_bind _ fun replayed => ?_
    split
    · exact commitsGeneration_refused _
    · exact commitsGeneration_admitted _
    · exact hfresh

/-- A request that is refused changes nothing. -/
theorem admit_atomic (request : AdmissionRequest) (id : Uuid) (objectStoreAvailable : Bool)
    (uploaded : Uuid → Bool) (now clock : Time) (db : Db) (e : AdmissionError)
    (h : (admitRequest request id objectStoreAvailable uploaded now clock db).1 = .error e) :
    (admitRequest request id objectStoreAvailable uploaded now clock db).2 = db := by
  have hcommits :=
    admitGeneration_commitsGeneration request id objectStoreAvailable uploaded now clock db
  rw [admitRequest] at h ⊢
  dsimp only at h ⊢
  rw [Prog.commit]
  split
  · rename_i a db' hrun
    obtain ⟨g, rfl⟩ := hcommits a db' hrun
    rw [hrun] at h
    cases h
  · rfl

/-! ## Decoded requests -/

/-- A text that is trimmed can still be stored. -/
theorem storable_trim {s : String} (h : storable s) : storable (trim s) := by
  rw [storable, List.all_eq_true] at h ⊢
  rintro c hc
  rw [trim, String.toList_ofList] at hc
  exact h c ((List.dropWhile_suffix _).subset ((List.rdropWhile_prefix _ _).subset hc))

/-- The text of a header can be stored: it has visible characters only. -/
theorem storable_of_headerText {value text : String} (h : headerText value = some text) :
    storable text := by
  rw [headerText] at h
  split at h
  · rename_i hvisible
    cases h
    rw [List.all_eq_true] at hvisible
    refine List.all_eq_true.2 fun c hc => ?_
    rw [bne_iff_ne]
    rintro rfl
    exact absurd (hvisible _ hc) (by decide)
  · cases h

/-- The key of a decoded request is a text of visible characters. -/
theorem keyStorable_of_decodeSubmit [UuidText] {quote : String → String} {digest : Json → Bytes}
    {header : Option String} {wire : SubmitRequest} {request : AdmissionRequest}
    (h : decodeSubmit quote digest header wire = .ok request) : request.KeyStorable := by
  obtain ⟨key, hkey, h⟩ := bind_eq_ok_iff.1 h
  obtain ⟨_, -, h⟩ := bind_eq_ok_iff.1 h
  obtain ⟨_, -, h⟩ := bind_eq_ok_iff.1 h
  obtain ⟨_, -, h⟩ := bind_eq_ok_iff.1 h
  obtain ⟨_, -, h⟩ := bind_eq_ok_iff.1 h
  obtain rfl := Except.ok.inj h
  rintro key' digest' hrequest
  cases hrequest
  unfold requiredIdempotencyKey at hkey
  split at hkey
  · cases hkey
  rename_i text hfilter
  split at hkey
  · cases hkey
  cases hkey
  obtain ⟨htext, -⟩ := Option.filter_eq_some_iff.1 hfilter
  obtain ⟨text', hheader, rfl⟩ := Option.map_eq_some_iff.1 htext
  obtain ⟨value, -, hvalue⟩ := Option.bind_eq_some_iff.1 hheader
  exact storable_trim (storable_of_headerText hvalue)

/-- A decoded request gets no internal error, and changes nothing where it is refused, exactly where
    its alias has no NUL character, once it comes to be looked up, and its prompts and its timeout
    can be stored, once it passes the checks. -/
theorem admit_classified_iff [UuidText] (quote : String → String) (digest : Json → Bytes)
    (header : Option String) (wire : SubmitRequest) (request : AdmissionRequest)
    (hdecode : decodeSubmit quote digest header wire = .ok request)
    (id : Uuid) (objectStoreAvailable : Bool) (uploaded : Uuid → Bool) (now clock : Time) (db : Db)
    (settings : TenantSettings) (hsettings : settingsOf db = some settings) (hdb : Constrained db)
    (hfresh : fetch db (generation id) = none) :
    ((admitRequest request id objectStoreAvailable uploaded now clock db).1 ≠ .error .internal ∧
      ∀ e, (admitRequest request id objectStoreAvailable uploaded now clock db).1 = .error e →
        (admitRequest request id objectStoreAvailable uploaded now clock db).2 = db) ↔
      (request.Considered objectStoreAvailable db → HasRoom db settings →
        request.Resolvable uploaded db settings) := by
  have hkey := keyStorable_of_decodeSubmit hdecode
  constructor
  · rintro ⟨hreply, -⟩ hconsidered hroom
    by_contra hnot
    obtain ⟨e, hfails⟩ : ∃ e, (admitFresh request id uploaded now clock).run db = .error e :=
      admitFresh_fails hdb hsettings hroom hnot
    rw [admitRequest] at hreply
    dsimp only at hreply
    rw [admitGeneration_run_considered hkey hconsidered, hfails] at hreply
    exact hreply rfl
  · rintro h
    exact ⟨(admitGeneration_classified hdb hsettings hfresh hkey h).reply,
      fun e he => admit_atomic request id objectStoreAvailable uploaded now clock db e he⟩

namespace Sample

/-- A message that requests an image within so many nanoseconds. -/
def wireRequest (executionTimeout : ℕ) : SubmitRequest where
  modelAlias := some "qwen"
  generationParameters := some (.image ⟨"a fox", "", 1024, 1024, none, none, [], [], []⟩)
  outputPlacement := .known .workerLocal
  priority := 0
  seed := none
  executionTimeout := some executionTimeout

/-- The request that it is decoded to. -/
def hurried (executionTimeout : ℕ) : AdmissionRequest :=
  { request with executionTimeout := some executionTimeout, idempotencyKey := some ("retry-42", []) }

/-- A parser that no identifier of the message needs. -/
@[reducible] def noTexts : UuidText := ⟨fun _ => .error "no identifier"⟩

theorem decodeSubmit_wireRequest (executionTimeout : ℕ) :
    @decodeSubmit noTexts id (fun _ => []) (some " retry-42 ") (wireRequest executionTimeout) =
      .ok (hurried executionTimeout) := rfl

/-- Without keys, with the default settings and no timeouts of versions nothing is constrained. -/
theorem constrained_default {db : Db} (hkeys : db.idempotencyKeys.rows.isEmpty)
    (hdefault : settingsOf db = some .default)
    (hversions : db.modelVersions.rows.all fun e => e.2.executionTimeout.isNone) :
    Constrained db where
  keys key row hrow := by
    have hmem : (key, row) ∈ db.idempotencyKeys.rows := Table.mem_rows.2 hrow
    rw [List.isEmpty_iff.1 hkeys] at hmem
    cases hmem
  ceiling settings hsettings := by
    rw [hdefault] at hsettings
    obtain rfl := Option.some_inj.1 hsettings
    decide
  versions version row hrow t ht := by
    have hnone := List.all_eq_true.1 hversions (version, row) (Table.mem_rows.2 hrow)
    rw [Option.mem_def.1 ht] at hnone
    cases hnone

theorem settingsOf_after : settingsOf (after []) = some .default := by decide +kernel

theorem constrained_after : Constrained (after []) :=
  constrained_default (by decide +kernel) settingsOf_after (by decide +kernel)

end Sample

/-- A requested timeout of a second is admitted. -/
theorem admit_classified_second :
    (admitRequest (Sample.hurried (10 ^ 9)) 32 false (fun _ => false) 0 0 (Sample.after [])).1 ≠
      .error .internal := by
  have hfresh : fetch (Sample.after []) (generation 32) = none := by decide +kernel
  have hiff := @admit_classified_iff Sample.noTexts id (fun _ => []) _ _ _
    (Sample.decodeSubmit_wireRequest (10 ^ 9)) 32 false
      (fun _ => false) 0 0 _ _ Sample.settingsOf_after
    Sample.constrained_after hfresh
  refine (hiff.2 fun _ _ => ⟨by decide, fun _ _ _ _ => ⟨by decide, fun t ht _ => ?_⟩⟩).1
  cases ht
  decide

/-- A requested timeout of zero is an internal error. -/
theorem admit_zero_timeout : @Reaches Sample.manifestHash (Sample.after []) ∧
    (settingsOf (Sample.after [])).isSome ∧ (∃ request,
      @decodeSubmit Sample.noTexts id (fun _ => []) (some " retry-42 ") (Sample.wireRequest 0) =
        .ok request ∧
      (admitRequest request 32 false (fun _ => false) 0 0 (Sample.after [])).1 = .error .internal) :=
  ⟨Sample.reaches_after _, by decide +kernel, _, Sample.decodeSubmit_wireRequest 0, by decide +kernel⟩

end Gpq
