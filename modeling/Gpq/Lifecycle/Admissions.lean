import Gpq.Remote.Digest
import Gpq.Lifecycle.Observation

/-!
# Admissions

What an admission that commits leaves (`Admitted`), and what follows for a replay of its
idempotency key. The digest separates two requests that become different Generations
exactly where they do not differ in a fraction of a second of the execution timeout alone
(`digest_separates_iff`, `digest_collides`).
-/

namespace Gpq

open Sql DbKey

/-- The Tenant's settings. -/
def settingsOf (db : Db) : Option TenantSettings :=
  ((fetch db tenant).filter fun r => r.deletedAt.isNone).map TenantRow.settings

/-- Only the Generation, Artifacts and keys are written. -/
def Within (id : Uuid) (db db' : Db) : Prop :=
  ∀ k, k ≠ generation id → (∀ i, k ≠ artifact i) → (∀ key, k ≠ idempotencyKey key) →
    fetch db' k = fetch db k

/-- The new Generation is inserted in `db`, and is there in `db'`. -/
structure Inserted (new : NewGeneration) (row : GenerationRow) (db db' : Db) : Prop where
  fresh : fetch db (generation new.id) = none
  inserted : Generations.insertion new db = .ok ((), [⟨generation new.id, some row⟩])
  stays : fetch db' (generation new.id) = some row
  within : Within new.id db db'

/-- The request became the Generation `id`: the row that was inserted, from the Tenant's
    settings and the version that the alias resolves to. -/
def Admitted (request : AdmissionRequest) (id : Uuid) (row : GenerationRow) (db db' : Db) : Prop :=
  ∃ (settings : TenantSettings) (version : ContentHash) (model : ModelVersionRow) (now : Time),
    settingsOf db = some settings ∧ fetch db (modelAlias request.aliasName) = some version ∧
    fetch db (modelVersion version) = some model ∧
    validateParameters request model.manifest = .ok () ∧
    Inserted (newGeneration request id version model settings now) row db db'

section Admission

variable {request : AdmissionRequest} {id : Uuid} {db : Db}

/-- Artifacts and idempotency keys may be written besides. -/
theorem Within.writes {db' : Db} (h : Within id db db') {ws : List (Write Db)}
    (hws : ∀ w ∈ ws, (∃ i, w.1 = artifact i) ∨ ∃ key, w.1 = idempotencyKey key) :
    Within id db (applyAll db' ws) := by
  intro k hk ha hi
  rw [fetch_applyAll_of_notMem db' fun w hw hwk => ?_, h k hk ha hi]
  obtain ⟨i, hwi⟩ | ⟨key, hwi⟩ := hws w hw
  · exact ha i (hwk.symm.trans hwi)
  · exact hi key (hwk.symm.trans hwi)

/-- A Generation that was inserted stays so when Artifacts and idempotency keys are written. -/
theorem Inserted.writes {new : NewGeneration} {row : GenerationRow} {db' : Db}
    (h : Inserted new row db db') {ws : List (Write Db)}
    (hws : ∀ w ∈ ws, (∃ i, w.1 = artifact i) ∨ ∃ key, w.1 = idempotencyKey key) :
    Inserted new row db (applyAll db' ws) := by
  refine ⟨h.fresh, h.inserted, ?_, h.within.writes hws⟩
  rw [fetch_applyAll_of_notMem db' fun w hw hwk => ?_, h.stays]
  obtain ⟨i, hwi⟩ | ⟨key, hwi⟩ := hws w hw
  · cases hwk.symm.trans hwi
  · cases hwk.symm.trans hwi

/-- An insert makes a Generation out of nothing. -/
theorem insert_ensures (new : NewGeneration) (db : Db) :
    (Generations.insert new).Ensures ⊤ (fun _ db' => ∃ row, Inserted new row db db') db := by
  refine Prog.ensures_require fun _ => Prog.ensures_write fun _ ws hws => ⟨fun _ => trivial, ?_⟩
  obtain ⟨hnew, row, rfl, -⟩ := Generations.insertion_eq_ok hws
  refine ⟨row, hnew, hws, Database.fetch_store_self .., fun k hk _ _ => ?_⟩
  exact Db.fetch_store_ne _ _ hk

/-- What `admitNew` leaves where it commits. -/
theorem admitNew_ensures (request : AdmissionRequest) (new : NewGeneration) (clock : Time) (db : Db) :
    (admitNew request new clock).Ensures ⊤ (fun v db' => ∀ i, v = .commit (.ok i) →
      i = new.id ∧ ∃ row, Inserted new row db db') db := by
  refine Prog.ensures_bind ((insert_ensures new db).mono fun _ db₁ ⟨row, h⟩ => ?_)
  have hrest : ∀ (linked : ℕ) db₁, Inserted new row db db₁ →
      Prog.Ensures ⊤ (admitLinked request new linked) (fun v db' =>
        ∀ i, v = .commit (.ok i) → i = new.id ∧ ∃ row, Inserted new row db db') db₁ := by
    intro linked db₁ h
    rw [admitLinked]
    split
    · exact Prog.ensures_done (by simp)
    dsimp only
    split
    · refine Prog.ensures_bind (Prog.ensures_require fun _ => Prog.ensures_write fun _ ws hws =>
        ⟨fun _ => trivial, ?_⟩)
      split at hws
      · cases hws
      cases hws
      rintro i ⟨⟩
      exact ⟨rfl, row, h.writes fun w hw => .inr ⟨_, congrArg Sigma.fst (List.mem_singleton.1 hw)⟩⟩
    · rintro i ⟨⟩
      exact ⟨rfl, row, h⟩
  dsimp only
  split
  · exact hrest 0 db₁ h
  · refine Prog.ensures_bind (Prog.ensures_write fun _ ws hws => ⟨fun _ => trivial, ?_⟩)
    cases hws
    refine hrest _ _ (h.writes fun w hw => .inl ?_)
    obtain ⟨e, -, rfl⟩ := List.mem_map.1 hw
    exact ⟨e.1, rfl⟩

/-- The checks of the inputs change nothing. -/
theorem checkInputs_ensures (ids : List Uuid) (limit : UInt64) (uploaded : Uuid → Bool) (db : Db) :
    (Prog.forEach (fun artifactId => do
      return validateInputArtifact artifactId (← Artifacts.get artifactId) limit uploaded)
        ids).Ensures ⊤
        (fun _ db' => db' = db) db :=
  Prog.ensures_forEach (I := fun db' => db' = db)
    (fun _ _ _ hs => Prog.ensures_read (Prog.ensures_done hs)) rfl

/-- What `admitFresh` leaves where it commits. -/
theorem admitFresh_ensures (request : AdmissionRequest) (id : Uuid) (uploaded : Uuid → Bool)
    (now clock : Time) (db : Db) :
    (admitFresh request id uploaded now clock).Ensures ⊤ (fun v db' => ∀ i, v = .commit (.ok i) →
      i = id ∧ ∃ row, Admitted request id row db db') db := by
  refine Prog.ensures_read ?_
  cases hsettings : ((fetch db tenant).filter fun r => r.deletedAt.isNone).map TenantRow.settings with
  | none => exact Prog.ensures_done nofun
  | some settings =>
    refine Prog.ensures_read ?_
    rw [Prog.done_bind]
    split
    · exact Prog.ensures_done nofun
    refine Prog.ensures_require fun _ => Prog.ensures_read ?_
    cases hversion : fetch db (modelAlias request.aliasName) with
    | none => exact Prog.ensures_done nofun
    | some version =>
      cases hmodel : fetch db (modelVersion version) with
      | none =>
        simp only [Option.bind_eq_bind, Option.bind_some, hmodel]
        exact Prog.ensures_done nofun
      | some model =>
        simp only [Option.bind_eq_bind, Option.bind_some, hmodel]
        rw [Option.pure_def, Prog.done_bind]
        dsimp only
        split
        · exact Prog.ensures_done nofun
        rename_i hvalid
        refine Prog.ensures_bind ((checkInputs_ensures ..).mono fun inputs db' hdb' => ?_)
        subst hdb'
        split
        · exact Prog.ensures_done nofun
        · exact Prog.ensures_done nofun
        refine (admitNew_ensures request _ clock db').mono fun v db'' h i hi => ?_
        obtain ⟨rfl, row, hrow⟩ := h i hi
        exact ⟨rfl, row, settings, version, model, now, hsettings, hversion, hmodel, hvalid, hrow⟩

/-- A replay changes nothing, and answers with a Generation that is there. -/
theorem replayIdempotent_ensures (key : String) (digest : Bytes) (db : Db) :
    (replayIdempotent key digest).Ensures ⊤ (fun r db' => db' = db ∧
      ∀ g, r = .ok (some g) → (fetch db (generation g)).isSome) db := by
  refine Prog.ensures_require fun _ => Prog.ensures_read ?_
  cases fetch db (idempotencyKey key) with
  | none => exact Prog.ensures_done ⟨rfl, nofun⟩
  | some existing =>
    rw [Prog.done_bind]
    dsimp only
    split
    · exact Prog.ensures_done ⟨rfl, nofun⟩
    refine Prog.ensures_read ?_
    cases hrow : fetch db (generation existing.generationId) with
    | none => exact Prog.ensures_done ⟨rfl, nofun⟩
    | some row =>
      refine Prog.ensures_done ⟨rfl, fun g hg => ?_⟩
      cases hg
      rw [hrow]
      rfl

/-- A request that is admitted anew became the Generation it is told. -/
theorem admitGeneration_ensures (request : AdmissionRequest) (id : Uuid) (available : Bool)
    (uploaded : Uuid → Bool) (now clock : Time) (db : Db) (hnew : fetch db (generation id) = none) :
    (admitGeneration request id available uploaded now clock).Ensures ⊤ (fun v db' =>
      v = .commit (.ok id) → ∃ row, Admitted request id row db db') db := by
  have hfresh : (admitFresh request id uploaded now clock).Ensures ⊤ (fun v db' =>
      v = .commit (.ok id) → ∃ row, Admitted request id row db db') db :=
    Prog.Ensures.mono (admitFresh_ensures request id uploaded now clock db) fun _ _ h hv =>
      (h id hv).2
  unfold admitGeneration
  split
  · exact Prog.ensures_done nofun
  split
  · exact Prog.ensures_done nofun
  split
  · exact hfresh
  rename_i key digest _
  refine Prog.ensures_bind ((replayIdempotent_ensures key digest db).mono ?_)
  rintro r db' ⟨rfl, hreplay⟩
  cases r with
  | error e => exact Prog.ensures_done nofun
  | ok replayed =>
    cases replayed with
    | none => exact hfresh
    | some existing =>
      refine Prog.ensures_done fun hv => ?_
      cases hv
      have hsome := hreplay id rfl
      rw [hnew] at hsome
      cases hsome

end Admission

/-! ## Replays -/

section Replays

variable {db : Db} {x y : AdmissionRequest} {row row' : GenerationRow}

/-- Admission turns the request into the Generation. -/
def Becomes (x : AdmissionRequest) (db : Db) (row : GenerationRow) : Prop :=
  ∃ (id : Uuid) (available : Bool) (uploaded : Uuid → Bool) (now clock : Time) (db' : Db),
    fetch db (generation id) = none ∧
    (admitGeneration x id available uploaded now clock).run db = .ok (.commit (.ok id), db') ∧
    fetch db' (generation id) = some row

/-- The two Generations differ in something that the request decides. -/
def Differ (row row' : GenerationRow) : Prop :=
  row.aliasName ≠ row'.aliasName ∨ row.parameters ≠ row'.parameters ∨
    row.outputPlacement ≠ row'.outputPlacement ∨ row.priority ≠ row'.priority ∨ row.seed ≠ row'.seed ∨
    row.executionTimeout ≠ row'.executionTimeout

/-- The execution timeout that the model and the Tenant set, in nanoseconds; a request may
    shorten it. -/
def executionLimit (db : Db) (aliasName : String) : ℕ :=
  match settingsOf db, (fetch db (modelAlias aliasName)).bind fun v => fetch db (modelVersion v) with
  | some settings, some model => resolveExecutionTimeout model.manifest.modality
      (model.executionTimeout.map (1000 * ·)) none (1000 * settings.executionTimeoutCeiling)
  | _, _ => 0

/-- The requests differ in the fraction of a second of the timeout alone, and the shorter
    one is below the limit. -/
def DifferInFraction (limit : ℕ) (x y : AdmissionRequest) : Prop :=
  x.aliasName = y.aliasName ∧ x.parameters = y.parameters ∧ x.outputPlacement = y.outputPlacement ∧
    x.priority = y.priority ∧ x.seed = y.seed ∧
    ∃ s t, x.executionTimeout = some s ∧ y.executionTimeout = some t ∧ s / 10 ^ 9 = t / 10 ^ 9 ∧
      s ≠ t ∧ min s t < limit

/-- Parameters that are accepted have only finite numbers. -/
theorem GenerationParameters.finite_of_validate {p : GenerationParameters} {family : ModelFamily}
    (h : p.validateForFamily family = .ok ()) : p.Finite := by
  cases p with
  | video p => trivial
  | image p =>
    cases family with
    | minimaxH3 => cases h
    | qwenImage21 =>
      have hvalid : p.Valid := ImageParameters.valid_of_validate h
      refine ⟨hvalid.cfgScale, hvalid.loras, fun sigmas hsigmas => ?_⟩
      -- sigmas that are counted are finite
      have hok := hvalid.sigmas sigmas hsigmas
      rw [sigmaStepCount] at hok
      split at hok
      · cases hok
      · rename_i hfinite
        simpa using hfinite

/-- An admission only accepts parameters that are valid for the family of its model. -/
theorem validateForFamily_of_validateParameters {x : AdmissionRequest} {manifest : ModelManifest}
    (h : validateParameters x manifest = .ok ()) :
    x.parameters.validateForFamily manifest.family = .ok () := by
  rw [validateParameters] at h
  cases hok : x.parameters.validateForFamily manifest.family with
  | ok u => rfl
  | error e =>
    rw [hok] at h
    cases h

/-- A request shortens the limit. -/
theorem resolveExecutionTimeout_eq (modality : Modality) (version requested : Option ℕ)
    (ceiling : ℕ) :
    resolveExecutionTimeout modality version requested ceiling =
      (requested.map (min · (resolveExecutionTimeout modality version none ceiling))).getD
        (resolveExecutionTimeout modality version none ceiling) := by
  cases requested with
  | none => rfl
  | some t =>
    simp only [resolveExecutionTimeout, Option.map_some, Option.getD_some, Option.map_none,
      Option.getD_none]
    exact min_assoc ..

/-- What the inserted row takes from the request. -/
theorem insertion_row {new : NewGeneration} {row : GenerationRow} {db : Db}
    (h : Generations.insertion new db = .ok ((), [⟨generation new.id, some row⟩])) :
    row.aliasName = new.aliasName ∧ row.parameters = new.parameters ∧
      row.outputPlacement = new.outputPlacement ∧ row.seed = new.seed ∧ row.priority = new.priority ∧
      row.executionTimeout = (new.executionTimeout / 1000 : ℕ) ∧ new.executionTimeout % 1000 = 0 := by
  unfold Generations.insertion at h
  dsimp only at h
  split at h
  · cases h
  split at h
  · cases h
  rename_i hmicros
  split at h
  · cases h
  split at h
  · obtain rfl := by simpa using h
    exact ⟨rfl, rfl, rfl, rfl, rfl, rfl, not_not.1 (not_or.1 hmicros).1⟩
  · cases h

/-- What the Generation takes from the request. -/
theorem Becomes.row_eq (h : Becomes x db row) : x.parameters.Finite ∧ row.aliasName = x.aliasName ∧
    row.parameters = x.parameters ∧ row.outputPlacement = x.outputPlacement ∧
    row.seed = x.seed.map UInt64.toNat ∧
    (∃ settings, settingsOf db = some settings ∧
      row.priority = x.priority.getD settings.defaultPriority) ∧
    ∃ micros : ℕ, row.executionTimeout = micros ∧ 1000 * micros =
      (x.executionTimeout.map (min · (executionLimit db x.aliasName))).getD
        (executionLimit db x.aliasName) := by
  obtain ⟨id, available, uploaded, now, clock, db', hnew, hrun, hrow⟩ := h
  obtain ⟨row₁, settings, version, model, now₁, hsettings, hversion, hmodel, hvalid, hins⟩ :=
    (admitGeneration_ensures x id available uploaded now clock db hnew).of_run hrun rfl
  obtain rfl : row₁ = row := Option.some_inj.1 (hins.stays.symm.trans hrow)
  obtain ⟨halias, hparams, hplacement, hseed, hpriority, htimeout, hwhole⟩ :=
    insertion_row hins.inserted
  refine ⟨GenerationParameters.finite_of_validate
    (validateForFamily_of_validateParameters hvalid), halias,
    hparams, hplacement, hseed, ⟨settings, hsettings, hpriority⟩, _, htimeout, ?_⟩
  have hlimit : executionLimit db x.aliasName = resolveExecutionTimeout model.manifest.modality
      (model.executionTimeout.map (1000 * ·)) none (1000 * settings.executionTimeoutCeiling) := by
    rw [executionLimit, hsettings, hversion, Option.bind_some, hmodel]
  rw [Nat.mul_div_cancel' (Nat.dvd_of_mod_eq_zero hwhole), hlimit]
  exact resolveExecutionTimeout_eq ..

/-- The bytes that are digested separate requests that become different Generations exactly
    where the requests do not differ in the fraction of a second of the timeout alone. -/
theorem digest_separates_iff (render : Json → Bytes) (db : Db) (x y : AdmissionRequest)
    (row row' : GenerationRow) (hx : Becomes x db row) (hy : Becomes y db row')
    (hrender : render (digestPayload x) = render (digestPayload y) →
      digestPayload x = digestPayload y) :
    (Differ row row' → render (digestPayload x) ≠ render (digestPayload y)) ↔
      ¬ DifferInFraction (executionLimit db x.aliasName) x y := by
  obtain ⟨hfin, halias, hparams, hplacement, hseed, ⟨settings, hsettings, hpriority⟩, m, hm,
    htimeout⟩ :=
    hx.row_eq
  obtain ⟨hfin', halias', hparams', hplacement', hseed', ⟨settings', hsettings', hpriority'⟩, m', hm',
    htimeout'⟩ := hy.row_eq
  obtain rfl : settings' = settings := Option.some_inj.1 (hsettings'.symm.trans hsettings)
  have hpayload := digestPayload_eq_iff hfin hfin'
  generalize hlimit : executionLimit db x.aliasName = limit at htimeout ⊢
  constructor
  · rintro hsep ⟨ha, hp, ho, hpri, hs, s, t, hxs, hyt, hsec, hne, hlt⟩
    refine hsep (.inr (.inr (.inr (.inr (.inr ?_))))) ?_
    · rw [hxs] at htimeout
      rw [← ha, hlimit, hyt] at htimeout'
      rw [hm, hm']
      simp only [Option.map_some, Option.getD_some] at htimeout htimeout'
      refine fun h => ?_
      have hmicros : m = m' := Int.ofNat.inj h
      omega
    · rw [hpayload.2 ⟨ha, hp, ho, hpri, hs, by rw [hxs, hyt]; exact congrArg some hsec⟩]
  · intro hfraction hdiffer hsame
    obtain ⟨ha, hp, ho, hpri, hs, ht⟩ := hpayload.1 (hrender hsame)
    rw [← ha, hlimit] at htimeout'
    -- everything but the timeout is the same, so the timeouts are what differs
    obtain hd | hd | hd | hd | hd | hd := hdiffer
    · exact hd (halias.trans (ha.trans halias'.symm))
    · exact hd (hparams.trans (hp.trans hparams'.symm))
    · exact hd (hplacement.trans (ho.trans hplacement'.symm))
    · exact hd (hpriority.trans ((congrArg (Option.getD · _) hpri).trans
        hpriority'.symm))
    · exact hd (hseed.trans ((congrArg (Option.map UInt64.toNat) hs).trans hseed'.symm))
    · have hne : m ≠ m' := fun h => hd (by rw [hm, hm', h])
      cases hxs : x.executionTimeout with
      | none =>
        rw [hxs, Option.map_none, eq_comm, Option.map_eq_none_iff] at ht
        rw [hxs] at htimeout
        rw [ht] at htimeout'
        exact hne (by omega)
      | some s =>
        cases hyt : y.executionTimeout with
        | none =>
          rw [hyt, Option.map_none, Option.map_eq_none_iff, hxs] at ht
          cases ht
        | some t =>
          rw [hxs, hyt, Option.map_some, Option.map_some, Option.some_inj] at ht
          rw [hxs] at htimeout
          rw [hyt] at htimeout'
          simp only [Option.map_some, Option.getD_some] at htimeout htimeout'
          exact hfraction ⟨ha, hp, ho, hpri, hs, s, t, hxs, hyt, ht, by omega, by omega⟩

end Replays

namespace Sample

/-- The sample request with an execution timeout, in milliseconds. -/
def timed (timeout : ℕ) : AdmissionRequest :=
  { request with executionTimeout := some (timeout * 10 ^ 6) }

/-- The text that is digested, in bytes. -/
def render (payload : Json) : Bytes := payload.text.map fun c => UInt8.ofNat c.toNat

/-- The sample request becomes a Generation with the timeout that it asks for. -/
theorem becomes_timed (t : ℕ)
    (h : (match (admitGeneration (timed t) 51 false (fun _ => false) 0 0).run (after []) with
      | .ok (.commit (.ok 51), db') => (fetch db' (generation 51)).any fun row : GenerationRow =>
          row.executionTimeout = (t * 1000 : ℕ)
      | _ => false) = true) :
    ∃ row, Becomes (timed t) (after []) row ∧ row.executionTimeout = (t * 1000 : ℕ) := by
  split at h
  · rename_i db' hrun
    obtain ⟨row, hrow, htimeout⟩ := (Option.any_eq_true ..).1 h
    exact ⟨row, ⟨51, _, _, _, _, db', by decide +kernel, hrun, hrow⟩, of_decide_eq_true htimeout⟩
  · cases h

end Sample

/-- 90.2 and 90.8 seconds become different Generations, and are digested alike. -/
theorem digest_collides : ∃ row row', Becomes (Sample.timed 90200) (Sample.after []) row ∧
    Becomes (Sample.timed 90800) (Sample.after []) row' ∧ Differ row row' ∧
    digestPayload (Sample.timed 90200) = digestPayload (Sample.timed 90800) := by
  obtain ⟨row, hx, htimeout⟩ := Sample.becomes_timed 90200 (by decide +kernel)
  obtain ⟨row', hy, htimeout'⟩ := Sample.becomes_timed 90800 (by decide +kernel)
  refine ⟨row, row', hx, hy, .inr (.inr (.inr (.inr (.inr ?_)))), rfl⟩
  rw [htimeout, htimeout']
  decide

/-- 90 and 91 seconds are told apart. -/
theorem digest_separates_seconds :
    Sample.render (digestPayload (Sample.timed 90000)) ≠
      Sample.render (digestPayload (Sample.timed 91000)) := by
  obtain ⟨row, hx, htimeout⟩ := Sample.becomes_timed 90000 (by decide +kernel)
  obtain ⟨row', hy, htimeout'⟩ := Sample.becomes_timed 91000 (by decide +kernel)
  have htexts : Sample.render (digestPayload (Sample.timed 90000)) ≠
      Sample.render (digestPayload (Sample.timed 91000)) := by decide +kernel
  refine (digest_separates_iff Sample.render _ _ _ row row' hx hy (absurd · htexts)).2 ?_
    (.inr (.inr (.inr (.inr (.inr ?_)))))
  · rintro ⟨-, -, -, -, -, s, t, hs, ht, hsec, -⟩
    cases hs
    cases ht
    exact absurd hsec (by decide)
  · rw [htimeout, htimeout']
    decide

end Gpq
