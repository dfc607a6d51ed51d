import Gpq.Lib.Serial
import Gpq.Lifecycle.Cancellation
import Gpq.Remote.Settings

/-!
# Storing and updating settings

Settings are read back as they were stored exactly where their columns hold them
(`settings_roundTrip_iff`), which the checks of a message do not see to.

Two `UpdateTenantSettings` calls with disjoint masks, statement by statement. An update
writes back the whole row that it read, and the read takes no lock:

  * `settings_compose`: where each call reads only while the other is not under way, the
    row holds the masked values of both calls, and the earlier values elsewhere;
  * `update_lost`: where both read first, the second write brings back the earlier value
    of a field that the first had set.
-/

namespace Gpq

open Sql DbKey

/-! ## One update -/

/-- The value of a field, as a number. -/
def WireTenantSettings.value (settings : WireTenantSettings) : SettingsField → Option ℕ
  | .maximumQueueAge => settings.maximumQueueAge
  | .maxQueuedGenerations => settings.maxQueuedGenerations.toNat
  | .maxInputArtifactBytes => settings.maxInputArtifactBytes.toNat
  | .maxOutputArtifactBytes => settings.maxOutputArtifactBytes.toNat
  | .executionTimeoutCeiling => settings.executionTimeoutCeiling
  | .defaultPriority => settings.defaultPriority.toNat

/-- Whether the field is a duration. -/
def SettingsField.isDuration (field : SettingsField) : Bool :=
  field = maximumQueueAge || field = executionTimeoutCeiling

/-- A duration that its column holds exactly: whole microseconds, within 64 bits. -/
def Exactly (nanoseconds : ℕ) : Prop := nanoseconds % 1000 = 0 ∧ nanoseconds / 1000 ≤ i64Max

/-- The settings of a row, as a message carries them. -/
def TenantSettings.wire (row : TenantSettings) : WireTenantSettings :=
  tenantSettingsToProto row.toDomain

/-- Every value is one that its column can hold. -/
structure TenantSettings.Fits (row : TenantSettings) : Prop where
  maximumQueueAge : row.maximumQueueAge ≤ i64Max
  maxQueuedGenerations : row.maxQueuedGenerations ≤ i32Max
  maxInputArtifactBytes : row.maxInputArtifactBytes.toNat ≤ i64Max
  maxOutputArtifactBytes : row.maxOutputArtifactBytes.toNat ≤ i64Max
  executionTimeoutCeiling : row.executionTimeoutCeiling ≤ i64Max

@[simp] theorem SettingsField.ofPath?_maskPath (field : SettingsField) :
    ofPath? field.maskPath = some field := by
  cases field <;> rfl

theorem SettingsField.maskPath_of_ofPath? {path : String} {field : SettingsField}
    (h : ofPath? path = some field) : field.maskPath = path := by
  unfold ofPath? at h
  split at h <;> cases h <;> rfl

/-- A field that is taken has the incoming value, every other the current one. -/
theorem SettingsField.value_take (incoming current : WireTenantSettings)
    (field other : SettingsField) :
    (field.take incoming current).value other =
      if other = field then incoming.value other else current.value other := by
  cases field <;> cases other <;> rfl

section Mask

variable {current incoming merged : WireTenantSettings} {updateMask : List String}

/-- A field that the mask names has the new value, every other the old one. -/
theorem value_foldlM_take (h : updateMask.foldlM (fun merged path =>
      match SettingsField.ofPath? path with
      | some field => .ok (field.take incoming merged)
      | none => .error (.unknownPath path)) current =
        (.ok merged : Except SettingsError WireTenantSettings)) (field : SettingsField) :
    merged.value field =
      if field.maskPath ∈ updateMask then incoming.value field else current.value field := by
  induction updateMask generalizing current with
  | nil =>
    cases h
    rfl
  | cons path rest ih =>
    rw [List.foldlM_cons] at h
    cases hpath : SettingsField.ofPath? path with
    | none =>
      rw [hpath] at h
      cases h
    | some named =>
      rw [hpath] at h
      rw [ih h, SettingsField.value_take]
      have hnamed := SettingsField.maskPath_of_ofPath? hpath
      -- a field may be named again further on
      by_cases hrest : field.maskPath ∈ rest
      · simp [hrest]
      · by_cases heq : field = named
        · simp [heq, hnamed]
        · have hne : field.maskPath ≠ path := by
            rintro rfl
            rw [SettingsField.ofPath?_maskPath] at hpath
            cases hpath
            exact heq rfl
          simp [hrest, heq, hne]

/-- A mask that names something changes what it names, and nothing else. -/
theorem value_applyUpdateMask (hmask : updateMask ≠ [])
    (h : applyUpdateMask current incoming updateMask = .ok merged) (field : SettingsField) :
    merged.value field =
      if field.maskPath ∈ updateMask then incoming.value field else current.value field := by
  rw [applyUpdateMask, if_neg hmask] at h
  exact value_foldlM_take h field

end Mask

/-- A check that was passed. -/
theorem ok_of_check {ε α : Type} {failed : Prop} [Decidable failed] {e : ε}
    {rest : Except ε α} {a : α}
    (h : (if failed then .error e else rest) = .ok a) : rest = .ok a := by
  by_cases hfailed : failed
  · rw [if_pos hfailed] at h
    cases h
  · rwa [if_neg hfailed] at h

/-- A priority is written as it was read. -/
theorem ofNat_of_priorityFromWire {value : UInt32} {priority : Priority}
    (h : priorityFromWire value = .ok priority) : UInt32.ofNat priority = value := by
  unfold priorityFromWire at h
  split at h
  · cases h
    exact UInt32.ofNat_toNat
  · cases h

/-- Settings that pass the checks are those of the message. -/
theorem tenantSettingsToProto_of_fromProto {wire : WireTenantSettings}
    {settings : DomainTenantSettings}
    (h : tenantSettingsFromProto wire = .ok settings) : tenantSettingsToProto settings = wire := by
  obtain ⟨age, queued, input, output, ceiling, priority⟩ := wire
  unfold tenantSettingsFromProto at h
  cases age with
  | none => cases h
  | some age =>
    replace h := ok_of_check h
    cases ceiling with
    | none => cases h
    | some ceiling =>
      replace h := ok_of_check (ok_of_check (ok_of_check (ok_of_check h)))
      cases hpriority : priorityFromWire priority with
      | error e =>
        rw [hpriority] at h
        cases h
      | ok value =>
        rw [hpriority] at h
        cases h
        rw [tenantSettingsToProto, ofNat_of_priorityFromWire hpriority]

/-- A duration of whole microseconds that fits is stored exactly. -/
theorem intervalFromDuration_mul {nanoseconds : ℕ} (h : Exactly nanoseconds) :
    (intervalFromDuration nanoseconds).toNat * 1000 = nanoseconds := by
  obtain ⟨hmod, hle⟩ := h
  have hint : intervalFromDuration nanoseconds = (nanoseconds / 1000 : ℕ) := by
    unfold i64Max at hle
    rw [intervalFromDuration, BitVec.toInt_ofNat']
    exact Int.bmod_eq_of_le (by omega) (by omega)
  rw [hint]
  omega

theorem intervalFromDuration_le (nanoseconds : ℕ) :
    (intervalFromDuration nanoseconds).toNat ≤ i64Max := by
  have hlt : intervalFromDuration nanoseconds < 2 ^ 63 := BitVec.toInt_lt
  unfold i64Max
  omega

/-- What is written is read back as it was, where the durations are exact. -/
theorem value_wire_toRow {settings : DomainTenantSettings} {field : SettingsField}
    (h : field.isDuration → ∀ ns, (tenantSettingsToProto settings).value field = some ns →
      Exactly ns) :
    settings.toRow.wire.value field = (tenantSettingsToProto settings).value field := by
  cases field with
  | maximumQueueAge => exact congrArg some (intervalFromDuration_mul (h rfl _ rfl))
  | executionTimeoutCeiling => exact congrArg some (intervalFromDuration_mul (h rfl _ rfl))
  | maxQueuedGenerations => exact congrArg (fun n : UInt32 => some n.toNat) UInt32.ofNat_toNat
  | _ => rfl

/-- The durations of a row are exact. -/
theorem TenantSettings.Fits.exactly {row : TenantSettings} (h : row.Fits) {field : SettingsField}
    (hduration : field.isDuration) {ns : ℕ} (hns : row.wire.value field = some ns) : Exactly ns := by
  have hexact : ∀ us ≤ i64Max, Exactly (us * 1000) := fun us hle =>
    ⟨Nat.mul_mod_left us 1000, by rwa [Nat.mul_div_cancel _ (by decide)]⟩
  cases field with
  | maximumQueueAge =>
    cases hns
    exact hexact _ h.maximumQueueAge
  | executionTimeoutCeiling =>
    cases hns
    exact hexact _ h.executionTimeoutCeiling
  | _ => cases hduration

/-- What an update that succeeds writes fits its columns. -/
theorem fits_of_updateSettings {settings : DomainTenantSettings} {db db' : Db} {b : Bool}
    (h : (updateSettings settings.toRow).run db = .ok (b, db')) : settings.toRow.Fits ∧
      ∀ row, fetch db tenant = some row →
        fetch db' tenant = some { row with settings := settings.toRow } := by
  rw [updateSettings, Prog.exec, Prog.run_step_require] at h
  split at h
  case isFalse => cases h
  case isTrue hfits =>
  rw [Prog.run_step_require] at h
  split at h
  case isFalse => cases h
  rw [Prog.run_step_update] at h
  simp only [Bool.and_eq_true, decide_eq_true_eq] at hfits
  refine ⟨⟨intervalFromDuration_le _, hfits.1.1, hfits.1.2, hfits.2, intervalFromDuration_le _⟩,
    fun row hrow => ?_⟩
  rw [hrow] at h
  cases h
  exact Database.fetch_store_self ..

/-- The row after an update that succeeds: the masked values are the incoming ones, the
    others those that were read. -/
theorem updateTenantSettings_run {incoming : WireTenantSettings} {updateMask : List String}
    {db db' : Db} {reply : SettingsReply} {row : TenantRow} (hrow : fetch db tenant = some row)
    (hfits : row.settings.Fits) (hmask : updateMask ≠ [])
    (hexact : ∀ field : SettingsField, field.maskPath ∈ updateMask → field.isDuration →
      ∀ ns, incoming.value field = some ns → Exactly ns)
    (h : (updateTenantSettings incoming updateMask).run db = .ok (.commit reply, db')) :
    ∃ row', fetch db' tenant = some row' ∧ row'.settings.Fits ∧
      ∀ field, row'.settings.wire.value field =
        if field.maskPath ∈ updateMask then incoming.value field
          else row.settings.wire.value field := by
  rw [updateTenantSettings, Prog.bind_eq, Prog.exec_bind, loadSettings, Prog.run_step_tryRead,
    hrow] at h
  dsimp only at h
  cases hmerge : applyUpdateMask row.settings.wire incoming updateMask with
  | error e =>
    rw [TenantSettings.wire] at hmerge
    rw [hmerge] at h
    cases h
  | ok mergedProto =>
    have hvalue := value_applyUpdateMask hmask hmerge
    rw [TenantSettings.wire] at hmerge
    rw [hmerge] at h
    dsimp only at h
    cases hparse : tenantSettingsFromProto mergedProto with
    | error e =>
      rw [hparse] at h
      cases h
    | ok merged =>
      rw [hparse] at h
      dsimp only at h
      rw [Prog.bind_eq, Prog.run_bind] at h
      cases hupdate : (updateSettings merged.toRow).run db with
      | error e =>
        rw [hupdate] at h
        cases h
      | ok r =>
        rw [hupdate] at h
        cases h
        obtain ⟨hfits', hwrite⟩ := fits_of_updateSettings hupdate
        refine ⟨_, hwrite row hrow, hfits', fun field => ?_⟩
        have hproto := tenantSettingsToProto_of_fromProto hparse
        rw [value_wire_toRow, hproto, hvalue field]
        rw [hproto]
        intro hduration ns hns
        rw [hvalue field] at hns
        split at hns
        case isTrue hnamed => exact hexact field hnamed hduration ns hns
        case isFalse => exact hfits.exactly hduration hns

/-! ## Storage -/

/-- Settings are stored, and read back as they were. -/
def RoundTrips (settings : DomainTenantSettings) (db : Db) : Prop :=
  ∃ updated db' tenantId row, (updateSettings settings.toRow).run db = .ok (updated, db') ∧
    (.exec loadSettings : Body (Uuid × TenantSettings)).run db' = .ok ((tenantId, row), db') ∧
      row.toDomain = settings

/-- Settings that the columns hold exactly. -/
structure DomainTenantSettings.Held (settings : DomainTenantSettings) : Prop where
  maximumQueueAge : Exactly settings.maximumQueueAge
  maxQueuedGenerations : settings.maxQueuedGenerations.toNat ≤ i32Max
  maxInputArtifactBytes : settings.maxInputArtifactBytes.toNat ≤ i64Max
  maxOutputArtifactBytes : settings.maxOutputArtifactBytes.toNat ≤ i64Max
  executionTimeoutCeiling : Exactly settings.executionTimeoutCeiling

section Storage

variable {settings : DomainTenantSettings} {db : Db}

/-- A check that is passed where it has to be. -/
theorem not_of_check {ε α : Type} {failed : Prop} [Decidable failed] {e : ε}
    {rest : Except ε α} {a : α}
    (h : (if failed then .error e else rest) = .ok a) : ¬ failed := by
  intro hfailed
  rw [if_pos hfailed] at h
  cases h

/-- What the checks of a message leave is positive, the ceiling by a minute at least. -/
theorem positive_of_fromProto {wire : WireTenantSettings}
    (h : tenantSettingsFromProto wire = .ok settings) :
    0 < settings.maximumQueueAge ∧ 60 * 10 ^ 9 ≤ settings.executionTimeoutCeiling ∧
      settings.maxQueuedGenerations ≠ 0 ∧ settings.maxInputArtifactBytes ≠ 0 ∧
      settings.maxOutputArtifactBytes ≠ 0 := by
  obtain ⟨age, queued, input, output, ceiling, priority⟩ := wire
  unfold tenantSettingsFromProto at h
  rcases age with _ | age
  · cases h
  have hage := not_of_check h
  replace h := ok_of_check h
  rcases ceiling with _ | ceiling
  · cases h
  have hceiling := not_of_check h
  have hqueued := not_of_check (ok_of_check h)
  have hinput := not_of_check (ok_of_check (ok_of_check h))
  have houtput := not_of_check (ok_of_check (ok_of_check (ok_of_check h)))
  replace h := ok_of_check (ok_of_check (ok_of_check (ok_of_check h)))
  cases hpriority : priorityFromWire priority with
  | error e =>
    rw [hpriority] at h
    cases h
  | ok value =>
    rw [hpriority] at h
    cases h
    rw [minExecutionTimeoutCeilingSecs] at hceiling
    exact ⟨Nat.pos_of_ne_zero hage, by dsimp only; omega, hqueued, hinput, houtput⟩

/-- What is read back of a row is the settings that were written, where the columns hold them. -/
theorem toDomain_toRow (h : settings.Held) : settings.toRow.toDomain = settings := by
  rw [DomainTenantSettings.toRow, TenantSettings.toDomain]
  simp only [intervalFromDuration_mul h.maximumQueueAge,
    intervalFromDuration_mul h.executionTimeoutCeiling, UInt32.ofNat_toNat]

/-- A duration that is read back as it was is exact. -/
theorem exactly_of_mul {nanoseconds : ℕ}
    (h : (intervalFromDuration nanoseconds).toNat * 1000 = nanoseconds) :
    Exactly nanoseconds := by
  have hle := intervalFromDuration_le nanoseconds
  constructor <;> omega

/-- Settings that come back are held. -/
theorem held_of_roundTrips {row : TenantRow} (hrow : fetch db tenant = some row)
    (h : RoundTrips settings db) :
    settings.Held := by
  obtain ⟨updated, db', tenantId, stored, hupdate, hload, hsame⟩ := h
  obtain ⟨hfits, hwrite⟩ := fits_of_updateSettings hupdate
  rw [Prog.exec, loadSettings, Prog.run_step_tryRead, hwrite row hrow] at hload
  cases hload
  have hage := congrArg DomainTenantSettings.maximumQueueAge hsame
  have hceiling := congrArg DomainTenantSettings.executionTimeoutCeiling hsame
  exact ⟨exactly_of_mul hage, hfits.maxQueuedGenerations, hfits.maxInputArtifactBytes,
    hfits.maxOutputArtifactBytes, exactly_of_mul hceiling⟩

/-- Settings that are held come back. -/
theorem roundTrips_of_held {wire : WireTenantSettings}
    (hparse : tenantSettingsFromProto wire = .ok settings) {row : TenantRow}
    (hrow : fetch db tenant = some row) (h : settings.Held) :
    RoundTrips settings db := by
  obtain ⟨hage, hceiling, hqueued, hinput, houtput⟩ := positive_of_fromProto hparse
  have hage' := intervalFromDuration_mul h.maximumQueueAge
  have hceiling' := intervalFromDuration_mul h.executionTimeoutCeiling
  have hfits : (settings.toRow.maxQueuedGenerations ≤
      i32Max && settings.toRow.maxInputArtifactBytes.toNat ≤ i64Max &&
      settings.toRow.maxOutputArtifactBytes.toNat ≤ i64Max) = true := by
    simp only [Bool.and_eq_true, decide_eq_true_eq]
    exact ⟨⟨h.maxQueuedGenerations, h.maxInputArtifactBytes⟩, h.maxOutputArtifactBytes⟩
  -- the CHECK constraints of the row
  have hpositive : (0 < settings.toRow.maximumQueueAge && 0 < settings.toRow.maxQueuedGenerations &&
      0 < settings.toRow.maxInputArtifactBytes && 0 < settings.toRow.maxOutputArtifactBytes &&
      0 < settings.toRow.executionTimeoutCeiling) = true := by
    simp only [Bool.and_eq_true, decide_eq_true_eq]
    dsimp only [DomainTenantSettings.toRow]
    refine ⟨⟨⟨⟨by omega, ?_⟩, UInt64.pos_iff_ne_zero.2 hinput⟩, UInt64.pos_iff_ne_zero.2 houtput⟩,
      by omega⟩
    exact Nat.pos_of_ne_zero fun hzero => hqueued (UInt32.toNat_inj.1 hzero)
  refine ⟨true, store db tenant (some { row with settings := settings.toRow }), db.tenantId,
    settings.toRow, ?_, ?_, toDomain_toRow h⟩
  · rw [updateSettings, Prog.exec, Prog.run_step_require, if_pos hfits, Prog.run_step_require,
      if_pos hpositive, Prog.run_step_update, hrow]
    rfl
  · rw [Prog.exec, loadSettings, Prog.run_step_tryRead, Database.fetch_store_self]
    rfl

/-- Settings that pass the checks are read back as they were exactly where the columns hold them:
    counts and limits within their signed widths, durations in whole microseconds. -/
theorem settings_roundTrip_iff {wire : WireTenantSettings}
    (hparse : tenantSettingsFromProto wire = .ok settings)
    {row : TenantRow} (hrow : fetch db tenant = some row) : RoundTrips settings db ↔ settings.Held :=
  ⟨held_of_roundTrips hrow, roundTrips_of_held hparse hrow⟩

end Storage

namespace Sample

/-- The default settings, with a queue age of so many nanoseconds. -/
def settingsOfAge (nanoseconds : ℕ) : WireTenantSettings :=
  { tenantSettingsToProto TenantSettings.default.toDomain with maximumQueueAge := some nanoseconds }

end Sample

/-- Half an hour is read back as it was. -/
theorem settings_roundTrip_halfHour :
    RoundTrips { TenantSettings.default.toDomain with maximumQueueAge := 30 * 60 * 10 ^ 9 }
      { tenantId := 1 } :=
  (settings_roundTrip_iff
    (show tenantSettingsFromProto (Sample.settingsOfAge (30 * 60 * 10 ^ 9)) = _ from rfl) rfl).2
    ⟨⟨by decide, by decide⟩, by decide, by decide, by decide, ⟨by decide, by decide⟩⟩

/-- A nanosecond passes the checks, and is not. -/
theorem settings_roundTrip_fails :
    ∃ settings, tenantSettingsFromProto (Sample.settingsOfAge 1) = .ok settings ∧
    ∃ row : TenantRow, fetch ({ tenantId := 1 } : Db) tenant = some row ∧
      ¬ RoundTrips settings { tenantId := 1 } := by
  refine ⟨_, rfl, _, rfl, fun h => ?_⟩
  have hheld := held_of_roundTrips rfl h
  exact absurd hheld.maximumQueueAge.1 (by decide)

/-! ## Two updates -/

/-- An `UpdateTenantSettings` request. -/
structure UpdateRequest where
  settings : WireTenantSettings
  updateMask : List String

/-- Whether the mask names the field. -/
def UpdateRequest.names (request : UpdateRequest) (field : SettingsField) : Bool :=
  field.maskPath ∈ request.updateMask

/-- The durations that the mask names are exact. -/
def UpdateRequest.Exact (request : UpdateRequest) : Prop :=
  ∀ field, request.names field → field.isDuration →
    ∀ ns, request.settings.value field = some ns → Exactly ns

/-- The calls of the two connections. -/
def settingsBody (calls : Bool → UpdateRequest) (i : Bool) : Transaction Db :=
  ⟨_, updateTenantSettings (calls i).settings (calls i).updateMask⟩

/-- The interleavings of the two calls, from a Tenant with the settings `earlier`. -/
def SettingsRuns (calls : Bool → UpdateRequest) (earlier : TenantSettings)
    (allowed : Sql.Action Bool Bool → Traced Db Bool Bool → Prop) : Traced Db Bool Bool → Prop :=
  Machine.Reachable
    (fun c => (fetch c.committed tenant).map TenantRow.settings = some earlier ∧ c.idle)
    (Machine.Fires (Traced.next (settingsBody calls)) fun a c => (∀ i t, a = .start i t → t = i) ∧
      allowed a c)

/-- A call has succeeded. -/
def Succeeded (c : Traced Db Bool Bool) (i : Bool) : Prop :=
  ∃ e ∈ c.log, e.txn = i ∧ ∃ v, e.ending = some v ∧ v.commits

/-- The settings hold the masked values of the calls of `done`, and elsewhere the earlier ones. -/
structure Composed (calls : Bool → UpdateRequest) (earlier : TenantSettings) (done : Bool → Prop)
    (now : TenantSettings) : Prop where
  masked : ∀ field i, done i → (calls i).names field →
    now.wire.value field = (calls i).settings.value field
  kept : ∀ field, (∀ i, done i → (calls i).names field = false) →
    now.wire.value field = earlier.wire.value field

section Runs

variable {calls : Bool → UpdateRequest} {earlier now : TenantSettings} {done : Bool → Prop}
  {c c' : Traced Db Bool Bool}

theorem Composed.congr {done' : Bool → Prop} (h : Composed calls earlier done now)
    (hdone : ∀ i, done' i ↔ done i) : Composed calls earlier done' now :=
  ⟨fun field i hi => h.masked field i ((hdone i).1 hi),
    fun field hall => h.kept field fun i hi => hall i ((hdone i).2 hi)⟩

/-- One more call has succeeded. -/
theorem Composed.insert {done' : Bool → Prop} {now' : TenantSettings} {i : Bool}
    (h : Composed calls earlier done now)
    (hdisjoint : List.Disjoint (calls false).updateMask (calls true).updateMask)
    (hdone : ∀ j, done' j ↔ done j ∨ j = i)
    (hvalue : ∀ field, now'.wire.value field =
      if (calls i).names field then (calls i).settings.value field else now.wire.value field) :
    Composed calls earlier done' now' where
  masked field j hj hnames := by
    rw [hvalue]
    by_cases hji : j = i
    · rw [← hji, if_pos hnames]
    · have hother : ¬ (calls i).names field := by
        -- the masks share no path
        intro hi
        rw [UpdateRequest.names, decide_eq_true_eq] at hnames hi
        cases i <;> cases j <;> first
          | exact hji rfl
          | exact hdisjoint hi hnames
          | exact hdisjoint hnames hi
      rw [if_neg hother]
      exact h.masked field j (((hdone j).1 hj).resolve_right hji) hnames
  kept field hall := by
    rw [hvalue, if_neg (by simp [hall i ((hdone i).2 (.inr rfl))])]
    exact h.kept field fun j hj => hall j ((hdone j).2 (.inl hj))

theorem succeeded_append {e : Call Db Bool} (hlog : c'.log = c.log ++ [e]) (i : Bool) :
    Succeeded c' i ↔ Succeeded c i ∨ e.txn = i ∧ ∃ v, e.ending = some v ∧ v.commits := by
  simp [Succeeded, hlog, or_and_right, exists_or]

/-- The invariant of the runs in which the calls are apart. -/
structure SettingsInv (calls : Bool → UpdateRequest) (earlier : TenantSettings)
    (c : Traced Db Bool Bool) : Prop where
  serial : c.Serial (settingsBody calls)
  composed : ∃ row, fetch c.committed tenant = some row ∧ row.settings.Fits ∧
    Composed calls earlier (Succeeded c) row.settings

/-- Calls that do not overlap compose: each takes the fields of its own mask from what was there. -/
theorem SettingsInv.next (h : SettingsInv calls earlier c) (hmask : ∀ i, (calls i).updateMask ≠ [])
    (hdisjoint : List.Disjoint (calls false).updateMask (calls true).updateMask)
    (hexact : ∀ i, (calls i).Exact) {a : Sql.Action Bool Bool}
    (ha : Traced.Apart (settingsBody calls) a c) :
    SettingsInv calls earlier (Traced.next (settingsBody calls) a c) := by
  obtain ⟨hserial, hextends⟩ := h.serial.next ha
  obtain ⟨row, hrow, hfits, hcomposed⟩ := h.composed
  refine ⟨hserial, ?_⟩
  obtain ⟨hcommitted, hlog⟩ | ⟨e, hlog, hfound, hleft, halone⟩ := hextends
  · rw [hcommitted]
    exact ⟨row, hrow, hfits, hcomposed.congr fun i => by simp only [Succeeded, hlog]⟩
  · -- a call has ended: by a commit, or not
    by_cases hover : ∃ v, e.ending = some v ∧ v.commits
    · obtain ⟨v, hv, hcommits⟩ := hover
      have hresult := halone.committed v hv hcommits
      obtain ⟨reply, hrun⟩ : ∃ reply,
          (updateTenantSettings (calls e.txn).settings (calls e.txn).updateMask).run e.found =
            .ok (.commit reply, e.left) := by
        change ((updateTenantSettings (calls e.txn).settings (calls e.txn).updateMask).run
          e.found).map
          (fun r => ((⟨_, r.1⟩ : Ending), r.2)) = .ok (v, e.left) at hresult
        cases hrun : (updateTenantSettings (calls e.txn).settings (calls e.txn).updateMask).run
            e.found with
        | error err =>
          rw [hrun] at hresult
          cases hresult
        | ok r =>
          obtain ⟨verdict, db'⟩ := r
          rw [hrun] at hresult
          cases hresult
          cases verdict with
          | commit reply => exact ⟨reply, rfl⟩
          | rollback reply => cases hcommits
      obtain ⟨row', hrow', hfits', hvalue⟩ := updateTenantSettings_run (hfound ▸ hrow) hfits
        (hmask e.txn) (fun field hnamed => hexact e.txn field (decide_eq_true hnamed)) hrun
      rw [← hleft]
      refine ⟨row', hrow', hfits',
        hcomposed.insert hdisjoint (i := e.txn) (fun j => ?_) fun field => ?_⟩
      · rw [succeeded_append hlog]
        exact or_congr_right ⟨fun hj => hj.1.symm, fun hj => ⟨hj.symm, v, hv, hcommits⟩⟩
      · rw [hvalue field]
        simp [UpdateRequest.names]
    · -- then it leaves nothing
      have hdropped := halone.dropped fun v hv => by
        by_contra hcommits
        exact hover ⟨v, hv, by simpa using hcommits⟩
      rw [← hleft, hdropped, hfound]
      refine ⟨row, hrow, hfits, hcomposed.congr fun i => ?_⟩
      rw [succeeded_append hlog]
      exact or_iff_left fun hi => hover hi.2

/-- Where each call reads only while the other is not under way, and the durations that the
    masks name fit their columns: once both calls have succeeded, the settings hold the
    masked values of both, and the earlier values elsewhere. -/
theorem settings_compose (calls : Bool → UpdateRequest) (earlier : TenantSettings)
    (hfits : earlier.Fits) (hmask : ∀ i, (calls i).updateMask ≠ [])
    (hdisjoint : List.Disjoint (calls false).updateMask (calls true).updateMask)
    (hexact : ∀ i, (calls i).Exact) (c : Traced Db Bool Bool)
    (hc : SettingsRuns calls earlier (Traced.Apart (settingsBody calls)) c)
    (hboth : ∀ i, Succeeded c i) :
    ∃ row, fetch c.committed tenant = some row ∧
      Composed calls earlier (fun _ => True) row.settings := by
  have hinv : SettingsInv calls earlier c := by
    refine Machine.Reachable.invariant (I := SettingsInv calls earlier) ?_ ?_ hc
    · rintro c ⟨hearlier, hidle⟩
      obtain ⟨row, hrow, rfl⟩ := Option.map_eq_some_iff.1 hearlier
      have hnone : ∀ i, ¬ Succeeded c i := by
        rintro i ⟨e, he, -⟩
        rw [hidle.2.2] at he
        cases he
      exact ⟨.of_idle hidle, row, hrow, hfits, fun _ i hi => absurd hi (hnone i), fun _ _ => rfl⟩
    · rintro c _ - hinv ⟨a, ⟨-, ha⟩, rfl⟩
      exact hinv.next hmask hdisjoint hexact ha
  obtain ⟨row, hrow, -, hcomposed⟩ := hinv.composed
  exact ⟨row, hrow, hcomposed.congr fun i => iff_of_true trivial (hboth i)⟩

end Runs

namespace Sample

/-- One call sets the default priority and the queue age, the other the capacity. -/
def updates : Bool → UpdateRequest
  | false => ⟨{ defaultPriority := 7, maximumQueueAge := some (60 * 10 ^ 9) },
      ["default_priority", "maximum_queue_age"]⟩
  | true => ⟨{ maxQueuedGenerations := 50 }, ["max_queued_generations"]⟩

/-- The two calls after some actions of their connections. -/
def updated (actions : List (Sql.Action Bool Bool)) : Traced Db Bool Bool :=
  Machine.run (Traced.next (settingsBody updates)) (Db.noCalls Bool Bool { tenantId := 1 }) actions

/-- These actions are a run of the two calls. -/
theorem settingsRuns_updated {allowed : Sql.Action Bool Bool → Traced Db Bool Bool → Prop}
    (actions : List (Sql.Action Bool Bool))
    (h : Machine.Allowed (Traced.next (settingsBody updates))
      (fun a c => (∀ i t, a = .start i t → t = i) ∧ allowed a c)
      (Db.noCalls Bool Bool { tenantId := 1 }) actions) :
    SettingsRuns updates .default allowed (updated actions) :=
  Machine.reachable_run (.init ⟨rfl, fun _ => rfl, fun _ => rfl, rfl⟩) actions h

/-- Whether a call has succeeded. -/
def hasSucceeded (c : Traced Db Bool Bool) (i : Bool) : Bool :=
  c.log.any fun e => e.txn = i && e.ending.any Ending.commits

/-- Whether a call has succeeded is seen in the trace. -/
theorem succeeded_of_hasSucceeded {c : Traced Db Bool Bool} {i : Bool} (h : hasSucceeded c i) :
    Succeeded c i := by
  obtain ⟨e, he, hover⟩ := List.any_eq_true.1 h
  obtain ⟨htxn, hend⟩ := Bool.and_eq_true_iff.1 hover
  obtain ⟨v, hv, hcommits⟩ := (Option.any_eq_true _ _).1 hend
  exact ⟨e, he, of_decide_eq_true htxn, v, hv, hcommits⟩

/-- A connection makes its own call. -/
def isOwn : Sql.Action Bool Bool → Bool
  | .start i t => t = i
  | _ => true

/-- An action of one connection while the other has no transaction. -/
def isAlone (a : Sql.Action Bool Bool) (c : Traced Db Bool Bool) : Bool :=
  match a with
  | .start i t => t = i
  | .advance i => (c.session !i).isNone
  | .abort _ => true

/-- A call that starts while no other runs is apart from it. -/
theorem apart_of_isAlone {body : Bool → Transaction Db} {a : Sql.Action Bool Bool}
    {c : Traced Db Bool Bool}
    (h : isAlone a c) : (∀ i t, a = .start i t → t = i) ∧ Traced.Apart body a c := by
  refine ⟨?_, ?_⟩
  · rintro i t rfl
    exact of_decide_eq_true h
  · rintro i rfl - j hj ⟨S, x, hS, -⟩
    have hnone : (c.session !i) = none := Option.isNone_iff_eq_none.1 h
    rw [(Bool.eq_not_of_ne hj : j = !i), hnone] at hS
    cases hS

theorem default_fits : TenantSettings.default.Fits :=
  ⟨by decide, by decide, by decide, by decide, by decide⟩

/-- The two updates have whole microseconds. -/
theorem updates_exact (i : Bool) : (updates i).Exact := by
  intro field hnamed hduration ns hns
  have hall : ((updates i).names field && field.isDuration) →
      ((updates i).settings.value field).all fun ns => ns % 1000 = 0 ∧ ns / 1000 ≤ i64Max := by
    cases i <;> cases field <;> decide
  have hns' := hall (Bool.and_eq_true_iff.2 ⟨hnamed, hduration⟩)
  rw [hns, Option.all_some, decide_eq_true_eq] at hns'
  exact hns'

end Sample

/-- One call after the other. -/
theorem settings_compose_serial :
    ∃ row, fetch (Sample.updated [.start false false, .advance false, .advance false, .advance false,
        .start true true, .advance true, .advance true, .advance true]).committed tenant = some row ∧
      Composed Sample.updates .default (fun _ => True) row.settings := by
  let actions : List (Sql.Action Bool Bool) := [.start false false, .advance false, .advance false,
    .advance false, .start true true, .advance true, .advance true, .advance true]
  have hrun : Machine.Allowed (Traced.next (settingsBody Sample.updates))
      (fun a c => Sample.isAlone a c)
      (Db.noCalls Bool Bool { tenantId := 1 }) actions ∧
    ∀ i, Sample.hasSucceeded (Sample.updated actions) i := by decide +kernel
  refine settings_compose Sample.updates .default Sample.default_fits (by decide) ?_
    Sample.updates_exact _ (Sample.settingsRuns_updated actions ?_)
    fun i => Sample.succeeded_of_hasSucceeded (hrun.2 i)
  · simp [Sample.updates]
  · exact Machine.allowed_mono (fun a c => Sample.apart_of_isAlone) _ _ hrun.1

/-- Both calls read, then both write: the second write brings back the earlier priority. -/
theorem update_lost :
    ∃ c, SettingsRuns Sample.updates .default (fun _ _ => True) c ∧ (∀ i, Succeeded c i) ∧
      ∃ row, fetch c.committed tenant = some row ∧
        ¬ Composed Sample.updates .default (fun _ => True) row.settings := by
  let actions : List (Sql.Action Bool Bool) := [.start false false, .start true true, .advance false,
    .advance true, .advance false, .advance false, .advance true, .advance true]
  have hallowed : Machine.Allowed (Traced.next (settingsBody Sample.updates))
      (fun a _ => Sample.isOwn a) (Db.noCalls Bool Bool { tenantId := 1 }) actions := by
        decide +kernel
  have hrun : (∀ i, Sample.hasSucceeded (Sample.updated actions) i) ∧
    (fetch (Sample.updated actions).committed tenant).any fun row =>
      row.settings.wire.value .defaultPriority = some 5 := by decide +kernel
  obtain ⟨row, hrow, hvalue⟩ := (Option.any_eq_true _ _).1 hrun.2
  refine ⟨_, Sample.settingsRuns_updated actions ?_,
    fun i => Sample.succeeded_of_hasSucceeded (hrun.1 i),
    row, hrow, fun h => ?_⟩
  · refine Machine.allowed_mono (fun a c ha => ⟨?_, trivial⟩) _ _ hallowed
    rintro i t rfl
    exact of_decide_eq_true ha
  · have hmasked := h.masked .defaultPriority false trivial rfl
    rw [of_decide_eq_true hvalue] at hmasked
    cases hmasked

end Gpq
