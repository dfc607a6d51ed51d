import Gpq.Lib.Hoare
import Gpq.Lib.Traverse
import Gpq.Lifecycle.EventLog
import Gpq.Lifecycle.Observation
import Gpq.Remote.Progress

/-!
# Stored progress

The progress that a Worker reports is read back from the row of the Generation and from the log
exactly if its fraction is a number that is read again as it was stored (`ReadsBack`): what is not a
number is stored as null, which neither of the readers accepts (`readBack_toJson`,
`readBack_persistedForm`).

* `progress_round_trips_iff`: the progress of a live Attempt round-trips exactly if its stage can be
  stored, its Generation is active, and its fraction is read back.
-/

namespace Gpq

open Sql DbKey Prog

/-! ## Equal numbers -/

/-- Whether a 64-bit float is not a number. -/
def isNan (bits : BitVec 64) : Bool := !isFinite bits && bits.extractLsb' 0 52 ≠ 0

/-- 64-bit floats are equal as numbers: both zeros are. -/
def SameNumber (a b : BitVec 64) : Prop :=
  ¬ isNan a ∧ ¬ isNan b ∧ (a = b ∨ a.extractLsb' 0 63 = 0 ∧ b.extractLsb' 0 63 = 0)

/-- Snapshots are of the same values. -/
structure ProgressSnapshot.Same (a b : ProgressSnapshot) : Prop where
  fraction : SameNumber a.fraction b.fraction
  stage : a.stage = b.stage
  step : a.step = b.step
  totalSteps : a.totalSteps = b.totalSteps

section Json

variable [Jsonb]

/-- A fraction is a number, and is read again as it was stored. -/
def ReadsBack (fraction : BitVec 64) : Prop :=
  isFinite fraction ∧ ∃ read, Jsonb.reread fraction = some read ∧ SameNumber read fraction

/-- What is read of a stored float: a float, or null for what is not a number. -/
theorem readBack_floatJson (bits : BitVec 64) : (floatJson bits).readBack Jsonb.reread =
    if isFinite bits then (Jsonb.reread bits).map Json.double else some .null := by
  rw [floatJson]
  split
  · rw [Json.readBack]
  · rw [Json.readBack]
    all_goals nofun

/-- A stored float is read as the same number exactly if it reads back. -/
theorem readDouble_readBack_iff (bits : BitVec 64) : (∃ json ∈ (floatJson bits).readBack Jsonb.reread,
    ∃ read, json.readDouble = .ok read ∧ SameNumber read bits) ↔ ReadsBack bits := by
  rw [readBack_floatJson]
  split
  · rename_i hfinite
    constructor
    · rintro ⟨json, hjson, read, hread, hsame⟩
      obtain ⟨bits', hbits', rfl⟩ := Option.map_eq_some_iff.1 hjson
      cases hread
      exact ⟨hfinite, _, hbits', hsame⟩
    · rintro ⟨_, read, hread, hsame⟩
      exact ⟨.double read, Option.map_eq_some_iff.2 ⟨read, hread, rfl⟩, read, rfl, hsame⟩
  · rename_i hfinite
    constructor
    · rintro ⟨json, ⟨⟩, read, hread, _⟩
      cases hread
    · exact fun h => absurd h.1 hfinite

/-- What is made of the float that is read of stored JSON is as it should be exactly if the float
    reads back. -/
theorem readsBack_iff_of_map {α : Type} {stored : Option Json} {read : Json → Except Json.Error α}
    {make : BitVec 64 → α} {bits : BitVec 64}
    (h : stored.map read =
      ((floatJson bits).readBack Jsonb.reread).map fun json => json.readDouble.map make)
    (good : α → Prop) (hgood : ∀ x, good (make x) ↔ SameNumber x bits) :
    (∃ json, stored = some json ∧ ∃ a, read json = .ok a ∧ good a) ↔ ReadsBack bits := by
  rw [← readDouble_readBack_iff]
  cases stored with
  | none =>
    rw [Option.map_none, eq_comm, Option.map_eq_none_iff] at h
    rw [h]
    exact ⟨nofun, nofun⟩
  | some json =>
    rw [Option.map_some, eq_comm, Option.map_eq_some_iff] at h
    obtain ⟨fraction, hfraction, hread⟩ := h
    rw [hfraction]
    constructor
    · rintro ⟨_, ⟨⟩, a, hok, ha⟩
      rw [← hread] at hok
      cases hdouble : fraction.readDouble with
      | error err =>
        rw [hdouble] at hok
        cases hok
      | ok x =>
        rw [hdouble] at hok
        cases hok
        exact ⟨fraction, rfl, x, hdouble, (hgood x).1 ha⟩
    · rintro ⟨_, ⟨⟩, x, hdouble, hsame⟩
      rw [hdouble] at hread
      exact ⟨json, rfl, _, hread.symm, (hgood x).2 hsame⟩

omit [Jsonb] in
theorem readUInt32_toNat (n : UInt32) : Json.readUInt32 (.uint n.toNat) = .ok n := by
  rw [Json.readUInt32, if_pos n.toNat_lt]
  exact congrArg Except.ok UInt32.ofNat_toNat

/-- The snapshot that is read, with the fraction that is read of its JSON. -/
theorem readBack_toJson [TimeText] {progress : ProgressSnapshot}
    (htime : TimeText.read (TimeText.write progress.observedAt) = .ok progress.observedAt) :
    (progress.toJson.readBack Jsonb.reread).map readProgress =
      ((floatJson progress.fraction).readBack Jsonb.reread).map fun json =>
        json.readDouble.map ({ progress with fraction := · }) := by
  have hback : progress.toJson.readBack Jsonb.reread =
      ((floatJson progress.fraction).readBack Jsonb.reread).map
      fun json => .object [("fraction", json), ("stage", .string progress.stage),
        ("step", .uint progress.step.toNat),
        ("total_steps", .uint progress.totalSteps.toNat),
        ("observed_at", .string (TimeText.write progress.observedAt))] := by
    simp only [ProgressSnapshot.toJson, Json.readBack, Json.readFieldsBack]
    cases (floatJson progress.fraction).readBack Jsonb.reread <;> rfl
  have hread : ∀ json : Json, readProgress (.object [("fraction", json),
      ("stage", .string progress.stage),
      ("step", .uint progress.step.toNat), ("total_steps", .uint progress.totalSteps.toNat),
      ("observed_at", .string (TimeText.write progress.observedAt))]) =
      json.readDouble.map ({ progress with fraction := · }) := by
    intro json
    have hobserved : readTime (.string (TimeText.write progress.observedAt)) =
        .ok progress.observedAt := by
      rw [readTime, htime]
      rfl
    rw [readProgress, Json.readObject, Traverse.ok_bind, Json.readField_of_lookup (j := json) rfl]
    cases json.readDouble with
    | error err => rfl
    | ok fraction =>
      rw [Except.map, Traverse.ok_bind, Json.readField_of_lookup rfl, hobserved, Except.map,
        Traverse.ok_bind,
        Json.readField_of_lookup rfl, Json.readString, Except.map, Traverse.ok_bind,
        Json.readField_of_lookup rfl, readUInt32_toNat, Except.map, Traverse.ok_bind,
        Json.readField_of_lookup rfl, readUInt32_toNat, Except.map, Traverse.ok_bind]
      rfl
  rw [hback, Option.map_map]
  exact Option.map_congr fun json _ => hread json

/-- A snapshot that is read had a number. -/
theorem isFinite_of_readProgress [TimeText] {progress read : ProgressSnapshot} {json : Json}
    (hback : progress.toJson.readBack Jsonb.reread = some json)
    (hread : readProgress json = .ok read) :
    isFinite progress.fraction := by
  by_contra hfinite
  rw [ProgressSnapshot.toJson, floatJson, if_neg hfinite] at hback
  cases hback
  cases hread

/-- The snapshot that is read is of the stored values exactly if the fraction reads back. -/
theorem readProgress_readBack_iff [TimeText] {progress : ProgressSnapshot}
    (htime : TimeText.read (TimeText.write progress.observedAt) = .ok progress.observedAt) :
    (∃ json, progress.toJson.readBack Jsonb.reread = some json ∧
      ∃ read, readProgress json = .ok read ∧
      read.Same progress) ↔ ReadsBack progress.fraction :=
  readsBack_iff_of_map (readBack_toJson htime) (·.Same progress) fun _ =>
    ⟨fun h => h.fraction, fun h => ⟨h, rfl, rfl, rfl⟩⟩

/-- The event that is read of a payload, with the fraction that is read of its JSON. -/
theorem readBack_persistedForm {progress : ProgressSnapshot} {kind : EventKind} {payload : Json}
    (createdAt : Time)
    (h : persistedForm (.progress progress) = some (kind, payload)) : kind = .progress ∧
      (payload.readBack Jsonb.reread).map (readProgressPayload createdAt) =
        ((floatJson progress.fraction).readBack Jsonb.reread).map fun json =>
          json.readDouble.map fun fraction =>
            .progress { progress with fraction, observedAt := createdAt } := by
  cases h
  have hback : (Json.object [("fraction", floatJson progress.fraction),
      ("stage", .string progress.stage), ("step", .uint progress.step.toNat),
      ("total_steps", .uint progress.totalSteps.toNat)]).readBack Jsonb.reread =
      ((floatJson progress.fraction).readBack Jsonb.reread).map fun json =>
        .object [("fraction", json), ("stage", .string progress.stage),
          ("step", .uint progress.step.toNat),
          ("total_steps", .uint progress.totalSteps.toNat)] := by
    simp only [Json.readBack, Json.readFieldsBack]
    cases (floatJson progress.fraction).readBack Jsonb.reread <;> rfl
  have hread : ∀ json : Json, readProgressPayload createdAt (.object [("fraction", json),
      ("stage", .string progress.stage),
      ("step", .uint progress.step.toNat),
      ("total_steps", .uint progress.totalSteps.toNat)]) =
      json.readDouble.map fun fraction =>
          .progress { progress with fraction, observedAt := createdAt } := by
    intro json
    rw [readProgressPayload, Json.readObject, Traverse.ok_bind,
      Json.readField_of_lookup (j := json) rfl]
    cases json.readDouble with
    | error err => rfl
    | ok fraction =>
      rw [Except.map, Traverse.ok_bind, Json.readField_of_lookup rfl, Json.readString, Except.map,
        Traverse.ok_bind,
        Json.readField_of_lookup rfl, readUInt32_toNat, Except.map, Traverse.ok_bind,
        Json.readField_of_lookup rfl, readUInt32_toNat, Except.map, Traverse.ok_bind]
      rfl
  rw [hback, Option.map_map]
  exact ⟨rfl, Option.map_congr fun json _ => hread json⟩

/-- A row of the log is decoded to a progress of these values. -/
def EventRow.HasProgress (stored : EventRow) (progress : ProgressSnapshot) : Prop :=
  ∃ row, stored.readBack = some row ∧ ∃ read, decodePersisted row = some (.progress read) ∧
    read.Same progress

/-- The event that is decoded is of the recorded values exactly if the fraction reads back. -/
theorem EventRow.hasProgress_iff {progress : ProgressSnapshot} {kind : EventKind} {payload : Json}
    {createdAt : Time} (h : persistedForm (.progress progress) = some (kind, payload)) :
    EventRow.HasProgress ⟨kind, payload, createdAt⟩ progress ↔ ReadsBack progress.fraction := by
  obtain ⟨rfl, hmap⟩ := readBack_persistedForm createdAt h
  rw [← readsBack_iff_of_map hmap
    (fun event => ∃ read, event = .progress read ∧ read.Same progress) fun x =>
    ⟨fun ⟨_, hread, hsame⟩ => (GenerationEvent.progress.inj hread ▸ hsame :).fraction,
      fun hsame => ⟨_, rfl, hsame, rfl, rfl, rfl⟩⟩]
  constructor
  · rintro ⟨row, hrow, read, hread, hsame⟩
    obtain ⟨json, hjson, rfl⟩ := Option.map_eq_some_iff.1 hrow
    refine ⟨json, hjson, .progress read, ?_, read, rfl, hsame⟩
    dsimp only [decodePersisted] at hread
    cases hevent : readProgressPayload createdAt json with
    | error err =>
      rw [hevent] at hread
      cases hread
    | ok event =>
      rw [hevent] at hread
      exact congrArg Except.ok (Option.some.inj hread)
  · rintro ⟨json, hjson, _, hread, read, rfl, hsame⟩
    refine ⟨⟨.progress, json, createdAt⟩, Option.map_eq_some_iff.2 ⟨json, hjson, rfl⟩, read,
      ?_, hsame⟩
    dsimp only [decodePersisted]
    rw [hread]
    rfl

end Json

/-! ## The handler -/

section Handler

variable {w : AuthenticatedWorker} {a g : Uuid} {progress : ProgressSnapshot} {now : Time} {db : Db}
    {attemptRow : AttemptRow}

/-- The Attempt is live, and the Worker's. -/
def AttemptRow.liveFor (row : AttemptRow) (workerId : Uuid) (now : Time) : Bool :=
  row.workerId = workerId && row.state.isLive && row.leaseExpiresAt > now

/-- A Generation whose progress is recorded. -/
def GenerationRow.active (row : GenerationRow) : Bool :=
  row.state = .running || row.state = .cancelling

/-- A Worker whose credential is current is served. -/
theorem run_authenticated {α : Type} {refused : α} {body : Body (Verdict α)} (hw : w.isCurrent db) :
    (authenticated w refused body).run db = body.run db := by
  obtain ⟨row, hrow, hcur⟩ := (Option.any_eq_true _ _).1 hw
  have hbody : ∀ ok : Bool, ok →
      Prog.run (if (!ok) = true then pure (.rollback refused) else body) db = body.run db
    | true, _ => rfl
  change Prog.run (step (.lock (worker w.workerId) fun _ => true) _) db = _
  rw [run_step_lock, hrow]
  exact hbody _ hcur

theorem run_generationIdOf (ha : fetch db (attempt a) = some attemptRow)
    (hlive : attemptRow.liveFor w.workerId now) :
    (Attempts.generationIdOf a w.workerId now).run db = .ok (some attemptRow.generationId, db) := by
  change Except.ok
    (((fetch db (attempt a)).filter fun r => r.liveFor w.workerId now).map AttemptRow.generationId,
      db) = _
  rw [ha, Option.filter_some, if_pos hlive]
  rfl

/-- Progress is recorded in the row of an active Generation. -/
theorem run_recordProgress : (Generations.recordProgress g progress).run db =
    if storable progress.stage then
      .ok (match (fetch db (generation g)).filter GenerationRow.active with
        | some row => (true,
          store db (generation g) (some { row with latestProgress := some progress }))
        | none => (false, db))
    else .error .encoding := by
  have hactive : GenerationRow.active = fun row =>
      row.state = .running || row.state = .cancelling := rfl
  rw [Generations.recordProgress, exec, run_step_require, run_step_update, hactive]
  by_cases hstage : storable progress.stage
  · rw [if_pos hstage, if_pos hstage]
    generalize (fetch db (generation g)).filter _ = row
    cases row <;> rfl
  · rw [if_neg hstage, if_neg hstage]

/-- The handler of a live Attempt's progress records it. -/
theorem run_tryHandleAttemptProgress (hw : w.isCurrent db)
    (ha : fetch db (attempt a) = some attemptRow)
    (hlive : attemptRow.liveFor w.workerId now) : (tryHandleAttemptProgress w a progress now).run db =
      if storable progress.stage then
        .ok (.commit (),
          match (fetch db (generation attemptRow.generationId)).filter GenerationRow.active with
          | some row => store db (generation attemptRow.generationId)
              (some { row with latestProgress := some { progress with observedAt := now } })
          | none => db)
      else .error .encoding := by
  rw [tryHandleAttemptProgress, run_authenticated hw, bind_eq, run_bind, run_generationIdOf ha hlive]
  dsimp only
  rw [bind_eq, run_bind, run_recordProgress]
  by_cases hstage : storable progress.stage
  · rw [if_pos hstage, if_pos hstage]
    cases (fetch db (generation attemptRow.generationId)).filter GenerationRow.active <;> rfl
  · rw [if_neg hstage, if_neg hstage]

/-- An appended event is found under its number. -/
theorem fetch_append {kind : EventKind} {payload : Json} {createdAt : Time}
    {events events' : EventDb} {n : ℕ}
    (h : (Events.append g kind payload createdAt).run events = .ok (n, events')) :
    fetch events' (EventKey.event g n) = some ⟨kind, payload, createdAt⟩ := by
  rw [Events.append, bind_eq, exec_bind, run_step_lock, bind_eq, exec_bind, run_step_tryRead] at h
  split at h
  · cases h
  · rw [bind_eq, exec_bind, run_step_write] at h
    split at h
    · cases h
    · rename_i hwritten
      split at hwritten
      · cases hwritten
      · split at hwritten
        · cases hwritten
        · cases hwritten
          cases h
          exact EventDb.fetch_store_self events (EventKey.event g n) (some ⟨kind, payload, createdAt⟩)

/-- An event that is appended is found under its number, in its persisted form. -/
theorem fetch_appendPersisted {event : GenerationEvent} {createdAt : Time}
    {events events' : EventDb} {n : ℕ}
    (h : (appendPersisted g event createdAt).run events = .ok (some n, events')) :
    ∃ kind payload, persistedForm event = some (kind, payload) ∧
      fetch events' (EventKey.event g n) = some ⟨kind, payload, createdAt⟩ := by
  rw [appendPersisted] at h
  split at h
  · rename_i kind payload hform
    rw [bind_eq, run_bind] at h
    split at h
    · cases h
    · rename_i n' events'' happend
      cases h
      exact ⟨kind, payload, hform, fetch_append happend⟩
  · cases h

/-- A Generation is rendered with progress that is a number, if it is without any. -/
theorem generationRowToProto_progress {describe : DbError → String}
    {downloadUrl : Uuid → Except String String} {outputs : ReadTransaction} {row : GenerationRow}
    (hfinite : ∀ snapshot ∈ row.latestProgress, isFinite snapshot.fraction)
    (h : ∃ generation, generationRowToProto describe downloadUrl outputs g
      { row with latestProgress := none } =
      .ok generation) :
    ∃ generation, generationRowToProto describe downloadUrl outputs g row = .ok generation := by
  obtain ⟨generation, h⟩ := h
  obtain ⟨reads, hreads, h⟩ := Traverse.bind_eq_ok_iff.1 h
  obtain ⟨artifacts, hartifacts, -⟩ := Traverse.bind_eq_ok_iff.1 h
  obtain ⟨snapshot, hsnapshot⟩ : ∃ snapshot, row.latestProgress.mapM (fun snapshot =>
      (progressFromJson snapshot).mapError (⟨.internal, ·⟩ : String → ConnectError)) = .ok snapshot :=
    Traverse.option_mapM_ok fun snapshot hsnapshot =>
      ⟨snapshot, Traverse.mapError_eq_ok_iff.2 (if_pos (hfinite snapshot hsnapshot))⟩
  exact ⟨_, Traverse.bind_eq_ok_iff.2 ⟨reads, hreads, Traverse.bind_eq_ok_iff.2 ⟨artifacts,
    hartifacts, Traverse.bind_eq_ok_iff.2 ⟨snapshot, hsnapshot, rfl⟩⟩⟩⟩

variable [TimeText] [Jsonb]

/-- The progress that is read of a row is of these values. -/
def GenerationRow.HasProgress (row : GenerationRow) (progress : ProgressSnapshot) : Prop :=
  ∃ json, row.progressJson = some json ∧ ∃ read, readProgress json = .ok read ∧ read.Same progress

/-- A row has the progress that was written exactly if its fraction is read back. -/
theorem hasProgress_iff (htime : TimeText.read (TimeText.write now) = .ok now) (row : GenerationRow) :
    GenerationRow.HasProgress
      { row with latestProgress := some { progress with observedAt := now } } progress ↔
      ReadsBack progress.fraction :=
  Iff.trans (exists_congr fun _ => and_congr_right fun _ => exists_congr fun _ =>
    and_congr_right fun _ =>
    ⟨fun ⟨h₁, h₂, h₃, h₄⟩ => ⟨h₁, h₂, h₃, h₄⟩, fun ⟨h₁, h₂, h₃, h₄⟩ => ⟨h₁, h₂, h₃, h₄⟩⟩)
    (@readProgress_readBack_iff _ _ { progress with observedAt := now } htime)

/-- A fraction that is read is finite. -/
theorem GenerationRow.HasProgress.isFinite {row : GenerationRow} (h : row.HasProgress progress) :
    ∀ snapshot ∈ row.latestProgress, Gpq.isFinite snapshot.fraction := by
  obtain ⟨json, hjson, read, hread, _⟩ := h
  intro snapshot hsnapshot
  rw [GenerationRow.progressJson, hsnapshot, Option.bind_some] at hjson
  exact isFinite_of_readProgress hjson hread

/-- After the handler, the row of the Generation has the progress that was reported, for every
    client, and the event that is recorded has it for a replay. -/
structure ProgressRoundTrips (w : AuthenticatedWorker) (a : Uuid) (progress : ProgressSnapshot)
    (now : Time) (db : Db)
    (g : Uuid) : Prop where
  stored : (tryHandleAttemptProgress w a progress now).Yields (fun verdict db' => verdict =
    .commit () ∧
    ∃ row : GenerationRow, fetch db' (generation g) = some row ∧ row.HasProgress progress ∧
      ∀ describe downloadUrl outputs,
        (∃ generation, generationRowToProto describe downloadUrl outputs g
          { row with latestProgress := none } =
          .ok generation) →
        ∃ generation, generationRowToProto describe downloadUrl outputs g row = .ok generation) db
  recorded : ∀ (events events' : EventDb) (n : ℕ) (createdAt : Time),
    (appendPersisted g (.progress progress) createdAt).run events = .ok (some n, events') →
    ∃ stored, fetch events' (EventKey.event g n) = some stored ∧ EventRow.HasProgress stored progress

omit [TimeText] [Jsonb] in
/-- A first event can be appended. -/
theorem appendPersisted_first (row : GenerationRow) (event : GenerationEvent) (createdAt : Time)
    (h : (persistedForm event).isSome) : ∃ events', (appendPersisted g event createdAt).run
      { generations := Table.set ∅ g (some row) } = .ok (some 1, events') := by
  obtain ⟨⟨kind, payload⟩, hform⟩ := Option.isSome_iff_exists.1 h
  have hrow : fetch ({ generations := Table.set ∅ g (some row) } : EventDb)
      (EventKey.generation g) = some row :=
    Table.lookup_set_self _ _ _
  have happend : (Events.append g kind payload createdAt).Yields (fun n _ => n = 1)
      { generations := Table.set ∅ g (some row) } := by
    refine yields_lock hrow rfl (yields_tryRead (b := 1) rfl ?_)
    refine yields_write (b := ()) (w := [⟨EventKey.event g 1, some ⟨kind, payload, createdAt⟩⟩]) ?_
      (yields_done rfl)
    rw [hrow]
    rfl
  obtain ⟨_, events', hrun, rfl⟩ := happend
  rw [appendPersisted, hform]
  dsimp only
  rw [bind_eq, run_bind, hrun]
  exact ⟨events', rfl⟩

/-- So a Generation that has its progress is rendered. -/
theorem rendered_of_hasProgress {row : GenerationRow} (h : row.HasProgress progress) :
    ∀ describe downloadUrl outputs,
      (∃ generation, generationRowToProto describe downloadUrl outputs g
        { row with latestProgress := none } =
        .ok generation) →
      ∃ generation, generationRowToProto describe downloadUrl outputs g row = .ok generation :=
  fun _ _ _ hrendered => generationRowToProto_progress h.isFinite hrendered

/-- The progress of a live Attempt round-trips exactly if its stage can be stored, its fraction reads
    back, and its Generation is active, or has the same progress already. -/
theorem progress_round_trips_iff (htime : TimeText.read (TimeText.write now) = .ok now)
    (hw : w.isCurrent db) (ha : fetch db (attempt a) = some attemptRow)
    (hlive : attemptRow.liveFor w.workerId now) :
    ProgressRoundTrips w a progress now db attemptRow.generationId ↔ storable progress.stage ∧
      ReadsBack progress.fraction ∧
      ∃ row : GenerationRow, fetch db (generation attemptRow.generationId) = some row ∧
        (row.active ∨ row.HasProgress progress) := by
  have hrun := @run_tryHandleAttemptProgress w a progress now db attemptRow hw ha hlive
  constructor
  · rintro ⟨⟨verdict, db', hyields, rfl, row, hrow, hhas, -⟩, hrecorded⟩
    rw [hrun] at hyields
    have hback : ReadsBack progress.fraction := by
      obtain ⟨events', happend⟩ :=
        appendPersisted_first (g := attemptRow.generationId) row (.progress progress) 0 rfl
      obtain ⟨kind, payload, hform, hfetch⟩ := fetch_appendPersisted happend
      obtain ⟨stored, hstored, hprogress⟩ := hrecorded _ _ _ _ happend
      cases hfetch.symm.trans hstored
      exact (EventRow.hasProgress_iff hform).1 hprogress
    by_cases hstage : storable progress.stage
    · rw [if_pos hstage] at hyields
      refine ⟨hstage, hback, ?_⟩
      cases hfilter : (fetch db (generation attemptRow.generationId)).filter GenerationRow.active with
      | some row₀ =>
        obtain ⟨hrow₀, hactive⟩ := Option.filter_eq_some_iff.1 hfilter
        exact ⟨row₀, hrow₀, .inl hactive⟩
      | none =>
        -- Nothing was stored, so that the row had this progress before.
        rw [hfilter] at hyields
        cases hyields
        exact ⟨row, hrow, .inr hhas⟩
    · rw [if_neg hstage] at hyields
      cases hyields
  · rintro ⟨hstage, hback, row, hrow, hkept⟩
    refine ⟨⟨.commit (), _, by rw [hrun, if_pos hstage], rfl, ?_⟩,
      fun events events' n createdAt happend => ?_⟩
    · by_cases hactive : row.active
      · rw [hrow, Option.filter_some, if_pos hactive]
        have hhas := (hasProgress_iff htime row).2 hback
        exact ⟨_, Database.fetch_store_self _ _ _, hhas, rendered_of_hasProgress hhas⟩
      · rw [hrow, Option.filter_some, if_neg hactive]
        have hhas := hkept.resolve_left hactive
        exact ⟨row, hrow, hhas, rendered_of_hasProgress hhas⟩
    · obtain ⟨kind, payload, hform, hfetch⟩ := fetch_appendPersisted happend
      exact ⟨_, hfetch, (EventRow.hasProgress_iff hform).2 hback⟩

end Handler

/-! ## A running image -/

namespace Sample

/-- The first Attempt is running. -/
def running : Db := after [firstLease, .attemptRunning alpha 41 1]

/-- Half of the steps are done. -/
def halfway : ProgressSnapshot := ⟨0x3fe0000000000000, "sampling", 20, 40, 0⟩

/-- The fraction is not a number. -/
def undefined : ProgressSnapshot := { halfway with fraction := 0x7ff8000000000000 }

/-- The text of one second after the epoch. -/
def oneSecond : String := "1970-01-01T00:00:01+00:00"

/-- A clock that knows one time. -/
@[reducible] def timeText : TimeText where
  write _ := oneSecond
  read text := if text = oneSecond then .ok 1000000 else .error "input contains invalid characters"

/-- A database that stores every JSON value as it is. -/
@[reducible] def jsonb : Jsonb := ⟨some⟩

theorem running_live : alpha.isCurrent running ∧
    (fetch running (attempt 41)).map
      (fun row : AttemptRow => (row.generationId, row.liveFor 11 1000000)) =
      some (31, true) ∧
    (fetch running (generation 31)).map GenerationRow.active = some true := by decide +kernel

end Sample

/-- The running image's progress can be read. -/
theorem progress_round_trips_halfway :
    @ProgressRoundTrips Sample.timeText Sample.jsonb Sample.alpha 41 Sample.halfway 1000000
      Sample.running 31 := by
  let _ := Sample.timeText
  let _ := Sample.jsonb
  obtain ⟨hw, hattempt, hgeneration⟩ := Sample.running_live
  obtain ⟨attemptRow, ha, heq⟩ := Option.map_eq_some_iff.1 hattempt
  obtain ⟨hg, hlive⟩ := Prod.mk.inj heq
  obtain ⟨row, hrow, hactive⟩ := Option.map_eq_some_iff.1 hgeneration
  rw [← hg] at hrow ⊢
  refine (progress_round_trips_iff rfl hw ha hlive).2 ⟨by decide, ⟨by decide, _, rfl, ?_⟩, row,
    hrow, .inl hactive⟩
  exact ⟨by decide, by decide, .inl rfl⟩

/-- Progress that is not a number is stored as null: the Generation can no longer be rendered. -/
theorem undefined_progress_unreadable :
    ¬ @ProgressRoundTrips Sample.timeText Sample.jsonb Sample.alpha 41 Sample.undefined 1000000
      Sample.running 31 ∧
      ∃ row : GenerationRow, fetch (Sample.after ([Sample.firstLease,
        .attemptRunning Sample.alpha 41 1] ++
          [.attemptProgress Sample.alpha 41 Sample.undefined 1000000])) (generation 31) = some row ∧
        ∀ describe downloadUrl outputs generation,
          generationRowToProto describe downloadUrl outputs 31 row ≠ .ok generation := by
  let _ := Sample.timeText
  let _ := Sample.jsonb
  have hstate : (fetch
      ((tryHandleAttemptProgress Sample.alpha 41 Sample.undefined 1000000).commit Sample.running)
      (generation 31)).map GenerationRow.latestProgress =
        some (some { Sample.undefined with observedAt := 1000000 }) := by decide +kernel
  have hafter : Sample.after ([Sample.firstLease, .attemptRunning Sample.alpha 41 1] ++
      [.attemptProgress Sample.alpha 41 Sample.undefined 1000000]) =
      (tryHandleAttemptProgress Sample.alpha 41 Sample.undefined 1000000).commit Sample.running :=
    Sample.after_append _ _
  rw [hafter]
  constructor
  · rintro ⟨⟨verdict, db', hrun, rfl, row, hrow, hhas, -⟩, -⟩
    rw [commit, hrun] at hstate
    dsimp only at hstate
    rw [hrow] at hstate
    exact absurd (hhas.isFinite _ (Option.some.inj hstate)) (by decide)
  · obtain ⟨row, hrow, hprogress⟩ := Option.map_eq_some_iff.1 hstate
    refine ⟨row, hrow, fun describe downloadUrl outputs generation h => ?_⟩
    obtain ⟨_, _, h⟩ := Traverse.bind_eq_ok_iff.1 h
    obtain ⟨_, _, h⟩ := Traverse.bind_eq_ok_iff.1 h
    obtain ⟨_, hread, _⟩ := Traverse.bind_eq_ok_iff.1 h
    rw [hprogress] at hread
    cases hread

end Gpq
