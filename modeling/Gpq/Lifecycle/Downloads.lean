import Gpq.Lifecycle.Deliveries
import Gpq.Lifecycle.Discards
import Gpq.Remote.Transfer

/-!
# Downloads

The deliveries of the running process, over whole runs: what a download spawns is a delivery
that is underway (`downloadForTenant_acquires`), every step of it keeps it or ends it, and no
other operation touches its Artifact (`Process.Tended`).

  * `delivery_verified`: what a client was passed, and when an Artifact is consumed;
  * `requests_committed`: the requests of a run in which no stream breaks while the final
    chunk is held back;
  * `deliveries_tended`: the Artifacts that are delivering where no restart drops their task.
-/

namespace Gpq

open Sql DbKey Prog

/-- What a download commits. -/
structure Acquires (id : Uuid) (db : Db) (reply : DownloadReply) (db' : Db) : Prop where
  others : ∀ k, k ≠ artifact id → fetch db' k = fetch db k
  row : ∃ row, fetch db (artifact id) = some row ∧ row.direction = .output ∧ row.state = .available ∧
    match reply with
    | .stream row' _ => row' = row ∧ fetch db' (artifact id) = some { row with state := .delivering }
    | .status _ => ∃ row', fetch db' (artifact id) = some row' ∧ row'.direction = .output ∧
      row'.state = .consumed

section Acquisition

variable {id : Uuid} {db : Db} {row : ArtifactRow} {reply : Verdict DownloadReply} {db' : Db}

/-- A transaction that is rolled back commits nothing. -/
theorem ensures_rollback {P : DownloadReply → Db → Prop} (reply : DownloadReply) (db₀ : Db) :
    (done (.rollback reply) : Body (Verdict DownloadReply)).Ensures ⊤
      (fun v db' => ∀ a, v = .commit a → P a db') db₀ := by
  intro a h
  cases h

/-- A refusal commits nothing. -/
theorem acquisitionRefused_ensures (clock : Time) (db₀ : Db) :
    (acquisitionRefused id clock).Ensures ⊤
      (fun v db' => ∀ a, v = .commit a → Acquires id db a db') db₀ := by
  refine ensures_bind (ensures_read (ensures_done ?_))
  split
  · exact ensures_rollback _ _
  · exact ensures_rollback _ _

/-- What `beginDelivery` leaves to a body. -/
theorem beginDelivery_ensures {f : Bool → Body (Verdict DownloadReply)} (clock : Time)
    (hrow : fetch db (artifact id) = some row)
    (hit : row.state = .available →
      (f true).Ensures ⊤ (fun v db' => ∀ a, v = .commit a → Acquires id db a db')
        (store db (artifact id) (some { row with state := .delivering })))
    (miss : (f false).Ensures ⊤ (fun v db' => ∀ a, v = .commit a → Acquires id db a db') db) :
    ((Artifacts.beginDelivery id clock).bind f).Ensures ⊤
      (fun v db' => ∀ a, v = .commit a → Acquires id db a db') db := by
  refine ensures_bind (ensures_update (fun r hr hg => ⟨trivial, ?_⟩) fun _ => ensures_done miss)
  obtain rfl : r = row := Option.some_inj.1 (hr.symm.trans hrow)
  simp only [Bool.and_eq_true, decide_eq_true_eq] at hg
  exact ensures_done (hit hg.1)

/-- What the end of a redirect leaves. -/
theorem markConsumed_ensures {r : ArtifactRow} (now : Time) (hout : r.direction = .output) :
    (Artifacts.markConsumed id now).Ensures ⊤ (fun out db' => ∀ a, out = .ok a →
      (∀ k, k ≠ artifact id → fetch db' k = fetch db k) ∧
      ∃ r', fetch db' (artifact id) = some r' ∧ r'.direction = .output ∧ r'.state = .consumed)
      (store db (artifact id) (some r)) := by
  refine ensures_read ?_
  rw [done_bind, Database.fetch_store_self]
  dsimp only
  split
  · intro a h
    cases h
  rename_i target htarget
  obtain rfl : target = .consumed := by
    unfold ArtifactState.transition at htarget
    split at htarget
    · cases htarget
      rfl
    · cases htarget
  refine ensures_update (fun r hr _ => ⟨trivial, ?_⟩) fun _ => ?_
  swap
  · intro a h
    cases h
  refine ensures_read ?_
  rw [done_bind, Database.fetch_store_self]
  rw [Database.fetch_store_self] at hr
  cases hr
  refine ensures_done fun _ _ => ⟨fun k hk => ?_, _, Database.fetch_store_self .., hout, rfl⟩
  rw [Db.fetch_store_ne _ _ hk, Db.fetch_store_ne db _ hk]

/-- A redirection takes an available output and consumes it at once. -/
theorem redirectToObjectStore_ensures (presigned : Bool) (clock later now : Time)
    (hrow : fetch db (artifact id) = some row) (hout : row.direction = .output) :
    (redirectToObjectStore id row presigned clock later now).Ensures ⊤
      (fun v db' => ∀ a, v = .commit a → Acquires id db a db') db := by
  refine beginDelivery_ensures clock hrow (fun hstate => ?_) (acquisitionRefused_ensures later db)
  rw [if_neg (by decide)]
  split
  · exact ensures_rollback _ _
  refine ensures_bind
    (Ensures.mono (markConsumed_ensures (r := { row with state := .delivering }) now hout)
      fun r db' h => ?_)
  split
  · exact ensures_rollback _ _
  · rename_i a
    obtain ⟨hothers, hconsumed⟩ := h a rfl
    refine ensures_done ?_
    rintro _ ⟨⟩
    exact ⟨hothers, row, hrow, hout, hstate, hconsumed⟩

/-- A delivery takes an available output. -/
theorem deliverWorkerLocal_ensures (clock later : Time)
    (hrow : fetch db (artifact id) = some row) (hout : row.direction = .output) :
    (deliverWorkerLocal id row clock later).Ensures ⊤
      (fun v db' => ∀ a, v = .commit a → Acquires id db a db') db := by
  unfold deliverWorkerLocal
  split
  · refine beginDelivery_ensures clock hrow (fun hstate => ensures_done ?_)
      (acquisitionRefused_ensures later db)
    rintro _ ⟨⟩
    exact ⟨fun k hk => Db.fetch_store_ne db _ hk, row, hrow, hout, hstate, rfl,
      Database.fetch_store_self ..⟩
  · exact ensures_rollback _ _

/-- What is downloaded is an output. -/
theorem classifyDownload_output {row : ArtifactRow} {online : Bool}
    (h : classifyDownload (some row) online ≠ .notFound) : row.direction = .output := by
  unfold classifyDownload at h
  dsimp only at h
  split at h
  · exact absurd rfl h
  · rename_i hdir
    simpa using hdir

/-- A download commits where it has acquired an available output. -/
theorem downloadForTenant_acquires (id : Uuid) (isOnline : Uuid → Bool) (presigned : Bool)
    (clock later now : Time) (db : Db) :
    (downloadForTenant id isOnline presigned clock later now).Ensures ⊤
      (fun v db' => ∀ a, v = .commit a → Acquires id db a db') db := by
  refine ensures_read ?_
  rw [done_bind]
  split
  · exact ensures_rollback _ _
  · exact ensures_rollback _ _
  · exact ensures_rollback _ _
  · exact ensures_rollback _ _
  · exact ensures_rollback _ _
  · exact ensures_rollback _ _
  · rename_i row hrow hclass
    exact redirectToObjectStore_ensures presigned clock later now hrow
      (classifyDownload_output (by rw [← hrow, hclass]; exact nofun))
  · rename_i row hrow hclass
    exact deliverWorkerLocal_ensures clock later hrow
      (classifyDownload_output (by rw [← hrow, hclass]; exact nofun))

end Acquisition

/-! ## Runs -/

section Runs

variable [Sha256]

/-- A delivery keeps its Artifact from being delivered again. -/
theorem Delivery.Kept.begun {t : Delivery} {row : ArtifactRow} (h : t.Kept row) : row.begun := by
  unfold Delivery.Kept at h
  split at h
  · have hterminal := h.terminal
    unfold ArtifactRow.begun
    revert hterminal
    cases row.state <;> decide
  · simp [ArtifactRow.begun, h.state]

/-- A delivery that was just spawned. -/
theorem Delivery.spawn_kept (id : Uuid) {row : ArtifactRow} (workerId : Uuid)
    (hfresh : row.committedOffset = 0) :
    (Delivery.spawn id row workerId).Kept { row with state := .delivering } := by
  rw [Delivery.Kept, if_neg (by simp [Delivery.spawn])]
  have hzero : (Delivery.spawn id row workerId).offset = 0 := by
    simp [Delivery.spawn, hfresh]
  exact {
    state := rfl
    size := rfl
    digest := rfl
    hashed := rfl
    counted := by rw [hzero]; rfl
    bounded := by
      rw [hzero]
      exact UInt64.le_iff_toNat_le.2 (Nat.zero_le _)
    split := rfl
    held := by simp [Delivery.spawn]
    below := fun _ => by
      rw [hzero]
      by_cases hsize : (Delivery.spawn id row workerId).expectedSize = 0
      · exact .inr hsize
      · exact .inl (UInt64.pos_iff_ne_zero.2 hsize)
    empty := fun _ => rfl
    committed := hfresh }

namespace Process

/-- The transactions that end a delivery reach the database. -/
def WritesSucceed : Act → Process → Prop
  | .deliver _ _ answers, _ => answers.settles
  | _, _ => True

/-- A task of the process, or one that is about to be spawned. -/
def Task (s : Process) (id : Uuid) (t : Delivery) : Prop := s.deliveries id = some t ∨
    s.acquired id = some t

/-- Every task is kept by the row of its Artifact, and is spawned at most once. -/
structure Tended (s : Process) : Prop where
  fresh : ∀ id r, fetch s.db (artifact id) = some r → r.begun = false → r.committedOffset = 0
  kept : ∀ id t, s.Task id t → t.artifactId = id ∧
    ∃ row, fetch s.db (artifact id) = some row ∧ row.direction = .output ∧ t.Kept row
  once : ∀ id t, s.acquired id = some t → s.deliveries id = none

variable {s s' : Process} {id : Uuid}

/-- A transaction that leaves begun downloads alone leaves them tended. -/
theorem Tended.transact {db : Db} (h : s.Tended) (hdb : begunRel.Of s.db db) :
    Tended { s with db } where
  fresh id r hr hb := by
    rcases (hdb (artifact id)).fresh r hr hb with hzero | ⟨r₀, hr₀, hb₀, he⟩
    · exact hzero
    · exact he.trans (h.fresh id r₀ hr₀ hb₀)
  kept id t ht := by
    obtain ⟨hid, row, hrow, hout, hkept⟩ := h.kept id t ht
    exact ⟨hid, row, (hdb (artifact id)).kept row hrow hout hkept.begun, hout, hkept⟩
  once := h.once

/-- Only an Artifact that is available is acquired. -/
theorem Tended.not_task {db' : Db} {reply : DownloadReply} (h : s.Tended)
    (hacquires : Acquires id s.db reply db')
    (t : Delivery) : ¬ s.Task id t := by
  intro ht
  obtain ⟨row, hrow, -, hstate, -⟩ := hacquires.row
  obtain ⟨-, row', hrow', -, hkept⟩ := h.kept id t ht
  cases hrow.symm.trans hrow'
  have hb := hkept.begun
  simp [ArtifactRow.begun, hstate] at hb

/-- What changes at one Artifact only, which is begun then. -/
theorem Tended.update (h : s.Tended) (hothers : ∀ k, k ≠ artifact id → fetch s'.db k = fetch s.db k)
    (hdeliveries : ∀ i, i ≠ id → s'.deliveries i = s.deliveries i)
    (hacquired : ∀ i, i ≠ id → s'.acquired i = s.acquired i)
    (hrow : ∀ r, fetch s'.db (artifact id) = some r → r.begun)
    (htask : ∀ t, s'.Task id t → t.artifactId = id ∧
      ∃ row, fetch s'.db (artifact id) = some row ∧ row.direction = .output ∧ t.Kept row)
    (honce : ∀ t, s'.acquired id = some t → s'.deliveries id = none) : s'.Tended where
  fresh i r hr hb := by
    by_cases hi : i = id
    · subst hi
      rw [hrow r hr] at hb
      cases hb
    · rw [hothers _ (by simpa using hi)] at hr
      exact h.fresh i r hr hb
  kept i t ht := by
    by_cases hi : i = id
    · subst hi
      exact htask t ht
    · rw [Task, hdeliveries i hi, hacquired i hi] at ht
      rw [hothers _ (by simpa using hi)]
      exact h.kept i t ht
  once i t ht := by
    by_cases hi : i = id
    · subst hi
      exact honce t ht
    · rw [hacquired i hi] at ht
      rw [hdeliveries i hi]
      exact h.once i t ht

/-- Where the database stays, and no task is new. -/
theorem Tended.tasks (h : s.Tended) (hdb : s'.db = s.db) (htask : ∀ i t, s'.Task i t → s.Task i t)
    (honce : ∀ i t, s'.acquired i = some t → s'.deliveries i = none) : s'.Tended where
  fresh := by
    rw [hdb]
    exact h.fresh
  kept i t ht := by
    rw [hdb]
    exact h.kept i t (htask i t ht)
  once := honce

/-- A download takes what nobody had taken: it makes a delivery without a task, or consumes its
    output. -/
theorem Tended.download [ManifestHash] (h : s.Tended) (isOnline : Uuid → Bool) (presigned : Bool)
    (clock later now : Time) : (s.download id isOnline presigned clock later now).Tended := by
  have hensures := downloadForTenant_acquires id isOnline presigned clock later now s.db
  unfold Process.download
  split
  · rename_i row workerId db' hrun
    have hacquires := hensures.of_run hrun _ rfl
    -- no task was left from a delivery that ended before
    have hnone : s.deliveries id = none :=
      Option.eq_none_iff_forall_not_mem.2 fun t ht => h.not_task hacquires t (.inl ht)
    obtain ⟨row', hrow, hout, hstate, rfl, hrow'⟩ := hacquires.row
    have hfresh : row.committedOffset = 0 := h.fresh id row hrow (by simp [ArtifactRow.begun, hstate])
    refine h.update hacquires.others (fun _ _ => rfl)
      (fun _ hi => Function.update_of_ne hi ..) ?_ ?_ fun _ _ => hnone
    · intro r hr
      cases hrow'.symm.trans hr
      rfl
    · rintro t (ht | ht)
      · exact absurd (ht.symm.trans hnone) (Option.some_ne_none t)
      · dsimp only at ht
        rw [Function.update_self] at ht
        obtain rfl := Option.some.inj ht
        exact ⟨rfl, _, hrow', hout, Delivery.spawn_kept id workerId hfresh⟩
  · rename_i reply db' hnot hrun
    have hacquires := hensures.of_run hrun _ rfl
    obtain ⟨row, -, -, -, hreply⟩ := hacquires.row
    cases reply with
    | stream row' workerId => exact absurd rfl (hnot row' workerId)
    | status code =>
      obtain ⟨row', hrow', -, hconsumed⟩ := hreply
      refine h.update hacquires.others (fun _ _ => rfl) (fun _ _ => rfl) (fun r hr => ?_)
        (fun t ht => absurd ht (h.not_task hacquires t)) (h.once id)
      cases hrow'.symm.trans hr
      simp [ArtifactRow.begun, hconsumed]
  · exact h

omit [Sha256] in
/-- What is spawned was acquired. -/
theorem task_of_spawn {i : Uuid} {t : Delivery} (ht : (s.spawn id).Task i t) : s.Task i t := by
  rw [Process.spawn] at ht
  cases hacquired : s.acquired id with
  | none =>
    rw [hacquired] at ht
    exact ht
  | some t₀ =>
    rw [hacquired, Task] at ht
    dsimp only at ht
    by_cases hi : i = id
    · subst hi
      rw [Function.update_self, Function.update_self, ← hacquired] at ht
      exact ht.elim .inr fun hnone => absurd hnone.symm (Option.some_ne_none t)
    · rw [Function.update_of_ne hi, Function.update_of_ne hi] at ht
      exact ht

omit [Sha256] in
/-- What is still acquired after a handler is dropped was acquired before. -/
theorem acquired_of_abandon {i : Uuid} {t : Delivery} (ht : (s.abandon id).acquired i = some t) :
    s.acquired i = some t := by
  rw [Process.abandon] at ht
  dsimp only at ht
  by_cases hi : i = id
  · subst hi
    rw [Function.update_self] at ht
    exact absurd ht.symm (Option.some_ne_none t)
  · rw [Function.update_of_ne hi] at ht
    exact ht

/-- A delivery that was acquired gets its task. -/
theorem Tended.spawn (h : s.Tended) : (s.spawn id).Tended := by
  refine h.tasks ?_ (fun _ _ => task_of_spawn) fun i t ht => ?_
  · rw [Process.spawn]
    split
    · rfl
    · rfl
  · rw [Process.spawn] at ht ⊢
    cases hacquired : s.acquired id with
    | none =>
      rw [hacquired] at ht
      exact h.once i t ht
    | some t₀ =>
      rw [hacquired] at ht
      dsimp only at ht ⊢
      by_cases hi : i = id
      · subst hi
        rw [Function.update_self] at ht
        exact absurd ht.symm (Option.some_ne_none t)
      · rw [Function.update_of_ne hi] at ht ⊢
        exact h.once i t ht

theorem Tended.abandon (h : s.Tended) : (s.abandon id).Tended :=
  h.tasks rfl (fun _ _ ht => ht.imp_right acquired_of_abandon) fun i t ht =>
    h.once i t (acquired_of_abandon ht)

/-- An event of a delivery keeps its row with its task. -/
theorem Tended.deliver (h : s.Tended) (event : DeliveryEvent) {answers : Answers}
    (hsettles : answers.settles) : (s.deliver id event answers).Tended := by
  unfold Process.deliver
  split
  · exact h
  rename_i t ht
  obtain ⟨rfl, row, hrow, hout, hkept⟩ := h.kept id t (.inl ht)
  -- a delivery that has a task is not waiting for one
  have hspawned : s.acquired t.artifactId = none := Option.eq_none_iff_forall_not_mem.2 fun t' ht' =>
    absurd (ht.symm.trans (h.once _ t' ht')) (Option.some_ne_none t)
  by_cases hphase : t.phase = .done
  · -- a delivery that is over does nothing
    have hover : t.streamWorkerLocal event answers s.db = (t, s.db) := by
      unfold Delivery.streamWorkerLocal
      rw [hphase]
    rw [hover]
    have hsame : Function.update s.deliveries t.artifactId (some t) = s.deliveries := by
      rw [← ht, Function.update_eq_self]
    dsimp only
    rw [hsame]
    exact h
  · rw [Delivery.Kept, if_neg hphase] at hkept
    obtain ⟨hsame, hothers, row', hrow', hdirection, hkept'⟩ :=
      hkept.streamWorkerLocal hphase hrow hsettles event
    refine h.update hothers (fun _ hi => Function.update_of_ne hi ..) (fun _ _ => rfl)
      (fun r hr => ?_)
      (fun t' ht' => ?_) fun t' ht' => absurd (ht'.symm.trans hspawned) (Option.some_ne_none t')
    · cases hrow'.symm.trans hr
      exact hkept'.begun
    · rcases ht' with ht' | ht'
      · dsimp only at ht'
        rw [Function.update_self] at ht'
        obtain rfl := Option.some.inj ht'
        exact ⟨hsame, row', hrow', hdirection.trans hout, hkept'⟩
      · exact absurd (ht'.symm.trans hspawned) (Option.some_ne_none t')

/-- Every delivery of a reached process is kept by the row of its Artifact. -/
theorem tended_of_reaches [ManifestHash] (hs : ReachesBy WritesSucceed s) : s.Tended := by
  refine Machine.Reachable.invariant (I := Tended) ?_ ?_ hs
  · rintro _ ⟨tenantId, rfl⟩
    refine ⟨fun id r hr => ?_, fun id t ht => ?_, fun id t ht => ?_⟩
    · cases hr
    · rcases ht with ht | ht
      · cases ht
      · cases ht
    · cases ht
  · rintro s _ - h ⟨a, hallowed, rfl⟩
    cases a with
    | transact op =>
      rw [step]
      split
      · exact h
      · rename_i hop
        exact h.transact (op.leavesBegun (by simpa using hop) s.db)
    | download id isOnline presigned clock later now =>
      exact h.download isOnline presigned clock later now
    | spawn id => exact h.spawn
    | abandon id => exact h.abandon
    | deliver id event answers => exact h.deliver event hallowed
    | restart =>
      refine h.tasks rfl (fun i t ht => ?_) fun i t ht => ?_
      · rcases ht with ht | ht
        · cases ht
        · cases ht
      · cases ht

end Process

end Runs

/-! ## A download -/

namespace Sample

/-- An image of three bytes. -/
def image : ArtifactManifest where
  sizeBytes := 3
  digest := 0x039058c6f2c0cb492c533b0a4d14ef77cc0f78abccced5287d84a1a2011cfb81#256
  kind := .image
  mimeType := "image/png"

/-- The digest, on the image's bytes. -/
@[reducible]
def sha256 : Sha256 := ⟨fun _ => image.digest⟩

/-- The first Worker's result is downloaded. -/
def downloads : List Act :=
  (setUp ++ [firstLease, .attemptResult alpha 41 [{ picture with manifest := some image }] 0]).map
    .transact ++
    [.download 61 (fun _ => true) false 0 0 0, .spawn 61]

/-- A step of the download that nothing fails in. -/
def hears (event : DeliveryEvent) : Act := .deliver 61 event ⟨true, true, true, 0⟩

/-- The process after the download and what follows. -/
def downloaded (acts : List Act) : Process :=
  Machine.run (@Process.step manifestHash sha256) { db := .initial 1 } (downloads ++ acts)

/-- The image arrives as one chunk. -/
def whole : List Act := [hears (.sent .delivered), hears (.received (some (.data [1, 2, 3])))]

theorem reaches_downloaded (acts : List Act) {allowed : Act → Process → Prop}
    (h : @Machine.Allowed _ _ (@Process.step manifestHash sha256) allowed { db := .initial 1 }
      (downloads ++ acts)) : @Process.ReachesBy manifestHash sha256 allowed (downloaded acts) :=
  Machine.reachable_run (.init ⟨1, rfl⟩) _ h

end Sample

section Runs

variable [Sha256]

/-! ## What the client is passed -/

/-- In a process whose deliveries are ended by transactions that succeed, the client of a
    download was passed a prefix of the accepted data, at most the manifest's size of it, and
    all of it only where it has the manifest's digest (an empty output is passed on as one
    empty item). Only then the Artifact is consumed, and a delivery that is over has left it
    in a terminal state. -/
theorem delivery_verified [ManifestHash] {s : Process} (hs : s.ReachesBy Process.WritesSucceed)
    {id : Uuid} {t : Delivery} (ht : s.deliveries id = some t) :
    t.passed <+: t.accepted ∧ ∃ row : ArtifactRow, fetch s.db (artifact id) = some row ∧
      t.passed.length ≤ row.manifest.sizeBytes.toNat ∧
      ((row.manifest.sizeBytes = 0 → t.items ≠ []) → t.passed.length = row.manifest.sizeBytes.toNat →
        Sha256.digest t.passed = row.manifest.digest) ∧
      (row.state = .consumed → t.items ≠ [] ∧ t.passed.length = row.manifest.sizeBytes.toNat) ∧
      (t.phase = .done → row.state.isTerminal) := by
  obtain ⟨-, row, hrow, -, hkept⟩ := (Process.tended_of_reaches hs).kept id t (.inl ht)
  have hverified : t.Verified ∧ row.manifest.sizeBytes = t.expectedSize ∧
      row.manifest.digest = t.expectedDigest ∧
      (row.state = .consumed → t.items ≠ [] ∧ t.passed.length = t.expectedSize.toNat) ∧
      (t.phase = .done → row.state.isTerminal) := by
    unfold Delivery.Kept at hkept
    split at hkept
    · exact ⟨hkept.toVerified, hkept.size, hkept.digest, hkept.consumed, fun _ => hkept.terminal⟩
    · rename_i hphase
      refine ⟨hkept.verified ⟨rfl, rfl, rfl, rfl, List.prefix_refl _⟩, hkept.size, hkept.digest, ?_,
        fun hdone => absurd hdone hphase⟩
      intro hconsumed
      cases hkept.state.symm.trans hconsumed
  obtain ⟨hv, hsize, hdigest, hconsumed, hdone⟩ := hverified
  refine ⟨hv.passed, row, hrow, hsize ▸ hv.bounded, fun hempty hfull => ?_, hsize ▸ hconsumed, hdone⟩
  rw [hdigest]
  rw [hsize] at hempty hfull
  refine hv.verified (fun hnil => ?_) hfull
  -- nothing at all is everything only of an empty output
  have hzero : t.expectedSize.toNat = 0 := by
    rw [← hfull, Delivery.passed_eq, hnil]
    rfl
  exact hempty (UInt64.toNat_inj.1 hzero) hnil

omit [Sha256] in
/-- The image is passed on and consumed. -/
theorem delivery_verified_image :
    let s := Sample.downloaded (Sample.whole ++ [Sample.hears (.received (some .complete))])
    (fetch s.db (artifact 61)).map ArtifactRow.state = some .consumed ∧
    (s.deliveries 61).map Delivery.passed = some [1, 2, 3] ∧
    ∀ t ∈ s.deliveries 61, t.passed <+: t.accepted := by
  let _ := Sample.manifestHash
  let _ := Sample.sha256
  refine and_assoc.1 ⟨by decide +kernel, fun t ht => (delivery_verified ?_ ht).1⟩
  refine Sample.reaches_downloaded _ ?_
  exact ⟨trivial, trivial, trivial, trivial, trivial, trivial, trivial, trivial, trivial, trivial,
    rfl, rfl, rfl, trivial⟩

/-! ## Resumed deliveries -/

/-- Whether the Worker's stream breaks. -/
def DeliveryEvent.breaks : DeliveryEvent → Bool
  | received none | received (some (.failed _)) => true
  | _ => false

/-- No stream breaks while the final chunk is held back, unless it is not resumed. -/
def Process.ResumesUnheld : Act → Process → Prop
  | .deliver id event answers, s => answers.settles ∧ ∀ t ∈ s.deliveries id, t.phase = .draining →
      event.breaks → t.pending = none ∨ Delivery.exhausted (t.attempts + 1)
  | _, _ => True

/-- A delivery that asks for its bytes holds no chunk back. -/
def Delivery.Unheld (t : Delivery) : Prop := t.phase = .requesting → t.pending = none

section Resumes

variable {t : Delivery} {answers : Answers} {db : Db}

omit [Sha256] in
/-- A delivery that fails is over. -/
theorem Delivery.failDelivery_done (t : Delivery) (answers : Answers) (message : String) (db : Db) :
    (t.failDelivery answers message db).1.phase = .done := by
  rw [Delivery.failDelivery]
  dsimp only
  rw [Delivery.send_eq]
  rfl

omit [Sha256] in
/-- A delivery that is over asks for nothing. -/
theorem Delivery.unheld_of_done (h : t.phase = .done) : t.Unheld := by
  intro hphase
  cases h.symm.trans hphase

omit [Sha256] in
/-- To ask a Worker holds no chunk back. -/
theorem Delivery.Unheld.request (h : t.Unheld) (outcome : SendOutcome) :
    (t.requestWorkerDelivery answers outcome db).1.Unheld := by
  unfold Delivery.requestWorkerDelivery
  cases outcome with
  | delivered => exact nofun
  | offline => exact Delivery.unheld_of_done (Delivery.failDelivery_done ..)
  | backpressured =>
    dsimp only
    split
    · refine Delivery.unheld_of_done ?_
      rw [Delivery.send_eq]
      rfl
    · exact h

omit [Sha256] in
/-- A delivery that is resumed has no chunk that is held back, unless it is over. -/
theorem Delivery.Unheld.resume (h : t.pending = none ∨ Delivery.exhausted (t.attempts + 1))
    (message : String) : (t.resume answers message db).1.Unheld := by
  unfold Delivery.resume
  dsimp only
  split
  · exact Delivery.unheld_of_done (Delivery.failDelivery_done ..)
  · rename_i hmore
    exact fun _ => h.resolve_right hmore

omit [Sha256] in
/-- Data neither asks again nor ends the wait for more, unless the delivery is over. -/
theorem Delivery.drainData_phase (hphase : t.phase = .draining) (bytes : Bytes) :
    (t.drainData answers bytes db).1.phase = .done ∨
    ((t.drainData answers bytes db).1.phase = .draining ∧
      (t.drainData answers bytes db).1.attempts = t.attempts) := by
  unfold Delivery.drainData
  split
  · exact .inl (Delivery.failDelivery_done ..)
  split
  · exact .inl (Delivery.failDelivery_done ..)
  split
  · exact .inr ⟨hphase, rfl⟩
  dsimp only
  split
  · exact .inr ⟨hphase, rfl⟩
  split
  · exact .inl rfl
  rw [Delivery.send_eq]
  split
  · exact .inl (Delivery.failDelivery_done ..)
  · exact .inr ⟨hphase, rfl⟩

/-- A delivery is over at the end of its chunks, however that turns out. -/
theorem Delivery.drainComplete_done (t : Delivery) (answers : Answers) (db : Db) :
    (t.drainComplete answers db).1.phase = .done := by
  unfold Delivery.drainComplete
  split
  · exact Delivery.failDelivery_done ..
  dsimp only
  split
  · rfl
  split
  · rfl
  split
  · rfl
  split
  · exact Delivery.failDelivery_done ..
  · rfl

/-- Only a break while a chunk is held back leaves a delivery that asks with a chunk in hand. -/
theorem Delivery.Unheld.streamWorkerLocal (h : t.Unheld) {event : DeliveryEvent}
    (hbreaks : t.phase = .draining → event.breaks → t.pending = none ∨
      Delivery.exhausted (t.attempts + 1)) :
    (t.streamWorkerLocal event answers db).1.Unheld := by
  unfold Delivery.streamWorkerLocal
  split
  · exact h.request _
  · rename_i hphase
    unfold Delivery.drainWorkerChunk
    split
    · rename_i bytes
      rcases Delivery.drainData_phase hphase bytes with hp | ⟨hp, -⟩
      · exact Delivery.unheld_of_done hp
      · intro hrequesting
        cases hp.symm.trans hrequesting
    · exact Delivery.unheld_of_done (Delivery.drainComplete_done ..)
    · exact Delivery.Unheld.resume (hbreaks hphase rfl) _
    · exact Delivery.unheld_of_done (Delivery.failDelivery_done ..)
    · exact Delivery.Unheld.resume (hbreaks hphase rfl) _
  · exact Delivery.unheld_of_done (Delivery.failDelivery_done ..)
  · exact h

end Resumes

/-- A task is stepped, acquired by a download, or as it was. -/
theorem Process.task_step [ManifestHash] {s : Process} {a : Act} {id : Uuid} {t : Delivery}
    (ht : (Process.step a s).Task id t) :
    s.Task id t ∨ (∃ row workerId, t = Delivery.spawn id row workerId) ∨
    ∃ event answers t₀, a = .deliver id event answers ∧ s.deliveries id = some t₀ ∧
      t = (t₀.streamWorkerLocal event answers s.db).1 := by
  cases a with
  | transact op =>
    rw [step] at ht
    split at ht
    · exact .inl ht
    · exact .inl ht
  | download i isOnline presigned clock later now =>
    rw [step, Process.download] at ht
    split at ht
    · rename_i row workerId db' hrun
      rcases ht with ht | ht
      · exact .inl (.inl ht)
      by_cases hi : id = i
      · subst hi
        dsimp only at ht
        rw [Function.update_self] at ht
        exact .inr (.inl ⟨row, workerId, (Option.some_inj.1 ht).symm⟩)
      · exact .inl (.inr ((Function.update_of_ne hi ..).symm.trans ht))
    · exact .inl ht
    · exact .inl ht
  | spawn i => exact .inl (task_of_spawn ht)
  | abandon i => exact .inl (ht.imp_right acquired_of_abandon)
  | deliver i event answers =>
    rw [step, Process.deliver] at ht
    split at ht
    · exact .inl ht
    · rename_i t₀ ht₀
      rcases ht with ht | ht
      · by_cases hi : id = i
        · subst hi
          dsimp only at ht
          rw [Function.update_self] at ht
          exact .inr (.inr ⟨event, answers, t₀, rfl, ht₀, (Option.some_inj.1 ht).symm⟩)
        · exact .inl (.inl ((Function.update_of_ne hi ..).symm.trans ht))
      · exact .inl (.inr ht)
  | restart =>
    rcases ht with ht | ht
    · cases ht
    · cases ht

/-- Where no stream breaks while the final chunk is held back, every request carries the offset
    that is stored for the Artifact, so that a start with it is not refused for its offset. -/
theorem requests_committed [ManifestHash] {s : Process} (hs : s.ReachesBy Process.ResumesUnheld)
    {id : Uuid} {t : Delivery} (ht : s.deliveries id = some t) (hphase : t.phase = .requesting) :
    (∃ row : ArtifactRow, fetch s.db (artifact id) = some row ∧
      t.deliverRequest.offset.toNat = row.committedOffset) ∧
    ∀ start : DeliverArtifactStart, start.artifactId = id → start.offset = t.deliverRequest.offset →
      validateDeliveryStart s.db start ≠
        .error ⟨.failedPrecondition, "delivery offset does not match the recorded progress"⟩ := by
  have hwrites : s.ReachesBy Process.WritesSucceed := by
    refine Machine.Reachable.mono ?_ hs
    rintro s _ ⟨a, hallowed, rfl⟩
    refine ⟨a, ?_, rfl⟩
    cases a with
    | deliver id event answers => exact hallowed.1
    | _ => trivial
  have hunheld : ∀ id t, s.deliveries id = some t → t.Unheld := by
    have htasks : ∀ id t, s.Task id t → t.Unheld := ?_
    · exact fun id t ht => htasks id t (.inl ht)
    refine Machine.Reachable.invariant (I := fun s => ∀ id t, s.Task id t → t.Unheld) ?_ ?_ hs
    · rintro _ ⟨tenantId, rfl⟩ id t (ht | ht)
      · cases ht
      · cases ht
    · rintro s _ - h ⟨a, hallowed, rfl⟩ id t ht
      rcases Process.task_step ht with ht | ⟨row, workerId, rfl⟩ | ⟨event, answers, t₀, rfl, ht₀, rfl⟩
      · exact h id t ht
      · exact fun _ => rfl
      · exact (h id t₀ (.inl ht₀)).streamWorkerLocal (hallowed.2 t₀ ht₀)
  obtain ⟨-, row, hrow, -, hkept⟩ := (Process.tended_of_reaches hwrites).kept id t (.inl ht)
  rw [Delivery.Kept, if_neg (by rw [hphase]; simp)] at hkept
  have hcommitted : t.deliverRequest.offset.toNat = row.committedOffset := by
    have hall : t.passed = t.accepted := by
      simpa [hunheld id t ht hphase] using hkept.split
    rw [Delivery.deliverRequest, hkept.counted, hkept.committed, hall]
  refine ⟨⟨row, hrow, hcommitted⟩, ?_⟩
  rintro start rfl hoffset
  unfold validateDeliveryStart
  simp only [hrow, hoffset, hcommitted, ne_eq, not_true_eq_false, if_false, Bind.bind,
    Except.bind, throw, throwThe, MonadExceptOf.throw]
  -- what is left are the other reasons to refuse a start
  repeat' split
  all_goals simp [pure, Except.pure]

omit [Sha256] in
/-- The stream breaks after one byte, and is resumed from there. -/
theorem requests_committed_part :
    let s := Sample.downloaded [Sample.hears (.sent .delivered),
      Sample.hears (.received (some (.data [1]))), Sample.hears (.received none)]
    (s.deliveries 61).map Delivery.phase = some .requesting ∧
    ∀ t ∈ s.deliveries 61, ∃ row : ArtifactRow, fetch s.db (artifact 61) = some row ∧
      t.deliverRequest.offset.toNat = row.committedOffset := by
  let _ := Sample.manifestHash
  let _ := Sample.sha256
  have hphase : ((Sample.downloaded [Sample.hears (.sent .delivered),
    Sample.hears (.received (some (.data [1]))), Sample.hears (.received none)]).deliveries 61).map
      Delivery.phase = some .requesting := by decide +kernel
  refine ⟨hphase, fun t ht => (requests_committed ?_ ht ?_).1⟩
  · refine Sample.reaches_downloaded _ ?_
    refine ⟨trivial, trivial, trivial, trivial, trivial, trivial, trivial, trivial, trivial,
      trivial, ?_, ?_, ?_, trivial⟩
    · exact ⟨rfl, fun _ _ _ h => nomatch h⟩
    · exact ⟨rfl, fun _ _ _ h => nomatch h⟩
    · refine ⟨rfl, fun t ht _ _ => .inl ?_⟩
      have hpending : ∀ o : Option Delivery, (o.map Delivery.pending = some none) → t ∈ o →
          t.pending = none := by
        rintro _ h rfl
        simpa using h
      exact hpending _ (by decide +kernel) ht
  · rw [ht] at hphase
    exact Option.some_inj.1 hphase

omit [Sha256] in
/-- The stream breaks after the whole image: the request for the rest carries an offset that is
    not the stored one, and a start with it is refused. -/
theorem resume_refused :
    let s := Sample.downloaded
      (Sample.whole ++ [Sample.hears (.received (some (.failed endedEarly)))])
    @Process.ReachesBy Sample.manifestHash Sample.sha256 Process.WritesSucceed s ∧
    (s.deliveries 61).map Delivery.phase = some .requesting ∧
    (s.deliveries 61).map Delivery.deliverRequest = some ⟨61, "t", 3⟩ ∧
    (fetch s.db (artifact 61)).map ArtifactRow.committedOffset = some 0 ∧
    (validateDeliveryStart s.db ⟨61, "t", Sample.image, 3⟩).toOption = none := by
  refine ⟨Sample.reaches_downloaded _ ?_, by decide +kernel⟩
  exact ⟨trivial, trivial, trivial, trivial, trivial, trivial, trivial, trivial, trivial, trivial,
    rfl, rfl, rfl, trivial⟩

/-! ## Settled deliveries -/

/-- What a delivery waits for. An empty chunk is no answer to it. -/
def Delivery.Awaits (t : Delivery) : DeliveryEvent → Prop
  | .sent _ => t.phase = .requesting
  | .received chunk => t.phase = .draining ∧ chunk ≠ some (.data [])
  | .silence => t.phase = .draining

/-- However a delivery is answered, and whatever else happens to the database in between but
    to its Artifact, the delivery ends after finitely many answers, and the Artifact is in a
    terminal state then. -/
inductive Delivery.WillSettle (id : Uuid) : Delivery → Db → Prop
  | settled {t : Delivery} {db : Db} {row : ArtifactRow} (hphase : t.phase = .done)
    (hrow : fetch db (artifact id) = some row) (hterminal : row.state.isTerminal) : WillSettle id t db
  | waits {t : Delivery} {db : Db} (hphase : t.phase ≠ .done)
    (h : ∀ event answers db', t.Awaits event → answers.settles →
      fetch db' (artifact id) = fetch db (artifact id) →
      WillSettle id (t.streamWorkerLocal event answers db').1
        (t.streamWorkerLocal event answers db').2) :
    WillSettle id t db

/-- What is left for a delivery to be answered: every answer uses up an attempt or brings bytes,
    but for the one that starts the stream. -/
def Delivery.remaining (t : Delivery) : ℕ :=
  2 * (maxResumeAttempts - t.attempts) + (t.expectedSize.toNat - t.offset.toNat) +
    if t.phase = .requesting then 1 else 0

section Settlement

variable {t : Delivery} {row : ArtifactRow} {answers : Answers} {db : Db}

omit [Sha256] in
/-- Another attempt is less than what was left. -/
theorem Delivery.attempt_lt {phase : DeliveryPhase} (h : ¬ Delivery.exhausted (t.attempts + 1)) :
    2 * (maxResumeAttempts - (t.attempts + 1)) + (t.expectedSize.toNat - t.offset.toNat) +
      (if phase = .requesting then 1 else 0) < t.remaining := by
  have hlt : t.attempts + 1 < maxResumeAttempts := by simpa [Delivery.exhausted] using h
  unfold Delivery.remaining
  split <;> omega

omit [Sha256] in
/-- To ask a Worker uses up a try, or the request is out. -/
-- delivered => | the phase itself counts for one step
theorem Delivery.request_remaining (hphase : t.phase = .requesting) (outcome : SendOutcome) :
    (t.requestWorkerDelivery answers outcome db).1.phase = .done ∨
    (t.requestWorkerDelivery answers outcome db).1.remaining < t.remaining := by
  unfold Delivery.requestWorkerDelivery
  cases outcome with
  | delivered =>
    right
    simp [Delivery.remaining, hphase]
  | offline => exact .inl (Delivery.failDelivery_done ..)
  | backpressured =>
    dsimp only
    split
    · left
      rw [Delivery.send_eq]
      rfl
    · rename_i hmore
      exact .inr (Delivery.attempt_lt hmore)

omit [Sha256] in
/-- To resume uses up a try. -/
theorem Delivery.resume_remaining (message : String) :
    (t.resume answers message db).1.phase = .done ∨
    (t.resume answers message db).1.remaining < t.remaining := by
  unfold Delivery.resume
  dsimp only
  split
  · exact .inl (Delivery.failDelivery_done ..)
  · rename_i hmore
    exact .inr (Delivery.attempt_lt hmore)

omit [Sha256] in
/-- A chunk with bytes leaves fewer of them. -/
theorem Delivery.drainData_remaining (hphase : t.phase = .draining) {bytes : Bytes}
    (hne : bytes ≠ []) :
    (t.drainData answers bytes db).1.phase = .done ∨
    (t.drainData answers bytes db).1.remaining < t.remaining := by
  unfold Delivery.drainData
  split
  · exact .inl (Delivery.failDelivery_done ..)
  rename_i next hnext
  have hnext := checkedAdd_eq_some hnext
  split
  · exact .inl (Delivery.failDelivery_done ..)
  rename_i hsize
  simp only [Bool.or_eq_true, decide_eq_true_eq, not_or] at hsize
  have hle := UInt64.le_iff_toNat_le.1 (UInt64.not_lt.1 hsize.2)
  have hpos := List.length_pos_iff.2 hne
  -- the offset has come further
  have hless : 2 * (maxResumeAttempts - t.attempts) + (t.expectedSize.toNat - next.toNat) +
      (if DeliveryPhase.draining = .requesting then 1 else 0) < t.remaining := by
    rw [Delivery.remaining, hphase]
    simp only [reduceCtorEq, if_false]
    omega
  rw [if_neg (by simpa using hne)]
  dsimp only
  split
  · right
    rw [Delivery.remaining, hphase]
    exact hless
  split
  · exact .inl rfl
  rw [Delivery.send_eq]
  split
  · exact .inl (Delivery.failDelivery_done ..)
  · right
    rw [Delivery.remaining, hphase]
    exact hless

/-- Every answer that a delivery waits for ends it or leaves less to be answered. -/
theorem Delivery.streamWorkerLocal_remaining {event : DeliveryEvent} (hawaits : t.Awaits event) :
    (t.streamWorkerLocal event answers db).1.phase = .done ∨
    (t.streamWorkerLocal event answers db).1.remaining < t.remaining := by
  unfold Delivery.streamWorkerLocal
  cases event with
  | sent outcome =>
    rw [show t.phase = .requesting from hawaits]
    exact Delivery.request_remaining hawaits outcome
  | received chunk =>
    obtain ⟨hphase, hne⟩ := hawaits
    rw [hphase]
    dsimp only
    unfold Delivery.drainWorkerChunk
    split
    · rename_i bytes
      exact Delivery.drainData_remaining hphase (by rintro rfl; exact hne rfl)
    · exact .inl (Delivery.drainComplete_done ..)
    · exact Delivery.resume_remaining _
    · exact .inl (Delivery.failDelivery_done ..)
    · exact Delivery.resume_remaining _
  | silence =>
    rw [show t.phase = .draining from hawaits]
    exact .inl (Delivery.failDelivery_done ..)

/-- A delivery that goes on will settle its Artifact. -/
theorem Delivery.Underway.willSettle (h : t.Underway row) (hphase : t.phase ≠ .done)
    (hrow : fetch db (artifact t.artifactId) = some row) : t.WillSettle t.artifactId db := by
  induction hn : t.remaining using Nat.strong_induction_on generalizing t row db with
  | _ n ih =>
    refine .waits hphase fun event answers db' hawaits hsettles hsame => ?_
    obtain ⟨hid, -, row', hrow', -, hkept⟩ :=
      h.streamWorkerLocal hphase (hsame.trans hrow) hsettles event
    rw [Delivery.Kept] at hkept
    split at hkept
    · rename_i hdone
      exact .settled hdone hrow' hkept.terminal
    · rename_i hgoes
      have hless := (Delivery.streamWorkerLocal_remaining hawaits).resolve_left hgoes
      have := ih _ (hn ▸ hless) hkept hgoes (hid.symm ▸ hrow') rfl
      rwa [hid] at this

end Settlement

/-- No restart interrupts a delivery, no handler ends between its commit and the spawn of its task,
    and the transactions that end a delivery reach the database. -/
def Process.Unbroken : Act → Process → Prop
  | .deliver _ _ answers, _ => answers.settles
  | .abandon id, s => s.acquired id = none
  | .restart, s => ∀ id row, fetch s.db (artifact id) = some row → row.state ≠ .delivering
  | _, _ => True

/-- Every Artifact that is delivering has a task, or one that is about to be spawned. -/
def Process.Attended (s : Process) : Prop :=
  ∀ id row, fetch s.db (artifact id) = some row → row.state = .delivering →
    ∃ t, s.Task id t ∧ t.phase ≠ .done

section Attention

variable {s s' : Process} {id : Uuid}

omit [Sha256] in
/-- What changes at one Artifact only. -/
theorem Process.Attended.update (h : s.Attended) (id : Uuid)
    (hothers : ∀ k, k ≠ artifact id → fetch s'.db k = fetch s.db k)
    (htask : ∀ i t, i ≠ id → s.Task i t → s'.Task i t)
    (hrow : ∀ row, fetch s'.db (artifact id) = some row → row.state = .delivering →
      ∃ t, s'.Task id t ∧ t.phase ≠ .done) : s'.Attended := by
  intro i row hi hdelivering
  by_cases he : i = id
  · subst he
    exact hrow row hi hdelivering
  · obtain ⟨t, ht, hphase⟩ := h i row (by rw [← hothers _ (by simpa using he)]; exact hi) hdelivering
    exact ⟨t, htask i t he ht, hphase⟩

omit [Sha256] in
/-- A delivery that is acquired is attended to. -/
theorem Process.Attended.download [ManifestHash] (h : s.Attended) (isOnline : Uuid → Bool)
    (presigned : Bool) (clock later now : Time) :
    (s.download id isOnline presigned clock later now).Attended := by
  have hensures := downloadForTenant_acquires id isOnline presigned clock later now s.db
  unfold Process.download
  split
  · rename_i row workerId db' hrun
    refine h.update id (hensures.of_run hrun _ rfl).others (fun i t hi ht => ?_) fun _ _ _ =>
      ⟨_, .inr (Function.update_self ..), nofun⟩
    exact ht.imp_right (Function.update_of_ne hi ..).trans
  · rename_i reply db' hnot hrun
    have hacquires := hensures.of_run hrun _ rfl
    obtain ⟨_, -, -, -, hreply⟩ := hacquires.row
    cases reply with
    | stream row' workerId => exact absurd rfl (hnot row' workerId)
    | status code =>
      obtain ⟨row', hrow', -, hconsumed⟩ := hreply
      refine h.update id hacquires.others (fun _ _ _ ht => ht) fun r hr hdelivering => ?_
      -- what was consumed is not delivering
      cases hrow'.symm.trans hr
      cases hconsumed.symm.trans hdelivering
  · exact h

/-- What was acquired is spawned. -/
theorem Process.Attended.spawn (h : s.Attended) (htended : s.Tended) : (s.spawn id).Attended := by
  rw [Process.spawn]
  cases hacquired : s.acquired id with
  | none => exact h
  | some t₀ =>
    refine h.update id (fun _ _ => rfl) (fun i t hi ht => ?_) fun row hrow hdelivering => ?_
    · rcases ht with ht | ht
      · exact .inl ((Function.update_of_ne hi ..).trans ht)
      · exact .inr ((Function.update_of_ne hi ..).trans ht)
    · obtain ⟨t, ht, hphase⟩ := h id row hrow hdelivering
      have hnone := htended.once id t₀ hacquired
      rcases ht with ht | ht
      · exact absurd (ht.symm.trans hnone) (Option.some_ne_none t)
      · obtain rfl := Option.some.inj (hacquired.symm.trans ht)
        exact ⟨t₀, .inl (Function.update_self ..), hphase⟩

/-- An event leaves a delivering row with a task that goes on. -/
theorem Process.Attended.deliver (h : s.Attended) (htended : s.Tended) (event : DeliveryEvent)
    {answers : Answers} (hsettles : answers.settles) : (s.deliver id event answers).Attended := by
  unfold Process.deliver
  split
  · exact h
  rename_i t ht
  obtain ⟨rfl, row, hrow, hout, hkept⟩ := htended.kept id t (.inl ht)
  by_cases hphase : t.phase = .done
  · have hover : t.streamWorkerLocal event answers s.db = (t, s.db) := by
      unfold Delivery.streamWorkerLocal
      rw [hphase]
    rw [hover]
    have hsame : Function.update s.deliveries t.artifactId (some t) = s.deliveries := by
      rw [← ht, Function.update_eq_self]
    dsimp only
    rw [hsame]
    exact h
  · rw [Delivery.Kept, if_neg hphase] at hkept
    obtain ⟨-, hothers, row', hrow', -, hkept'⟩ := hkept.streamWorkerLocal hphase hrow hsettles event
    refine h.update t.artifactId hothers (fun i t' hi ht' => ?_) fun r hr hdelivering =>
      ⟨_, .inl (Function.update_self ..), fun hdone => ?_⟩
    · exact ht'.imp_left (Function.update_of_ne hi ..).trans
    · cases hrow'.symm.trans hr
      unfold Delivery.Kept at hkept'
      -- a task that is over has settled its row
      have hterminal := ((if_pos hdone).mp hkept').terminal
      rw [hdelivering] at hterminal
      cases hterminal

end Attention

/-- Where no restart and no failed or dropped handler interrupts a delivery, every Artifact that is
    delivering has a task that will settle it, or its download has just committed and is about to
    spawn one. -/
theorem deliveries_tended [ManifestHash] {s : Process} (hs : s.ReachesBy Process.Unbroken) {id : Uuid}
    {row : ArtifactRow} (hrow : fetch s.db (artifact id) = some row)
    (hstate : row.state = .delivering) :
    ∃ t, (s.deliveries id = some t ∨ s.acquired id = some t) ∧ t.phase ≠ .done ∧
      t.WillSettle id s.db := by
  have hwrites : ∀ {s : Process}, s.ReachesBy Process.Unbroken →
      s.ReachesBy Process.WritesSucceed := by
    intro s hs
    refine Machine.Reachable.mono ?_ hs
    rintro s _ ⟨a, hallowed, rfl⟩
    refine ⟨a, ?_, rfl⟩
    cases a with
    | deliver id event answers => exact hallowed
    | _ => trivial
  have hattended : s.Attended := by
    refine Machine.Reachable.invariant (I := Process.Attended) ?_ ?_ hs
    · rintro _ ⟨tenantId, rfl⟩ id row hrow
      cases hrow
    · rintro s _ hs h ⟨a, hallowed, rfl⟩
      cases a with
      | transact op =>
        rw [Process.step]
        split
        · exact h
        · rename_i hop
          intro id row hrow hdelivering
          have hbegins :=
            (op.leavesBegun (by simpa using hop) s.db (artifact id)).begins row hrow hdelivering
          exact h id row (hbegins.symm.trans hrow) hdelivering
      | download id isOnline presigned clock later now =>
        exact h.download isOnline presigned clock later now
      | spawn id => exact h.spawn (Process.tended_of_reaches (hwrites hs))
      | abandon id =>
        have hnone : s.acquired id = none := hallowed
        rw [Process.step, Process.abandon, ← hnone, Function.update_eq_self]
        exact h
      | deliver id event answers =>
        exact h.deliver (Process.tended_of_reaches (hwrites hs)) event hallowed
      | restart => exact fun id row hrow hdelivering => absurd hdelivering (hallowed id row hrow)
  obtain ⟨t, ht, hphase⟩ := hattended id row hrow hstate
  obtain ⟨rfl, row', hrow', -, hkept⟩ := (Process.tended_of_reaches (hwrites hs)).kept id t ht
  rw [Delivery.Kept, if_neg hphase] at hkept
  exact ⟨t, ht, hphase, hkept.willSettle hphase hrow'⟩

end Runs

/-- The task of a download that goes on. -/
theorem deliveries_tended_image :
    (fetch (Sample.downloaded []).db (artifact 61)).map ArtifactRow.state = some .delivering ∧
    ∃ t, (Sample.downloaded []).deliveries 61 = some t ∧
      @Delivery.WillSettle Sample.sha256 61 t (Sample.downloaded []).db := by
  let _ := Sample.manifestHash
  let _ := Sample.sha256
  have hstate : (fetch (Sample.downloaded []).db (artifact 61)).map ArtifactRow.state =
      some .delivering := by
    decide +kernel
  obtain ⟨row, hrow, hdelivering⟩ := Option.map_eq_some_iff.1 hstate
  refine ⟨hstate, ?_⟩
  have hreaches : Process.ReachesBy Process.Unbroken (Sample.downloaded []) := by
    refine Sample.reaches_downloaded _ ?_
    exact ⟨trivial, trivial, trivial, trivial, trivial, trivial, trivial, trivial, trivial, trivial,
      trivial⟩
  obtain ⟨t, ht, -, hsettles⟩ := deliveries_tended hreaches hrow hdelivering
  have hspawned : (Sample.downloaded []).acquired 61 = none := by
    have hnone : ((Sample.downloaded []).acquired 61).isNone := by decide +kernel
    exact Option.isNone_iff_eq_none.1 hnone
  exact ⟨t, ht.resolve_right fun hacquired => absurd (hacquired.symm.trans hspawned)
    (Option.some_ne_none t), hsettles⟩

/-- A restart leaves the Artifact delivering, and no task. -/
theorem delivery_stranded :
    let s := Sample.downloaded [.restart]
    @Process.ReachesBy Sample.manifestHash Sample.sha256 Process.WritesSucceed s ∧
    (fetch s.db (artifact 61)).map ArtifactRow.state = some .delivering ∧ s.deliveries 61 = none := by
  refine ⟨Sample.reaches_downloaded _ ?_, by decide +kernel, rfl⟩
  exact ⟨trivial, trivial, trivial, trivial, trivial, trivial, trivial, trivial, trivial, trivial,
    trivial, trivial⟩

end Gpq
