import Gpq.Lifecycle.Refinement

/-!
# Capability reports

What a report does to the database, row by row. First the Worker's Pools that it
does not advertise are deleted, and their Attempts with them (`dropPools`), unless
an accepted result or an Artifact refers to one of these; then every advertised
Pool is inserted or refreshed over its claims (`upsertPool_upsert`).
-/

namespace Gpq

open Function Sql DbKey

namespace Workers

/-- The rows that go when the Pools `D` are deleted. -/
def deletions (db : Db) (D : List Uuid) : List DbKey :=
  D.map devicePool ++ (attemptsOn db D).map attempt ++
    (rejectionsBy db D).map fun e => rejection e.1 e.2

/-- The database without the Pools `D`. -/
def dropPools (db : Db) (D : List Uuid) : Db :=
  applyAll db ((deletions db D).map fun k => ⟨k, none⟩)

section DropPools

variable {db : Db} {D : List Uuid}

theorem mem_attemptsOn {a : Uuid} :
    a ∈ attemptsOn db D ↔ ∃ r, fetch db (attempt a) = some r ∧ r.poolId ∈ D := by
  simp only [attemptsOn, List.mem_map, List.mem_filter, decide_eq_true_eq, Prod.exists,
    exists_and_right, exists_eq_right]
  exact exists_congr fun r => and_congr_left' Table.mem_rows

theorem fetch_dropPools (k : DbKey) :
    fetch (dropPools db D) k = if k ∈ deletions db D then none else fetch db k :=
  fetch_applyAll_deletions db (deletions db D) k

theorem fetch_dropPools_devicePool (p : Uuid) :
    fetch (dropPools db D) (devicePool p) = if p ∈ D then none else fetch db (devicePool p) := by
  simp [fetch_dropPools, deletions]

theorem fetch_dropPools_generation (g : Uuid) :
    fetch (dropPools db D) (generation g) = fetch db (generation g) := by
  simp [fetch_dropPools, deletions]

/-- The Attempts on the other Pools stay. -/
theorem fetch_dropPools_attempt (a : Uuid) : fetch (dropPools db D) (attempt a) =
    (fetch db (attempt a)).filter fun r => r.poolId ∉ D := by
  have hmem : attempt a ∈ deletions db D ↔ a ∈ attemptsOn db D := by simp [deletions]
  rw [fetch_dropPools]
  cases hr : fetch db (attempt a) with
  | none => simp
  | some r =>
    by_cases hD : r.poolId ∈ D
    · rw [if_pos (hmem.2 (mem_attemptsOn.2 ⟨r, hr, hD⟩)), Option.filter_some, if_neg (by simpa)]
    · have hnot : a ∉ attemptsOn db D := by
        rw [mem_attemptsOn, hr]
        rintro ⟨r', hr', hD'⟩
        exact hD (Option.some_inj.1 hr' ▸ hD')
      rw [if_neg (mt hmem.1 hnot), Option.filter_some, if_pos (by simpa)]

/-- So do the rejections by other Pools. -/
theorem fetch_dropPools_rejection (g p : Uuid) : fetch (dropPools db D) (rejection g p) =
    if p ∈ D then none else fetch db (rejection g p) := by
  have hmem : rejection g p ∈ deletions db D ↔ (g, p) ∈ rejectionsBy db D := by simp [deletions]
  rw [fetch_dropPools]
  by_cases hD : p ∈ D
  · rw [if_pos hD]
    split
    · rfl
    rename_i hnot
    -- a rejection by a deleted Pool that is not deleted was not there
    have hall := mt hmem.2 hnot
    simp only [rejectionsBy, List.mem_filter, List.mem_map, decide_eq_true_eq, Prod.exists] at hall
    rw [Option.eq_none_iff_forall_ne_some]
    intro u hu
    exact hall ⟨⟨g, p, u, Table.mem_rows.2 hu, rfl⟩, hD⟩
  · have hnot : (g, p) ∉ rejectionsBy db D := fun h => hD (by simpa using (List.mem_filter.1 h).2)
    rw [if_neg hD, if_neg (mt hmem.1 hnot)]

/-- What the lifecycle sees of a deletion. -/
theorem life_dropPools : life (dropPools db D) = { life db with
    att := fun a => ((life db).att a).filter fun r => r.pool ∉ D
    pool := fun p => if p ∈ D then none else (life db).pool p
    rejected := fun g p => (life db).rejected g p ∧ p ∉ D } := by
  ext1
  · funext g
    simp [life, fetch_dropPools_generation]
  · funext a
    simp only [life, fetch_dropPools_attempt]
    cases fetch db (attempt a) with
    | none => rfl
    | some r => by_cases hD : r.poolId ∈ D <;> simp [Option.filter_some, hD]
  · funext p
    by_cases hD : p ∈ D <;> simp [life, fetch_dropPools_devicePool, hD]
  · funext g p
    by_cases hD : p ∈ D <;> simp [life, fetch_dropPools_rejection, hD]

/-- A deletion that the schema accepts is a drop of the lifecycle. -/
theorem dropPools_drop (href : attemptsReferenced db (attemptsOn db D) = false) :
    Life.Drop D (life db) (life (dropPools db D)) := by
  rw [life_dropPools]
  refine .mk fun g r a s hg ha hs hD => ?_
  obtain ⟨g', hg', rfl⟩ := Option.map_eq_some_iff.1 hg
  obtain ⟨s', hs', rfl⟩ := Option.map_eq_some_iff.1 hs
  have hon : a ∈ attemptsOn db D := mem_attemptsOn.2 ⟨s', hs', hD⟩
  have hacc : g'.acceptedAttemptId = some a := ha
  exact (attemptsReferenced_eq_false_iff.1 href).1 g g' hg' a hacc hon

end DropPools

/-- What a report's first statement leaves: the database without the unadvertised
    Pools of the Worker. -/
theorem deleteUnadvertised_ensures {db : Db} (w : Uuid) (keys : List String) :
    (Prog.exec (deleteUnadvertised w keys)).Ensures ⊤ (fun _ db' =>
      attemptsReferenced db (attemptsOn db (unadvertised db w keys)) = false ∧
        db' = dropPools db (unadvertised db w keys)) db := by
  refine Prog.ensures_require fun _ => Prog.ensures_write fun _ ws hws => ⟨fun _ => trivial, ?_⟩
  dsimp only at hws
  split at hws
  · cases hws
  rename_i href
  cases hws
  refine ⟨by simpa using href, ?_⟩
  simp only [dropPools, deletions, List.map_append, List.map_map]
  rfl

/-- A row built from an advertisement keeps the Pool's claims. -/
theorem PoolUpsert.toRow_eq_ok {p : PoolUpsert} {w : Uuid} {claimed : ℕ} {r : DevicePoolRow}
    (h : p.toRow w claimed = .ok r) :
    r.life = ⟨(w, p.poolKey), p.storedTotal, claimed⟩ ∧ claimed ≤ p.storedTotal ∧
      p.accelerator.length ≤ 64 := by
  rw [toRow] at h
  split at h
  · rename_i hle
    cases h
    exact ⟨rfl, hle⟩
  · cases h

/-- The Worker's Pool under a key. -/
def poolOf (db : Db) (w : Uuid) (key : String) : Option (Uuid × DevicePoolRow) :=
  db.devicePools.rows.find? fun e => e.2.workerId = w && e.2.poolKey = key

theorem fetch_of_poolOf {db : Db} {w q : Uuid} {key : String} {r : DevicePoolRow}
    (h : poolOf db w key = some (q, r)) : fetch db (devicePool q) = some r :=
  Table.mem_rows.1 (List.mem_of_find?_eq_some h)

theorem name_of_poolOf {db : Db} {w q : Uuid} {key : String} {r : DevicePoolRow}
    (h : poolOf db w key = some (q, r)) : r.workerId = w ∧ r.poolKey = key := by
  simpa using List.find?_some h

theorem poolOf_eq_none {db : Db} {w : Uuid} {key : String} : poolOf db w key = none ↔
    ∀ q r, fetch db (devicePool q) = some r → r.workerId = w → r.poolKey ≠ key := by
  simp only [poolOf, List.find?_eq_none, Prod.forall, Table.mem_rows, Bool.and_eq_true,
    decide_eq_true_eq, not_and]
  rfl

/-- An advertised Pool is refreshed over its claims, or inserted without any. -/
theorem upsertPool_ensures {db : Db} (w id : Uuid) (p : PoolUpsert) :
    (Prog.exec (upsertPool w id p)).Ensures ⊤ (fun _ db' => ∃ q claimed r',
      p.toRow w claimed = .ok r' ∧ db' = store db (devicePool q) (some r') ∧
      ((∃ r, poolOf db w p.poolKey = some (q, r) ∧ claimed = r.claimedSlots) ∨
        (poolOf db w p.poolKey = none ∧ q = id ∧ claimed = 0 ∧
          fetch db (devicePool id) = none))) db := by
  refine Prog.ensures_require fun _ => Prog.ensures_write fun _ ws hws => ⟨fun _ => trivial, ?_⟩
  split at hws
  · rename_i q r hfind
    cases hrow : p.toRow w r.claimedSlots with
    | error e => simp [hrow, bind, Except.bind] at hws
    | ok r' =>
      rw [hrow] at hws
      cases hws
      exact ⟨q, _, r', hrow, rfl, .inl ⟨r, hfind, rfl⟩⟩
  · rename_i hfind
    cases hrow : p.toRow w 0 with
    | error e => simp [hrow, bind, Except.bind] at hws
    | ok r' =>
      simp only [hrow, bind, Except.bind, throw, throwThe, MonadExceptOf.throw, pure,
        Except.pure] at hws
      split at hws
      · cases hws
      rename_i hnew
      split at hws
      · cases hws
      cases hws
      exact ⟨id, 0, r', hrow, rfl, .inr ⟨hfind, rfl, rfl, by simpa using hnew⟩⟩

/-- A Pool that is written keeps its claims where it was there, and has none where it is new. -/
theorem upsertPool_upsert {db : Db} (w id : Uuid) (p : PoolUpsert) :
    (Prog.exec (upsertPool w id p)).Ensures ⊤ (fun _ db' => Life.Upsert (life db) (life db') ∧
      (∀ k, (∀ q, k ≠ devicePool q) → fetch db' k = fetch db k) ∧
      ∀ q, q ≠ id → fetch db (devicePool q) = none → fetch db' (devicePool q) = none) db := by
  refine (upsertPool_ensures w id p).mono ?_
  rintro _ _ ⟨q, claimed, r', hrow, rfl, hq⟩
  refine ⟨?_, fun k hk => Db.fetch_store_ne db _ (hk q), fun q' hne hnone => ?_⟩
  -- other Pools that are not there stay so
  rotate_left
  · have hqq : q' ≠ q := by
      rintro rfl
      rcases hq with ⟨r, hr, -⟩ | ⟨-, rfl, -, -⟩
      · rw [fetch_of_poolOf hr] at hnone
        cases hnone
      · exact hne rfl
    rw [Db.fetch_store_ne db _ (by simpa using hqq)]
    exact hnone
  obtain ⟨hlife, hle, -⟩ := PoolUpsert.toRow_eq_ok hrow
  rw [life_store_devicePool]
  refine .mk q r'.life (by simpa [hlife] using hle) (fun hnone => ?_) fun q₀ hq₀ => ?_
  all_goals rw [hlife]
  · rcases hq with ⟨r, hr, rfl⟩ | ⟨hnew, -, rfl, -⟩
    · rw [life_pool_of_fetch (fetch_of_poolOf hr)] at hnone
      cases hnone
    · refine ⟨rfl, fun p' q' hq' hname => ?_⟩
      obtain ⟨r, hr, rfl⟩ := Option.map_eq_some_iff.1 hq'
      obtain ⟨hw, hkey⟩ := Prod.mk.inj hname
      exact poolOf_eq_none.1 hnew p' r hr hw hkey
  · rcases hq with ⟨r, hr, rfl⟩ | ⟨-, rfl, -, hnew⟩
    · rw [life_pool_of_fetch (fetch_of_poolOf hr), Option.some_inj] at hq₀
      obtain ⟨hw, hkey⟩ := name_of_poolOf hr
      rw [← hq₀, ← hw, ← hkey]
      exact ⟨rfl, rfl⟩
    · simp [life, hnew] at hq₀

/-- A whole report, as the lifecycle sees it and as the other tables do. -/
theorem upsertPools_ensures {db : Db} (w : Uuid) (pools : List (Uuid × PoolUpsert)) :
    (upsertPools w pools).Ensures ⊤ (fun _ db' =>
      let D := unadvertised db w (pools.map fun p => p.2.poolKey)
      attemptsReferenced db (attemptsOn db D) = false ∧
        Relation.ReflTransGen Life.Upsert (life (dropPools db D)) (life db') ∧
        (∀ k, (∀ q, k ≠ devicePool q) → fetch db' k = fetch (dropPools db D) k) ∧
        ∀ q, q ∉ pools.map Prod.fst → fetch (dropPools db D) (devicePool q) = none →
          fetch db' (devicePool q) = none) db := by
  refine Prog.ensures_bind ((deleteUnadvertised_ensures w _).mono ?_)
  rintro _ _ ⟨href, rfl⟩
  refine Prog.ensures_bind ((Prog.ensures_forEach (fun p hp db₁ h => ?_)
    ⟨.refl, fun _ _ => rfl, fun _ _ h => h⟩).mono fun _ _ h => ⟨href, h⟩)
  refine (upsertPool_upsert w p.1 p.2).mono fun _ db₂ h₂ => ?_
  refine ⟨h.1.tail h₂.1, fun k hk => (h₂.2.1 k hk).trans (h.2.1 k hk), fun q hq hnone => ?_⟩
  exact h₂.2.2 q (fun he => hq (he ▸ List.mem_map_of_mem hp)) (h.2.2 q hq hnone)

end Workers

/-- The registration of model versions touches no other table. -/
theorem registerModelVersions_ensures {db : Db} (versions : List (ContentHash × ModelManifest)) :
    (registerModelVersions versions).Ensures ⊤
      (fun _ db' => ∃ modelVersions, db' = { db with modelVersions }) db := by
  refine Prog.ensures_bind ((Prog.ensures_forEach (fun v _ db₁ h => ?_) ⟨_, rfl⟩).mono
    fun _ _ h => h)
  obtain ⟨mv, rfl⟩ := h
  refine Prog.ensures_write fun _ ws hws => ⟨fun _ => trivial, ?_⟩
  split at hws
  · cases hws
    exact ⟨mv, rfl⟩
  · cases hws
    exact ⟨_, rfl⟩

variable [ManifestHash]

/-- The Pools of a report that are stored, with the identifiers they get if they
    are new. -/
def keptPools (pools : List (Uuid × PoolAdvertisement)) : List (Uuid × Workers.PoolUpsert) :=
  (pools.filterMap fun p => (poolUpsertFromProto p.2).map fun u => (p.1, u)).map fun p =>
    (p.1, p.2.1)

/-- A stored Pool comes from an advertised one. -/
theorem mem_of_mem_keptPools {pools : List (Uuid × PoolAdvertisement)} {p : Uuid}
    (h : p ∈ (keptPools pools).map Prod.fst) : p ∈ pools.map Prod.fst := by
  simp only [keptPools, List.map_map, List.mem_map, List.mem_filterMap, Option.map_eq_some_iff] at h
  obtain ⟨_, ⟨e, he, u, -, rfl⟩, rfl⟩ := h
  exact List.mem_map_of_mem he

/-- The Worker's Pools that a report no longer advertises. -/
def droppedPools (db : Db) (w : Uuid) (pools : List (Uuid × PoolAdvertisement)) : List Uuid :=
  Workers.unadvertised db w ((keptPools pools).map fun p => p.2.poolKey)

/-- What a report leaves where it commits: the Worker's unadvertised Pools are
    dropped, with their Attempts, and the advertised ones are refreshed. -/
structure Reported (db : Db) (w : Uuid) (pools : List (Uuid × PoolAdvertisement)) (db' : Db) :
    Prop where
  drop : Life.Drop (droppedPools db w pools) (life db)
    (life (Workers.dropPools db (droppedPools db w pools)))
  refresh : Relation.ReflTransGen Life.Upsert
    (life (Workers.dropPools db (droppedPools db w pools))) (life db')
  attempts : ∀ a, fetch db' (attempt a) =
    (fetch db (attempt a)).filter fun r => r.poolId ∉ droppedPools db w pools
  generations : ∀ g, fetch db' (generation g) = fetch db (generation g)
  /-- A Pool that is new has an identifier that was drawn for it. -/
  drawn : ∀ p, p ∉ pools.map Prod.fst →
    fetch (Workers.dropPools db (droppedPools db w pools)) (devicePool p) = none →
    fetch db' (devicePool p) = none

/-- A report changes no Generation. -/
theorem Reported.gen_eq {db db' : Db} {w : Uuid} {pools : List (Uuid × PoolAdvertisement)}
    (h : Reported db w pools db') : (life db').gen = (life db).gen := by
  funext g
  exact congrArg (Option.map GenerationRow.life) (h.generations g)

/-- A capability report that commits drops the Pools that it does not name. -/
theorem capabilityReport_ensures {db : Db} (w : AuthenticatedWorker)
    (pools : List (Uuid × PoolAdvertisement)) :
    (tryHandleCapabilityReport w pools).Ensures ⊤ (fun v db' => ∀ u, v = .commit u →
      Reported db w.workerId pools db') db := by
  refine authenticated_ensures nofun fun _ => ?_
  refine Prog.ensures_bind ((registerModelVersions_ensures _).mono ?_)
  rintro _ _ ⟨mv, rfl⟩
  refine Prog.ensures_bind ((Workers.upsertPools_ensures w.workerId _).mono ?_)
  rintro _ db' ⟨href, hpath, hframe, hdrawn⟩ _ _
  refine ⟨Workers.dropPools_drop href, ?_, fun a => ?_, fun g => ?_, fun p hp hnone => ?_⟩
  · rw [Workers.life_dropPools] at hpath ⊢
    exact hpath
  · rw [hframe (attempt a) nofun, Workers.fetch_dropPools_attempt]
    rfl
  · rw [hframe (generation g) nofun, Workers.fetch_dropPools_generation]
    rfl
  · rw [Workers.fetch_dropPools_devicePool] at hnone
    exact hdrawn p (mt mem_of_mem_keptPools hp)
      (by rw [Workers.fetch_dropPools_devicePool]; exact hnone)

/-- What a capability report leaves, committed or not. -/
theorem capabilityReport_apply {db : Db} (w : AuthenticatedWorker)
    (pools : List (Uuid × PoolAdvertisement)) :
    let db' := (Op.capabilityReport w pools).apply db
    db' = db ∨ Reported db w.workerId pools db' :=
  Prog.Ensures.commit (P := fun db' => db' = db ∨ Reported db w.workerId pools db')
    ((capabilityReport_ensures w pools).mono fun _ _ h u hu => .inr (h u hu)) (.inl rfl)

/-! ## Operations -/

/-- What an operation does to the lifecycle. -/
inductive Op.Effect (op : Op) (db : Db) : Prop
  /-- Core steps, or nothing. -/
  | core (h : Relation.ReflTransGen Life.Core (life db) (life (op.apply db)))
  /-- A late acknowledgement by a Worker with a current credential. -/
  | late (w : AuthenticatedWorker) (a : Uuid) (now : Time) (hop : op = .cancelAcknowledged w a now)
      (hcur : w.isCurrent db) (r : AttemptRow) (hr : fetch db (attempt a) = some r)
      (hw : r.workerId = w.workerId) (h : Life.AckLate a (life db) (life (op.apply db)))
  /-- A report that commits. -/
  | report (w : AuthenticatedWorker) (pools : List (Uuid × PoolAdvertisement))
      (hop : op = .capabilityReport w pools) (h : Reported db w.workerId pools (op.apply db))

/-- An operation is a path of the lifecycle's steps, a late acknowledgement, or a report. -/
theorem Op.effect (op : Op) (db : Db) : op.Effect db := by
  by_cases hcore : op.isCore
  · exact .core (op.core hcore db)
  · cases op with
    | cancelAcknowledged w a now =>
      rcases cancelAcknowledged_life w a now db with he | ⟨hcur, he | hc | ⟨r, hr, hw, hlate⟩⟩
      · exact .core (he.symm ▸ .refl)
      · exact .core (he.symm ▸ .refl)
      · exact .core (.single hc)
      · exact .late w a now rfl hcur r hr hw hlate
    | capabilityReport w pools =>
      rcases capabilityReport_apply w pools with he | hrep
      · exact .core (he.symm ▸ .refl)
      · exact .report w pools rfl hrep
    | _ => exact absurd rfl hcore

end Gpq
