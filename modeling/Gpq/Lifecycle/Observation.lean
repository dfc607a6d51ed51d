import Gpq.Lib.Hoare
import Gpq.Lifecycle.Abstract
import Gpq.Remote.System

/-!
# What the lifecycle sees of the database

`life db` forgets every column that no lifecycle step reads or writes. A body
`Moves` the lifecycle by given steps, and a transaction `Transacts` by them where
it commits; both compose (`Moves.bind`, `Transacts.bind`, `Moves.forEach`).

Most statements are not seen at all: they write other tables, or columns that
`life` forgets. They are collected in the last section.
-/

namespace Gpq

open Function Sql DbKey

/-- What the lifecycle sees of a Generation. -/
def GenerationRow.life (r : GenerationRow) : GenLife Uuid :=
  ⟨r.state, r.acceptedAttemptId, r.attemptCount⟩

/-- What the lifecycle sees of an Attempt. -/
def AttemptRow.life (r : AttemptRow) : AttLife Uuid Uuid :=
  ⟨r.generationId, r.poolId, r.state, r.attemptNumber, r.failureKind = some .outOfMemory⟩

/-- What the lifecycle sees of a Pool. -/
def DevicePoolRow.life (r : DevicePoolRow) : PoolLife (Uuid × String) :=
  ⟨(r.workerId, r.poolKey), r.totalSlots, r.claimedSlots⟩

/-- The lifecycle of the Remote's rows; a Pool is named by its Worker and its key. -/
abbrev DbLife := Life Uuid Uuid Uuid (Uuid × String)

/-- What the lifecycle sees of the database. -/
def life (db : Db) : DbLife where
  gen g := (fetch db (generation g)).map GenerationRow.life
  att a := (fetch db (attempt a)).map AttemptRow.life
  pool p := (fetch db (devicePool p)).map DevicePoolRow.life
  rejected g p := (fetch db (rejection g p)).isSome

@[simp] theorem GenerationRow.life_state (r : GenerationRow) : r.life.state = r.state := rfl

@[simp] theorem GenerationRow.life_accepted (r : GenerationRow) :
    r.life.accepted = r.acceptedAttemptId := rfl

@[simp] theorem AttemptRow.life_generation
    (r : AttemptRow) : r.life.generation = r.generationId := rfl

@[simp] theorem AttemptRow.life_pool (r : AttemptRow) : r.life.pool = r.poolId := rfl

@[simp] theorem AttemptRow.life_state (r : AttemptRow) : r.life.state = r.state := rfl

section Reads

variable {db : Db}

theorem life_gen_of_fetch {g : Uuid} {r : GenerationRow} (h : fetch db (generation g) = some r) :
    (life db).gen g = some r.life := by
  simp [life, h]

theorem life_att_of_fetch {a : Uuid} {r : AttemptRow} (h : fetch db (attempt a) = some r) :
    (life db).att a = some r.life := by
  simp [life, h]

/-- The Pools that the lifecycle excludes are those that the query finds. -/
theorem excluded_life_iff {g p : Uuid} :
    (life db).Excluded g p ↔ p ∈ NativeExclusions.excluded db g := by
  rw [Life.Excluded, NativeExclusions.mem_excluded_iff, or_comm]
  refine or_congr ?_ Iff.rfl
  simp only [life, Option.map_eq_some_iff]
  constructor
  · rintro ⟨a, _, ⟨r, hr, rfl⟩, hg, hp, hx⟩
    exact ⟨a, r, hr, hg, hp, of_decide_eq_true hx⟩
  · rintro ⟨a, r, hr, hg, hp, hx⟩
    exact ⟨a, r.life, ⟨r, hr, rfl⟩, hg, hp, decide_eq_true hx⟩

theorem life_pool_of_fetch {p : Uuid} {r : DevicePoolRow} (h : fetch db (devicePool p) = some r) :
    (life db).pool p = some r.life := by
  simp [life, h]

end Reads

/-! ## Writes -/

section Writes

variable {db : Db} {l : DbLife}

@[simp] theorem life_store_generation (g : Uuid) (r : Option GenerationRow) :
    life (store db (generation g) r) =
      { life db with gen := update (life db).gen g (r.map GenerationRow.life) } := by
  ext1
  · funext g'
    by_cases h : g' = g
    · subst h
      simp [life]
    · simp [life, h]
  · simp [life]
  · simp [life]
  · simp [life]

@[simp] theorem life_store_attempt (a : Uuid) (r : Option AttemptRow) :
    life (store db (attempt a) r) =
      { life db with att := update (life db).att a (r.map AttemptRow.life) } := by
  ext1
  · simp [life]
  · funext a'
    by_cases h : a' = a
    · subst h
      simp [life]
    · simp [life, h]
  · simp [life]
  · simp [life]

@[simp] theorem life_store_devicePool (p : Uuid) (r : Option DevicePoolRow) :
    life (store db (devicePool p) r) =
      { life db with pool := update (life db).pool p (r.map DevicePoolRow.life) } := by
  ext1
  · simp [life]
  · simp [life]
  · funext p'
    by_cases h : p' = p
    · subst h
      simp [life]
    · simp [life, h]
  · simp [life]

/-- The record of a rejection. -/
@[simp] theorem life_store_rejection (g p : Uuid) :
    life (store db (rejection g p) (some ())) = { life db with
      rejected := fun g' p' => (life db).rejected g' p' ∨ g' = g ∧ p' = p } := by
  ext1
  · simp [life]
  · simp [life]
  · simp [life]
  · funext g' p'
    by_cases h : g' = g ∧ p' = p
    · obtain ⟨rfl, rfl⟩ := h
      simp [life]
    · have hne : rejection g' p' ≠ rejection g p := by simpa using h
      simp [life, h, hne]

/-- Whether the lifecycle looks at the rows of a table. -/
def Observed : DbKey → Bool
  | generation _ | attempt _ | devicePool _ | rejection .. => true
  | _ => false

theorem life_att_congr {db' : Db} {a : Uuid} (h : fetch db' (attempt a) = fetch db (attempt a)) :
    (life db').att a = (life db).att a := congrArg (Option.map AttemptRow.life) h

theorem life_rejected_congr {db' : Db} {g p : Uuid}
    (h : fetch db' (rejection g p) = fetch db (rejection g p)) :
    (life db').rejected g p = (life db).rejected g p := by
  simp only [life, h]

/-- The lifecycle sees nothing of other rows. -/
theorem life_store_of_not_observed {k : DbKey} (h : Observed k = false) (r : Option (Db.Row k)) :
    life (store db k r) = life db := by
  cases k with
  | generation g => cases h
  | attempt a => cases h
  | devicePool p => cases h
  | rejection g p => cases h
  | _ => simp [life]

/-- Writes that each leave the lifecycle alone. -/
theorem life_applyAll {ws : List (Write Db)} (hdb : life db = l)
    (h : ∀ w ∈ ws, ∀ db, life db = l → life (store db w.1 w.2) = l) :
    life (applyAll db ws) = l := by
  induction ws generalizing db with
  | nil => exact hdb
  | cons w ws ih =>
    rw [applyAll_cons]
    exact ih (h w List.mem_cons_self db hdb) fun v hv => h v (List.mem_cons_of_mem _ hv)

/-- Writes to tables that the lifecycle does not look at. -/
theorem life_applyAll_of_not_observed {ws : List (Write Db)}
    (h : ∀ w ∈ ws, Observed w.1 = false) : life (applyAll db ws) = life db :=
  life_applyAll rfl fun w hw _ hdb => (life_store_of_not_observed (h w hw) w.2).trans hdb

end Writes

/-! ## Bodies -/

/-- The body moves the lifecycle by steps of `S`. -/
def Moves {α : Type} (S : DbLife → DbLife → Prop) (p : Body α) : Prop :=
  ∀ db, p.Ensures ⊤ (fun _ db' => Relation.ReflTransGen S (life db) (life db')) db

/-- The body moves the lifecycle by steps of `S` where it commits. -/
def Transacts {α : Type} (S : DbLife → DbLife → Prop)
    (p : Body (Verdict α)) : Prop :=
  ∀ db, p.Ensures ⊤ (fun v db' => ∀ a, v = .commit a →
    Relation.ReflTransGen S (life db) (life db')) db

section Bodies

variable {α β ι : Type} {S : DbLife → DbLife → Prop}

/-- A body that leaves the lifecycle alone. -/
theorem Moves.of_quiet {p : Body α} (h : ∀ db, p.Ensures ⊤ (fun _ db' => life db' = life db) db) :
    Moves S p :=
  fun db => (h db).mono fun _ _ hl => hl ▸ .refl

theorem Moves.done (a : α) : Moves S (.done a) := fun _ => .refl

theorem Moves.bind {p : Body α} {f : α → Body β} (hp : Moves S p) (hf : ∀ a, Moves S (f a)) :
    Moves S (p.bind f) := by
  intro db
  refine Prog.ensures_bind ((hp db).mono fun a db' h => ?_)
  exact (hf a db').mono fun _ _ h' => h.trans h'

theorem Moves.forEach {f : ι → Body α} (hf : ∀ i, Moves S (f i)) (is : List ι) :
    Moves S (Prog.forEach f is) := by
  intro db
  refine Prog.ensures_forEach (fun i _ db' h => ?_) .refl
  exact (hf i db').mono fun _ _ h' => h.trans h'

/-- A statement that only reads. -/
theorem Moves.read (f : Db → α) : Moves S (.exec (.read f)) := fun _ => Prog.ensures_read .refl

theorem Transacts.rollback (a : α) : Transacts S (.done (.rollback a)) := fun _ => nofun

theorem Transacts.commit (a : α) : Transacts S (.done (.commit a)) := fun _ _ _ => .refl

theorem Transacts.bind {p : Body α} {f : α → Body (Verdict β)} (hp : Moves S p)
    (hf : ∀ a, Transacts S (f a)) : Transacts S (p.bind f) := by
  intro db
  refine Prog.ensures_bind ((hp db).mono fun a db' h => ?_)
  exact (hf a db').mono fun _ _ h' b hb => h.trans (h' b hb)

theorem Transacts.committed {p : Body α} (hp : Moves S p) : Transacts S (committed p) :=
  .bind hp fun a => .commit a

/-- What a transaction leaves behind is reached by steps of `S`. -/
theorem Transacts.path {p : Body (Verdict α)} (h : Transacts S p) (db : Db) :
    Relation.ReflTransGen S (life db) (life (p.commit db)) :=
  (h db).commit .refl

end Bodies

/-! ## Slots -/

/-- The database after a Slot of a Pool is released. -/
def releasedSlot (db : Db) (p : Uuid) : Db :=
  match fetch db (devicePool p) with
  | some r => store db (devicePool p) (some r.release)
  | none => db

section Slots

variable {db : Db}

@[simp] theorem life_releasedSlot (p : Uuid) :
    life (releasedSlot db p) = { life db with pool := (life db).released p } := by
  rw [releasedSlot, Life.released]
  cases h : fetch db (devicePool p) with
  | none =>
    have hp : (life db).pool p = none := by simp [life, h]
    have hself : update (life db).pool p none = (life db).pool := update_eq_self_iff.2 hp.symm
    simp only [hp, Option.map_none, hself]
  | some r =>
    have hp : (life db).pool p = some r.life := by simp [life, h]
    rw [life_store_devicePool, hp]
    rfl

/-- Only the row of its Pool changes when a Slot is released. -/
theorem fetch_releasedSlot (p : Uuid) {k : DbKey} (hk : k ≠ devicePool p) :
    fetch (releasedSlot db p) k = fetch db k := by
  rw [releasedSlot]
  split
  · simp [hk]
  · rfl

@[simp] theorem fetch_releasedSlot_generation (p g : Uuid) :
    fetch (releasedSlot db p) (generation g) = fetch db (generation g) := fetch_releasedSlot p nofun

@[simp] theorem fetch_releasedSlot_attempt (p a : Uuid) :
    fetch (releasedSlot db p) (attempt a) = fetch db (attempt a) := fetch_releasedSlot p nofun

/-- A Slot is released where its Pool is still there. -/
theorem releaseSlot_ensures {R : Db → Db → Prop} (p : Uuid)
    (hR : ∀ r, fetch db (devicePool p) = some r → R db (store db (devicePool p) (some r.release))) :
    (Workers.releaseSlot p).Ensures R (fun _ db' => db' = releasedSlot db p) db := by
  refine Prog.ensures_update (fun r hr _ => ⟨hR r hr, ?_⟩) fun hnone => ?_
  · exact Prog.ensures_done (by rw [releasedSlot, hr])
  · have hp : fetch db (devicePool p) = none :=
      Option.eq_none_iff_forall_ne_some.2 (by simpa using hnone)
    exact Prog.ensures_done (by rw [releasedSlot, hp])

theorem releaseSlot_yields (p : Uuid) :
    (Workers.releaseSlot p).Yields (fun _ db' => db' = releasedSlot db p) db := by
  cases hp : fetch db (devicePool p) with
  | none => exact Prog.yields_update_none (by rw [hp]; rfl) (Prog.yields_done
    (by rw [releasedSlot, hp]))
  | some r => exact Prog.yields_update hp rfl (Prog.yields_done (by rw [releasedSlot, hp]))

end Slots

/-! ## Statements that the lifecycle does not see -/

section Quiet

variable {α : Type} {S : DbLife → DbLife → Prop}

theorem Moves.require {ok : Bool} {e : DbError} {q : Statement α} (h : Moves S (.exec q)) :
    Moves S (.exec (.require ok e q)) :=
  fun db => Prog.ensures_require fun _ => h db

theorem Moves.labelled {m : Mark} {q : Statement α} (h : Moves S (.exec q)) :
    Moves S (.exec (@Stmt.labelled Db _ _ m q)) :=
  fun db => Prog.ensures_labelled (h db)

/-- An update that leaves what the lifecycle sees of the row. -/
theorem Moves.update {k : DbKey} {guard : Db.Row k → Bool} {f : Db.Row k → Db.Row k}
    (h : ∀ db r, fetch db k = some r → life (store db k (some (f r))) = life db) :
    Moves S (.exec (.update k guard f)) := by
  refine .of_quiet fun db => Prog.ensures_update (fun r hr _ => ⟨trivial, h db r hr⟩) fun _ => ?_
  exact Prog.ensures_done rfl

/-- An update of a table that the lifecycle does not look at. -/
theorem Moves.update_of_not_observed {k : DbKey} {guard : Db.Row k → Bool} {f : Db.Row k → Db.Row k}
    (hk : Observed k = false) : Moves S (.exec (.update k guard f)) :=
  .update fun _ _ _ => life_store_of_not_observed hk _

/-- Writes to tables that the lifecycle does not look at. -/
theorem Moves.write {f : Db → Except DbError (α × List (Write Db))}
    (h : ∀ db b ws, f db = .ok (b, ws) → ∀ w ∈ ws, Observed w.1 = false) :
    Moves S (.exec (.write f)) := by
  refine .of_quiet fun db => Prog.ensures_write fun b ws hws => ⟨fun _ => trivial, ?_⟩
  exact life_applyAll_of_not_observed (h db b ws hws)

/-- A Generation whose lifecycle columns stay. -/
theorem life_store_generation_same {db : Db} {g : Uuid} {r r' : GenerationRow}
    (hr : fetch db (generation g) = some r) (h : r'.life = r.life) :
    life (store db (generation g) (some r')) = life db := by
  have hself : update (life db).gen g (some r.life) = (life db).gen :=
    update_eq_self_iff.2 (life_gen_of_fetch hr).symm
  rw [life_store_generation, Option.map_some, h, hself]

/-- An Attempt whose lifecycle columns stay. -/
theorem life_store_attempt_same {db : Db} {a : Uuid} {r r' : AttemptRow}
    (hr : (life db).att a = some r.life) (h : r'.life = r.life) :
    life (store db (attempt a) (some r')) = life db := by
  have hself : update (life db).att a (some r.life) = (life db).att := update_eq_self_iff.2 hr.symm
  rw [life_store_attempt, Option.map_some, h, hself]

theorem recordProgress_moves (id : Uuid) (progress : ProgressSnapshot) :
    Moves S (Generations.recordProgress id progress) :=
  .require (.update fun _ _ hr => life_store_generation_same hr rfl)

theorem requestCancel_moves (id : Uuid) (now : Time) : Moves S (Attempts.requestCancel id now) :=
  .update fun _ _ hr => life_store_attempt_same (life_att_of_fetch hr) rfl

/-- The lifecycle sees nothing of a heartbeat. -/
theorem heartbeat_moves (w : Uuid) (ids : List Uuid) (now clock : Time) :
    Moves S (Attempts.heartbeat w ids now clock) := by
  unfold Attempts.heartbeat
  split
  · exact .done _
  refine .of_quiet fun db => Prog.ensures_write fun _ ws hws => ⟨fun _ => trivial, ?_⟩
  cases hws
  refine life_applyAll rfl fun v hv db' hdb' => ?_
  obtain ⟨e, he, rfl⟩ := List.mem_map.1 hv
  -- the row is rewritten with a later expiry; what the lifecycle sees of it is in `db`
  have hrow : fetch db (attempt e.1) = some e.2 := Table.mem_rows.1 (List.mem_of_mem_filter he)
  have hseen : (life db').att e.1 = some e.2.life := by rw [hdb', life_att_of_fetch hrow]
  rw [← hdb']
  exact life_store_attempt_same hseen rfl

/-- The deletion of inputs is not seen by the lifecycle. -/
theorem deleteInputsForGeneration_ensures {db : Db} (id : Uuid) :
    (Artifacts.deleteInputsForGeneration id).Ensures ⊤ (fun _ db' => life db' = life db) db := by
  refine Prog.ensures_write fun _ ws hws => ⟨fun _ => trivial, ?_⟩
  cases hws
  refine life_applyAll_of_not_observed fun v hv => ?_
  obtain ⟨e, -, rfl⟩ := List.mem_map.1 hv
  rfl

theorem deleteInputsForGeneration_moves (id : Uuid) :
    Moves S (Artifacts.deleteInputsForGeneration id) :=
  .of_quiet fun _ => deleteInputsForGeneration_ensures id

theorem deleteInputsOnFail_moves (out : Option (Uuid × RetryDecision)) :
    Moves S (deleteInputsOnFail out) := by
  unfold deleteInputsOnFail
  split
  · exact deleteInputsForGeneration_moves _
  · exact .done _

/-- Nor of an Artifact. -/
theorem insertArtifact_moves (id : Uuid) (row : Except DbError ArtifactRow) :
    Moves S (.exec (Artifacts.insert id row)) := by
  refine .write fun db b ws hws v hv => ?_
  obtain ⟨r, rfl, -⟩ := Artifacts.insertion_eq_ok hws
  rw [List.mem_singleton.1 hv]
  rfl

/-- Nor of the state of one. -/
theorem setState_moves (id : Uuid) (target : ArtifactState) (now : Time) :
    Moves S (Artifacts.setState id target now) := by
  refine .bind (.read _) fun row => ?_
  cases row with
  | none => exact .done _
  | some row =>
    dsimp only
    split
    · exact .done _
    refine .bind (.update_of_not_observed rfl) fun moved => ?_
    split
    · exact .done _
    refine .bind (.read _) fun row => ?_
    cases row <;> exact .done _

theorem setRemoteLocalContent_moves (id : Uuid) (bytes : Bytes) (now clock : Time) :
    Moves S (Artifacts.setRemoteLocalContent id bytes now clock) := by
  refine .bind (.update_of_not_observed rfl) fun stored => .bind (.read _) fun row => ?_
  cases stored <;> cases row <;> exact .done _

theorem linkInputArtifacts_moves (id : Uuid) (ids : List Uuid) (clock : Time) :
    Moves S (Artifacts.linkInputArtifacts id ids clock) := by
  refine .write fun db b ws hws v hv => ?_
  cases hws
  obtain ⟨e, -, rfl⟩ := List.mem_map.1 hv
  rfl

theorem expireDue_moves (now : Time) : Moves S (Artifacts.expireDue now) := by
  refine .write fun db b ws hws v hv => ?_
  cases hws
  obtain ⟨e, -, rfl⟩ := List.mem_map.1 hv
  rfl

/-- Nor of a Worker. -/
theorem enroll_moves (id : Uuid) (name : String) (credentialHash : Bytes) :
    Moves S (Workers.enroll id name credentialHash) := by
  refine .require (.write fun db b ws hws v hv => ?_)
  obtain ⟨k, r, rfl⟩ : ∃ (k : Uuid) (r : WorkerRow), ws = [⟨worker k, some r⟩] := by
    repeat' split at hws
    all_goals cases hws
    all_goals exact ⟨_, _, rfl⟩
  rw [List.mem_singleton.1 hv]
  rfl

/-- Whether the Worker's credential is the current one. -/
def AuthenticatedWorker.isCurrent (w : AuthenticatedWorker) (db : Db) : Bool :=
  (fetch db (worker w.workerId)).any fun r =>
    r.credentialHash = w.credentialHash && r.revokedAt.isNone

/-- A handler does what its body does where the Worker's credential is current. -/
theorem authenticated_ensures {w : AuthenticatedWorker} {refused : α} {body : Body (Verdict α)}
    {R : Db → Db → Prop} {Q : Verdict α → Db → Prop} {db : Db} (hrefused : Q (.rollback refused) db)
    (h : w.isCurrent db → body.Ensures R Q db) : (authenticated w refused body).Ensures R Q db := by
  have hbody : ∀ ok : Bool, (ok → w.isCurrent db) →
      (if (!ok) = true then pure (.rollback refused) else body).Ensures R Q db
    | false, _ => hrefused
    | true, hok => h (hok rfl)
  refine Prog.ensures_lock (fun r hr _ => hbody _ fun hok => ?_) fun _ => hbody false nofun
  rw [AuthenticatedWorker.isCurrent, hr]
  exact hok

/-- A Worker whose credential is current is served. -/
theorem authenticated_yields {w : AuthenticatedWorker} {refused : α} {body : Body (Verdict α)}
    {Q : Verdict α → Db → Prop} {db : Db} (hw : w.isCurrent db) (h : body.Yields Q db) :
    (authenticated w refused body).Yields Q db := by
  obtain ⟨row, hrow, hcur⟩ := (Option.any_eq_true _ _).1 hw
  refine Prog.yields_lock hrow rfl ?_
  have hbody : ∀ ok : Bool, ok → (if (!ok) = true then pure (.rollback refused) else body).Yields Q db
    | true, _ => h
  exact hbody _ hcur

theorem Transacts.authenticated {w : AuthenticatedWorker} {refused : α} {body : Body (Verdict α)}
    (h : Transacts S body) : Transacts S (authenticated w refused body) :=
  fun db => authenticated_ensures nofun fun _ => h db

end Quiet

end Gpq
