import Gpq.Lifecycle.Observation

/-!
# Stored states follow the domain's state machines

The edges of the three lifecycles are written twice: as `canTransitionTo`, and as the
`WHERE` clauses of the statements that write a `state` column. Nothing compares the
two when the Remote runs; here every operation of `db::generations`, `db::attempts`
and `db::artifacts` is shown to move each row along an edge (`Operation.edged`).

A database is seen as a family of state machines, one for each row with a state
(`stateOf`). Rows come and go, so a body is classified by whether it may insert and
whether it may delete such rows (`Edged`).
-/

namespace Gpq

open Sql DbKey Machine

/-- A state of one of the three lifecycles. -/
inductive LifecycleState
  | generation (state : GenerationState)
  | attempt (state : AttemptState)
  | artifact (state : ArtifactState)
  deriving DecidableEq, Repr

namespace LifecycleState

/-- Whether the row can no longer change state. -/
def isTerminal : LifecycleState → Bool
  | generation s => s.isTerminal
  | attempt s => s.isTerminal
  | artifact s => s.isTerminal

/-- Whether `self → target` is a legal transition of one lifecycle. -/
def canTransitionTo : LifecycleState → LifecycleState → Bool
  | generation s, generation t => s.canTransitionTo t
  | attempt s, attempt t => s.canTransitionTo t
  | artifact s, artifact t => s.canTransitionTo t
  | _, _ => false

/-- No edge leads out of a terminal state. -/
theorem not_canTransitionTo_of_isTerminal {s : LifecycleState} (h : s.isTerminal) (t) :
    ¬ s.canTransitionTo t := by
  rcases s with s | s | s <;> rcases t with t | t | t
  · exact GenerationState.not_canTransitionTo_of_isTerminal h t
  · exact nofun
  · exact nofun
  · exact nofun
  · exact AttemptState.not_canTransitionTo_of_isTerminal h t
  · exact nofun
  · exact nofun
  · exact nofun
  · exact ArtifactState.not_canTransitionTo_of_isTerminal h t

end LifecycleState

/-- The state that a row stores, if its table has states. -/
def rowState : (k : DbKey) → Db.Row k → Option LifecycleState
  | .generation _, r => some (.generation r.state)
  | .attempt _, r => some (.attempt r.state)
  | .artifact _, r => some (.artifact r.state)
  | _, _ => none

/-- Whether the rows of a table have no state. -/
def Stateless : DbKey → Bool
  | .generation _ | .attempt _ | .artifact _ => false
  | _ => true

/-- A row without a state has none. -/
theorem bind_rowState_eq_none {k : DbKey} (h : Stateless k) (r : Option (Db.Row k)) :
    r.bind (rowState k) = none := by
  cases k with
  | generation | attempt | artifact => cases h
  | _ => cases r <;> rfl

/-- The state stored under a key. -/
def stateOf (db : Db) (k : DbKey) : Option LifecycleState := (fetch db k).bind (rowState k)

/-- An edge of one of the three lifecycles. -/
abbrev StateEdge (s t : LifecycleState) : Prop := s.canTransitionTo t

/-- One row's change of state. -/
abbrev StateChange : Prop → Prop → Option LifecycleState → Option LifecycleState → Prop :=
  Change StateEdge

/-- One change of the stored states. -/
def StatesEvolve (grows shrinks : Prop) (db db' : Db) : Prop :=
  Evolves StateEdge grows shrinks (stateOf db) (stateOf db')

section Bodies

variable {α β ι : Type} {grows shrinks : Prop} {db : Db}

/-- Every write of the body moves the stored states along edges; it inserts rows with
    a state only if `grows`, and deletes such rows only if `shrinks`. -/
def Edged (grows shrinks : Prop) (p : Body α) : Prop :=
  ∀ db, p.Ensures (StatesEvolve grows shrinks) (fun _ _ => True) db

/-- Writes that each change the state of their row legally. -/
theorem evolves_applyAll {ws : List (Write Db)}
    (h : ∀ w ∈ ws, StateChange grows shrinks (stateOf db w.1) (w.2.bind (rowState w.1))) :
    StatesEvolve grows shrinks db (applyAll db ws) := by
  intro k
  rcases fetch_applyAll_cases db ws k with hk | hk
  · rw [stateOf, stateOf, hk]
    exact .same _
  · exact h _ hk

/-- A write changes the state of its own row only. -/
theorem evolves_store {k : DbKey} {r : Option (Db.Row k)}
    (h : StateChange grows shrinks (stateOf db k) (r.bind (rowState k))) :
    StatesEvolve grows shrinks db (store db k r) := by
  refine (evolves_applyAll fun w hw => ?_ : StatesEvolve grows shrinks db (applyAll db [⟨k, r⟩]))
  obtain rfl := List.mem_singleton.1 hw
  exact h

namespace Edged

theorem done (a : α) : Edged grows shrinks (.done a) := fun _ => trivial

theorem bind {p : Body α} {f : α → Body β} (hp : Edged grows shrinks p)
    (hf : ∀ a, Edged grows shrinks (f a)) : Edged grows shrinks (p.bind f) :=
  fun db => Prog.ensures_bind ((hp db).mono fun a db' _ => hf a db')

theorem forEach {f : ι → Body α} (hf : ∀ i, Edged grows shrinks (f i)) (is : List ι) :
    Edged grows shrinks (Prog.forEach f is) :=
  fun _ => Prog.ensures_forEach (I := fun _ => True) (fun i _ db _ => hf i db) trivial

theorem read (f : Db → α) : Edged grows shrinks (.exec (.read f)) :=
  fun _ => Prog.ensures_read trivial

theorem tryRead (f : Db → Except DbError α) : Edged grows shrinks (.exec (.tryRead f)) :=
  fun _ => Prog.ensures_tryRead fun _ _ => trivial

theorem lock {k : DbKey} (guard : Db.Row k → Bool) :
    Edged grows shrinks (.exec (@Stmt.lock Db _ k guard)) :=
  fun _ => Prog.ensures_lock (fun _ _ _ => trivial) fun _ => trivial

theorem lockAll (f : Db → α) (keys : α → List DbKey) :
    Edged grows shrinks (.exec (@Stmt.lockAll Db _ _ f keys)) :=
  fun _ => Prog.ensures_lockAll trivial

theorem require {ok : Bool} {e : DbError} {q : Statement α} (h : Edged grows shrinks (.exec q)) :
    Edged grows shrinks (.exec (.require ok e q)) :=
  fun db => Prog.ensures_require fun _ => h db

theorem labelled {m : Mark} {q : Statement α} (h : Edged grows shrinks (.exec q)) :
    Edged grows shrinks (.exec (@Stmt.labelled Db _ _ m q)) :=
  fun db => Prog.ensures_labelled (h db)

/-- An update whose guard implies that the new state is a successor. -/
theorem update {k : DbKey} {guard : Db.Row k → Bool} {f : Db.Row k → Db.Row k}
    (h : ∀ r, guard r → StateChange grows shrinks (rowState k r) (rowState k (f r))) :
    Edged grows shrinks (.exec (.update k guard f)) := by
  refine fun db => Prog.ensures_update (fun r hr hg => ⟨evolves_store ?_, trivial⟩) fun _ => trivial
  rw [stateOf, hr]
  exact h r hg

/-- An update along an edge. -/
theorem updateReturning {k : DbKey} {guard : Db.Row k → Bool} {f : Db.Row k → Db.Row k}
    {ret : Db.Row k → β}
    (h : ∀ r, guard r → StateChange grows shrinks (rowState k r) (rowState k (f r))) :
    Edged grows shrinks (.exec (@Stmt.updateReturning Db _ _ k guard f ret)) := by
  refine fun db => Prog.ensures_updateReturning (fun r hr hg => ⟨evolves_store ?_, trivial⟩)
    fun _ => trivial
  rw [stateOf, hr]
  exact h r hg

/-- An update of other columns. -/
theorem update_same {k : DbKey} {guard : Db.Row k → Bool} {f : Db.Row k → Db.Row k}
    (h : ∀ r, rowState k (f r) = rowState k r) : Edged grows shrinks (.exec (.update k guard f)) :=
  .update fun r _ => h r ▸ .same _

/-- Some other write. -/
theorem write {f : Db → Except DbError (α × List (Write Db))}
    (h : ∀ db b ws, f db = .ok (b, ws) → ∀ w ∈ ws,
      StateChange grows shrinks (stateOf db w.1) (w.2.bind (rowState w.1))) :
    Edged grows shrinks (.exec (.write f)) :=
  fun db => Prog.ensures_write fun b ws hws => ⟨fun _ => evolves_applyAll (h db b ws hws), trivial⟩

/-- Writes to tables without states. -/
theorem write_stateless {f : Db → Except DbError (α × List (Write Db))}
    (h : ∀ db b ws, f db = .ok (b, ws) → ∀ w ∈ ws, Stateless w.1) :
    Edged grows shrinks (.exec (.write f)) := by
  refine .write fun db b ws hws w hw => ?_
  have hnone := bind_rowState_eq_none (h db b ws hws w hw)
  rw [stateOf, hnone, hnone]
  exact .same _

/-- A guarded transition of a Generation. -/
theorem transition {id : Uuid} {source : GenerationState → Bool} {f : GenerationRow → GenerationRow}
    (h : ∀ r : GenerationRow, source r.state → r.state.canTransitionTo (f r).state) :
    Edged grows shrinks (.exec (Generations.transition id source f)) :=
  .update fun r hr => .edge (h r hr)

theorem authenticated {w : AuthenticatedWorker} {refused : α} {body : Body (Verdict α)}
    (h : Edged grows shrinks body) : Edged grows shrinks (authenticated w refused body) :=
  fun db => authenticated_ensures trivial fun _ => h db

/-- The body's end is reached by legal changes of the stored states. -/
theorem path {p : Body α} (h : Edged grows shrinks p) (db : Db) :
    p.Ensures ⊤ (fun _ db' => Relation.ReflTransGen (StatesEvolve grows shrinks) db db') db :=
  ((h db).traced.mono_writes fun _ _ _ => trivial).mono fun _ _ h' => h'.2

theorem committed {p : Body α} (h : Edged grows shrinks p) : Edged grows shrinks (committed p) :=
  .bind h fun _ => .done _

end Edged

end Bodies

/-! ## Generations -/

section Generations

variable {grows shrinks : Prop}

/-- A Generation that is inserted is new. -/
theorem insertGeneration_edged (new : NewGeneration) :
    Edged True shrinks (Generations.insert new) := by
  refine .require (.write fun db b ws hws w hw => ?_)
  obtain ⟨hnew, r, rfl, -⟩ := Generations.insertion_eq_ok hws
  obtain rfl := List.mem_singleton.1 hw
  have hnone : stateOf db (generation new.id) = none := by rw [stateOf, hnew, Option.bind_none]
  exact hnone ▸ .new trivial _

theorem markRunning_edged (id : Uuid) (now : Time) :
    Edged grows shrinks (Generations.markRunning id now) :=
  .transition fun r h => by rw [of_decide_eq_true h]; rfl

theorem requeue_edged (id : Uuid) : Edged grows shrinks (Generations.requeue id) :=
  .labelled (.transition fun r h => by rw [of_decide_eq_true h]; rfl)

/-- What is queued, running or cancelling may fail. -/
theorem fail_edged (id : Uuid) (kind : FailureKind) (message : String) (now : Time) :
    Edged grows shrinks (Generations.fail id kind message now) := by
  refine .require (.transition fun r h => ?_)
  simp only [Bool.or_eq_true, decide_eq_true_eq] at h
  rcases h with (h | h) | h <;> rw [h] <;> rfl

theorem cancelQueued_edged (id : Uuid) (now : Time) :
    Edged grows shrinks (Generations.cancelQueued id now) :=
  .transition fun r h => by rw [of_decide_eq_true h]; rfl

theorem requestCancelRunning_edged (id : Uuid) :
    Edged grows shrinks (Generations.requestCancelRunning id) :=
  .labelled (.transition fun r h => by rw [of_decide_eq_true h]; rfl)

theorem finishCancelled_edged (id : Uuid) (now : Time) :
    Edged grows shrinks (Generations.finishCancelled id now) :=
  .transition fun r h => by rw [of_decide_eq_true h]; rfl

theorem expire_edged (id : Uuid) (now : Time) : Edged grows shrinks (Generations.expire id now) :=
  .transition fun r h => by rw [of_decide_eq_true h]; rfl

theorem recordProgress_edged (id : Uuid) (progress : ProgressSnapshot) :
    Edged grows shrinks (Generations.recordProgress id progress) :=
  .require (.update_same fun _ => rfl)

theorem releaseSlot_edged (p : Uuid) : Edged grows shrinks (Workers.releaseSlot p) :=
  .bind (.update_same fun _ => rfl) fun _ => .done _

/-- Acceptance writes both states without a guard; the rows it locked say that the
    writes are edges. -/
theorem acceptResult_edged (id w : Uuid) (now : Time) :
    Edged grows shrinks (Generations.acceptResult id w now) := by
  intro db
  unfold Generations.acceptResult
  simp only [Prog.bind_eq, Prog.exec_bind, Prog.pure_eq]
  refine Prog.ensures_lock (fun r hr hw => ?_) fun _ => trivial
  refine Prog.ensures_lock (fun g hg _ => ?_) fun _ => trivial
  dsimp only
  split
  · trivial
  split
  · trivial
  split
  · trivial
  split
  · trivial
  rename_i hlive hnone htrans
  obtain ⟨hlive, -⟩ : r.state.isLive = true ∧ now < r.leaseExpiresAt := by simpa using hlive
  refine Prog.ensures_update_of_fetch hr hw (evolves_store ?_) ?_
  · rw [stateOf, hr]
    exact .edge (AttemptState.canTransitionTo_of_isLive hlive rfl)
  refine Prog.ensures_bind ((releaseSlot_ensures _ fun q hq => evolves_store ?_).mono
    fun _ db₁ hdb₁ => ?_)
  · rw [stateOf, hq]
    exact .same _
  · have hg₁ : fetch db₁ (generation r.generationId) = some g := by simpa [hdb₁] using hg
    refine Prog.ensures_update_of_fetch hg₁ rfl (evolves_store ?_) trivial
    rw [stateOf, hg₁]
    have hedge : g.state.canTransitionTo .succeeded := by simpa using htrans
    exact .edge hedge

end Generations

/-! ## Attempts -/

section Attempts

variable {grows shrinks : Prop}

/-- An Attempt that is created is new. -/
theorem create_edged (id g w p : Uuid) (slotKey : String) (expiry now : Time) :
    Edged True shrinks (Attempts.create id g w p slotKey expiry now) := by
  refine .bind (.lock _) fun row => ?_
  cases row with
  | none => exact .done _
  | some row =>
    dsimp only
    split
    · exact .done _
    refine .bind (.read _) fun excluded => ?_
    split
    · exact .done _
    split
    · exact .done _
    refine .bind (.require (.write fun db b ws hws v hv => ?_)) fun _ =>
      .bind (.update_same fun _ => rfl) fun _ => .done _
    split at hws
    case isFalse => cases hws
    split at hws
    case isTrue => cases hws
    rename_i hnew
    split at hws
    case isTrue => cases hws
    cases hws
    obtain rfl := List.mem_singleton.1 hv
    -- the identifier was free
    have hnone : stateOf db (attempt id) = none := by
      have hid : fetch db (attempt id) = none := by
        simpa using (Bool.or_eq_false_iff.1 (Bool.eq_false_iff.2 hnew)).1
      rw [stateOf, hid, Option.bind_none]
    exact hnone ▸ .new trivial _

/-- A heartbeat renews leases, and changes no state. -/
theorem heartbeat_edged (w : Uuid) (ids : List Uuid) (now clock : Time) :
    Edged grows shrinks (Attempts.heartbeat w ids now clock) := by
  unfold Attempts.heartbeat
  split
  · exact .done _
  refine .write fun db b ws hws v hv => ?_
  cases hws
  obtain ⟨e, he, rfl⟩ := List.mem_map.1 hv
  have hrow : fetch db (attempt e.1) = some e.2 := Table.mem_rows.1 (List.mem_of_mem_filter he)
  rw [stateOf, hrow]
  exact .same _

/-- A leased Attempt runs. -/
theorem markRunningAttempt_edged (id w : Uuid) (now : Time) :
    Edged grows shrinks (Attempts.markRunning id w now) := by
  refine .write fun db b ws hws v hv => ?_
  split at hws
  · cases hws
    cases hv
  rename_i r hr
  obtain ⟨hr, hguard⟩ := Option.filter_eq_some_iff.1 hr
  split at hws
  · cases hws
    cases hv
  cases hws
  obtain rfl := List.mem_singleton.1 hv
  simp only [Bool.and_eq_true, decide_eq_true_eq] at hguard
  rw [stateOf, hr]
  refine .edge ?_
  show (r.state.canTransitionTo .running : Prop)
  rw [hguard.1.2]
  rfl

/-- A live Attempt ends. -/
theorem finish_edged (id : Uuid) (w : Option Uuid) (target : AttemptState)
    (failure : Option Attempts.FailureDetails) (now : Time) :
    Edged grows shrinks (Attempts.finish id w target failure now) := by
  unfold Attempts.finish
  split
  · exact .done _
  rename_i hnot
  have hterm : target.isTerminal := by simpa using hnot
  refine .bind (.require (.updateReturning fun r hr => .edge ?_)) fun settled => ?_
  · exact AttemptState.canTransitionTo_of_isLive (Bool.and_eq_true_iff.1 hr).1 hterm
  · cases settled with
    | none => exact .done _
    | some p => exact .bind (releaseSlot_edged p) fun _ => .done _

/-- A live Attempt ends, and its Generation is cancelled, queued again or fails. -/
theorem finishAndDecide_edged [ManifestHash] (id : Uuid) (w : Option Uuid) (target : AttemptState)
    (failure : Attempts.FailureDetails) (now : Time) :
    Edged grows shrinks (Attempts.finishAndDecide id w target failure now) := by
  refine .bind (.read _) fun g => ?_
  cases g with
  | none => exact .done _
  | some g =>
    refine .bind (finish_edged _ _ _ _ _) fun settled => ?_
    split
    · exact .done _
    refine .bind (.tryRead _) fun row => ?_
    split
    · exact .bind (finishCancelled_edged g now) fun _ => .done _
    refine .bind (.read _) fun requirement => .bind (.read _) fun excluded =>
      .bind (.read _) fun capabilities => ?_
    dsimp only
    split
    · exact .bind (requeue_edged g) fun _ => .done _
    · exact .bind (fail_edged g _ _ now) fun _ => .done _

theorem recordPreexecutionRejection_edged (g p : Uuid) :
    Edged grows shrinks (NativeExclusions.recordPreexecutionRejection g p) := by
  refine .write_stateless fun db b ws hws v hv => ?_
  rw [NativeExclusions.recorded_eq_ok hws v hv]
  rfl

/-- The rows of a deletion are gone, and nothing else happens to a state. -/
theorem Change.deletion {db : Db} {k : DbKey} : StateChange grows True (stateOf db k) none := by
  cases stateOf db k with
  | none => exact .same _
  | some s => exact .gone trivial s

/-- A lease that is rejected is deleted, and its Generation queued again. -/
theorem rejectLease_edged (id w : Uuid) (now : Time) :
    Edged grows True (Attempts.rejectLease id w now) := by
  refine .bind (.lock _) fun lease => ?_
  cases lease with
  | none => exact .done _
  | some lease =>
    dsimp only
    split
    · exact .done _
    refine .bind (.lock _) fun row => ?_
    split
    · exact .done _
    refine .bind (recordPreexecutionRejection_edged _ _) fun _ => .bind (.write ?_) fun _ =>
      .bind (releaseSlot_edged _) fun _ => .bind (.update fun r hr => ?_) fun _ => .done _
    · intro db b ws hws v hv
      split at hws
      · cases hws
        cases hv
      split at hws
      · cases hws
      · cases hws
        obtain rfl := List.mem_singleton.1 hv
        exact Change.deletion
    · refine .edge ?_
      show (r.state.canTransitionTo .queued : Prop)
      rw [of_decide_eq_true hr]
      rfl

/-- A cancellation that is acknowledged ends the Attempt and its Generation. -/
theorem acknowledgeCancel_edged (id w : Uuid) (now : Time) :
    Edged grows shrinks (Attempts.acknowledgeCancel id w now) := by
  refine .bind (.lock _) fun lock => ?_
  cases lock with
  | none => exact .done _
  | some lock =>
    refine .bind (.read _) fun row => ?_
    split
    · exact .done _
    -- what follows the end of the Attempt
    have hrest : Edged grows shrinks (do
        let settled ← Generations.finishCancelled lock.generationId now
        return if settled then some lock.generationId else none) :=
      .bind (finishCancelled_edged _ now) fun _ => .done _
    split
    · refine .bind (.write fun db b ws hws v hv => ?_) fun p => ?_
      · split at hws
        · rename_i r hr _
          cases hws
          obtain rfl := List.mem_singleton.1 hv
          obtain ⟨hr, hguard⟩ := Option.filter_eq_some_iff.1 hr
          rw [stateOf, hr]
          exact .edge (AttemptState.canTransitionTo_of_isLive (Bool.and_eq_true_iff.1 hguard).2 rfl)
        · cases hws
          cases hv
      · cases p with
        | none => exact .done _
        | some p => exact .bind (releaseSlot_edged p) fun _ => hrest
    · exact hrest

theorem requestCancel_edged (id : Uuid) (now : Time) :
    Edged grows shrinks (Attempts.requestCancel id now) :=
  .update_same fun _ => rfl

end Attempts

/-! ## Artifacts -/

section Artifacts

variable {grows shrinks : Prop}

theorem insertArtifact_edged (id : Uuid) (row : Except DbError ArtifactRow) :
    Edged True shrinks (.exec (Artifacts.insert id row)) := by
  refine .write fun db b ws hws v hv => ?_
  obtain ⟨r, rfl, hnew, -⟩ := Artifacts.insertion_eq_ok hws
  obtain rfl := List.mem_singleton.1 hv
  rw [stateOf, hnew]
  exact .new trivial _

/-- A pending input becomes available. -/
theorem setRemoteLocalContent_edged (id : Uuid) (bytes : Bytes) (now clock : Time) :
    Edged grows shrinks (Artifacts.setRemoteLocalContent id bytes now clock) := by
  refine .bind (.update fun r hr => .edge ?_) fun stored => .bind (.read _) fun row => ?_
  · simp only [Bool.and_eq_true, decide_eq_true_eq] at hr
    show (r.state.canTransitionTo .available : Prop)
    rw [hr.1.2]
    rfl
  · cases stored <;> cases row <;> exact .done _

/-- An Artifact takes an edge that was checked. -/
theorem setState_edged (id : Uuid) (target : ArtifactState) (now : Time) :
    Edged grows shrinks (Artifacts.setState id target now) := by
  refine .bind (.read _) fun row => ?_
  cases row with
  | none => exact .done _
  | some row =>
    dsimp only
    split
    · exact .done _
    rename_i target' htrans
    -- the edge was checked on the state that was read, and the update compares with it
    have hedge : row.state.canTransitionTo target' := by
      rw [ArtifactState.transition] at htrans
      split at htrans
      · cases htrans
        assumption
      · cases htrans
    refine .bind (.update fun r hr => .edge ?_) fun moved => ?_
    · show (r.state.canTransitionTo target' : Prop)
      rw [of_decide_eq_true hr]
      exact hedge
    · split
      · exact .done _
      refine .bind (.read _) fun row => ?_
      cases row <;> exact .done _

/-- An available Artifact is delivered. -/
theorem beginDelivery_edged (id : Uuid) (clock : Time) :
    Edged grows shrinks (Artifacts.beginDelivery id clock) := by
  refine .update fun r hr => .edge ?_
  simp only [Bool.and_eq_true, decide_eq_true_eq] at hr
  show (r.state.canTransitionTo .delivering : Prop)
  rw [hr.1]
  rfl

theorem commitOffset_edged (id : Uuid) (offset : UInt64) :
    Edged grows shrinks (Artifacts.commitOffset id offset) :=
  .require (.update_same fun _ => rfl)

theorem deleteInputsForGeneration_edged (id : Uuid) :
    Edged grows True (Artifacts.deleteInputsForGeneration id) := by
  refine .write fun db b ws hws v hv => ?_
  cases hws
  obtain ⟨e, -, rfl⟩ := List.mem_map.1 hv
  exact Change.deletion

/-- What is pending or available expires. -/
theorem expireDue_edged (now : Time) : Edged grows shrinks (Artifacts.expireDue now) := by
  refine .write fun db b ws hws v hv => ?_
  cases hws
  obtain ⟨e, he, rfl⟩ := List.mem_map.1 hv
  obtain ⟨hmem, hdue⟩ := List.mem_filter.1 he
  have hrow : fetch db (artifact e.1) = some e.2 := Table.mem_rows.1 hmem
  simp only [Bool.and_eq_true, Bool.or_eq_true, decide_eq_true_eq] at hdue
  rw [stateOf, hrow]
  refine .edge ?_
  show (e.2.state.canTransitionTo .expired : Prop)
  -- both states have that edge
  rcases hdue.1 with h | h <;> rw [h] <;> rfl

theorem linkInputArtifacts_edged (id : Uuid) (ids : List Uuid) (clock : Time) :
    Edged grows shrinks (Artifacts.linkInputArtifacts id ids clock) := by
  refine .write fun db b ws hws v hv => ?_
  cases hws
  obtain ⟨e, he, rfl⟩ := List.mem_map.1 hv
  have hrow : fetch db (artifact e.1) = some e.2 := Table.mem_rows.1 (List.mem_of_mem_filter he)
  rw [stateOf, hrow]
  exact .same _

end Artifacts

/-! ## Operations -/

/-- The operations of `db::generations`, `db::attempts` and `db::artifacts` that write
    or lock, with any arguments; the others only read. -/
inductive Operation [ManifestHash] : {α : Type} → Body α → Prop
  | insertGeneration (new : NewGeneration) : Operation (Generations.insert new)
  | markRunning (id : Uuid) (now : Time) : Operation (Generations.markRunning id now)
  | requeue (id : Uuid) : Operation (Generations.requeue id)
  | acceptResult (id workerId : Uuid) (now : Time) :
      Operation (Generations.acceptResult id workerId now)
  | fail (id : Uuid) (kind : FailureKind) (message : String) (now : Time) :
      Operation (Generations.fail id kind message now)
  | cancelQueued (id : Uuid) (now : Time) : Operation (Generations.cancelQueued id now)
  | requestCancelRunning (id : Uuid) : Operation (Generations.requestCancelRunning id)
  | finishCancelled (id : Uuid) (now : Time) : Operation (Generations.finishCancelled id now)
  | expire (id : Uuid) (now : Time) : Operation (Generations.expire id now)
  | recordProgress (id : Uuid) (progress : ProgressSnapshot) :
      Operation (Generations.recordProgress id progress)
  | create (id generationId workerId poolId : Uuid) (slotKey : String) (leaseExpiry now : Time) :
      Operation (Attempts.create id generationId workerId poolId slotKey leaseExpiry now)
  | heartbeat (workerId : Uuid) (attemptIds : List Uuid) (now clock : Time) :
      Operation (Attempts.heartbeat workerId attemptIds now clock)
  | markRunningAttempt (id workerId : Uuid) (now : Time) :
      Operation (Attempts.markRunning id workerId now)
  | finish (id : Uuid) (workerId : Option Uuid) (target : AttemptState)
      (failure : Option Attempts.FailureDetails) (now : Time) :
      Operation (Attempts.finish id workerId target failure now)
  | finishAndDecide (id : Uuid) (workerId : Option Uuid) (target : AttemptState)
      (failure : Attempts.FailureDetails) (now : Time) :
      Operation (Attempts.finishAndDecide id workerId target failure now)
  | recordFailure (id : Uuid) (failure : Attempts.FailureDetails) (now : Time) :
      Operation (Attempts.recordFailure id failure now)
  | recordFailureForWorker (id workerId : Uuid) (failure : Attempts.FailureDetails) (now : Time) :
      Operation (Attempts.recordFailureForWorker id workerId failure now)
  | recordLeaseExpiry (id : Uuid) (now : Time) : Operation (Attempts.recordLeaseExpiry id now)
  | rejectLease (id workerId : Uuid) (now : Time) : Operation (Attempts.rejectLease id workerId now)
  | acknowledgeCancel (id workerId : Uuid) (now : Time) :
      Operation (Attempts.acknowledgeCancel id workerId now)
  | expiredLeases (now : Time) (limit : ℕ) (skip : Uuid → Bool) :
      Operation (Attempts.expiredLeases now limit skip)
  | overdueExecutions (now : Time) (limit : ℕ) (skip : Uuid → Bool) :
      Operation (Attempts.overdueExecutions now limit skip)
  | requestCancel (id : Uuid) (now : Time) : Operation (Attempts.requestCancel id now)
  | createInput (id : Uuid) (manifest : ArtifactManifest) (placement : ArtifactPlacement)
      (objectKey : Option String) (now : Time) :
      Operation (Artifacts.createInput id manifest placement objectKey now)
  | createRemoteLocalInput (id : Uuid) (manifest : ArtifactManifest) (now : Time) :
      Operation (Artifacts.createRemoteLocalInput id manifest now)
  | setRemoteLocalContent (id : Uuid) (bytes : Bytes) (now clock : Time) :
      Operation (Artifacts.setRemoteLocalContent id bytes now clock)
  | recordOutput (id generationId attemptId : Uuid) (workerId : Option Uuid)
      (manifest : ArtifactManifest) (placement : ArtifactPlacement)
      (objectKey deliveryToken : Option String) (now : Time) :
      Operation (Artifacts.recordOutput id generationId attemptId workerId manifest placement
        objectKey deliveryToken now)
  | setState (id : Uuid) (target : ArtifactState) (now : Time) :
      Operation (Artifacts.setState id target now)
  | beginDelivery (id : Uuid) (clock : Time) : Operation (Artifacts.beginDelivery id clock)
  | commitOffset (id : Uuid) (offset : UInt64) : Operation (Artifacts.commitOffset id offset)
  | markConsumed (id : Uuid) (now : Time) : Operation (Artifacts.markConsumed id now)
  | markLost (id : Uuid) (now : Time) : Operation (Artifacts.markLost id now)
  | deleteInputsForGeneration (id : Uuid) : Operation (Artifacts.deleteInputsForGeneration id)
  | expireDue (now : Time) : Operation (Artifacts.expireDue now)

/-- Every operation of the database layer makes edges only. -/
theorem Operation.edged [ManifestHash] {α : Type} {p : Body α} (h : Operation p) :
    Edged True True p := by
  cases h with
  | insertGeneration new => exact insertGeneration_edged new
  | markRunning id now => exact markRunning_edged id now
  | requeue id => exact requeue_edged id
  | acceptResult id w now => exact acceptResult_edged id w now
  | fail id kind message now => exact fail_edged id kind message now
  | cancelQueued id now => exact cancelQueued_edged id now
  | requestCancelRunning id => exact requestCancelRunning_edged id
  | finishCancelled id now => exact finishCancelled_edged id now
  | expire id now => exact expire_edged id now
  | recordProgress id progress => exact recordProgress_edged id progress
  | create id g w p slotKey expiry now => exact create_edged id g w p slotKey expiry now
  | heartbeat w ids now clock => exact heartbeat_edged w ids now clock
  | markRunningAttempt id w now => exact markRunningAttempt_edged id w now
  | finish id w target failure now => exact finish_edged id w target failure now
  | finishAndDecide id w target failure now => exact finishAndDecide_edged id w target failure now
  | recordFailure id failure now => exact finishAndDecide_edged id _ _ failure now
  | recordFailureForWorker id w failure now => exact finishAndDecide_edged id _ _ failure now
  | recordLeaseExpiry id now => exact finishAndDecide_edged id _ _ _ now
  | rejectLease id w now => exact rejectLease_edged id w now
  | acknowledgeCancel id w now => exact acknowledgeCancel_edged id w now
  | expiredLeases now limit skip => exact .lockAll _ _
  | overdueExecutions now limit skip => exact .lockAll _ _
  | requestCancel id now => exact requestCancel_edged id now
  | createInput id manifest placement objectKey now => exact insertArtifact_edged id _
  | createRemoteLocalInput id manifest now => exact insertArtifact_edged id _
  | setRemoteLocalContent id bytes now clock => exact setRemoteLocalContent_edged id bytes now clock
  | recordOutput id g a w manifest placement objectKey token now => exact insertArtifact_edged id _
  | setState id target now => exact setState_edged id target now
  | beginDelivery id clock => exact beginDelivery_edged id clock
  | commitOffset id offset => exact commitOffset_edged id offset
  | markConsumed id now => exact setState_edged id .consumed now
  | markLost id now => exact setState_edged id .lost now
  | deleteInputsForGeneration id => exact deleteInputsForGeneration_edged id
  | expireDue now => exact expireDue_edged now

end Gpq
