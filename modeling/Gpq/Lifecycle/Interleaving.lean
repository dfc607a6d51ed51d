import Gpq.Lifecycle.Concurrency
import Gpq.Lifecycle.Safety

/-!
# Stranded Generations

A running or cancelling Generation with no live Attempt is stranded: no result, no
acknowledgement and no sweep will ever end it. Over the interleavings of the
transactions that lease, settle, cancel, accept, reject, acknowledge and expire
(`Interleaves`):

  * `cancelling_stranded`: a cancellation that commits between a settlement's read of
    the Generation and its requeue strands the Generation;
  * `none_stranded`: nothing else does.
-/

namespace Gpq

open Sql DbKey

/-- The transactions that change the state of a Generation or of its Attempts. -/
inductive Txn
  | settleAttemptFailure (worker : AuthenticatedWorker) (attemptId : Uuid)
      (failure : Attempts.FailureDetails) (now : Time)
  | expireLeases (now : Time) (skip : Uuid → Bool)
  | enforceExecutionDeadlines (now : Time) (skip : Uuid → Bool)
  | cancelGeneration (id : Uuid) (now : Time)
  | attemptResult (worker : AuthenticatedWorker) (attemptId : Uuid) (outputs : List AttemptOutput)
      (now : Time)
  | leaseRejected (worker : AuthenticatedWorker) (attemptId : Uuid) (now : Time)
  | tryAssign (assignment : SlotAssignment) (attemptId : Uuid) (now : Time) (sent : Bool)
  | cancelAcknowledged (worker : AuthenticatedWorker) (attemptId : Uuid) (now : Time)
  | attemptRunning (worker : AuthenticatedWorker) (attemptId : Uuid) (now : Time)
  | heartbeat (worker : AuthenticatedWorker) (attemptIds : List Uuid) (now clock : Time)
  | propagateCancellations (now : Time)
  | expireStarvedQueue (now : Time)

namespace Txn

/-- The statements of a transaction. -/
def body [ManifestHash] : Txn → Transaction Db
  | settleAttemptFailure w a failure now => ⟨_, Gpq.settleAttemptFailure w a failure now⟩
  | expireLeases now skip => ⟨_, Gpq.expireLeases now skip⟩
  | enforceExecutionDeadlines now skip => ⟨_, Gpq.enforceExecutionDeadlines now skip⟩
  | cancelGeneration id now => ⟨_, Gpq.cancelGeneration id now⟩
  | attemptResult w a outputs now => ⟨_, tryHandleAttemptResult w a outputs now⟩
  | leaseRejected w a now => ⟨_, tryHandleLeaseRejected w a now⟩
  | tryAssign assignment a now sent => ⟨_, Gpq.tryAssign assignment a now sent⟩
  | cancelAcknowledged w a now => ⟨_, tryHandleCancelAcknowledged w a now⟩
  | attemptRunning w a now => ⟨_, tryHandleAttemptRunning w a now⟩
  | heartbeat w attemptIds now clock => ⟨_, tryHandleHeartbeat w attemptIds now clock⟩
  | propagateCancellations now => ⟨_, Gpq.propagateCancellations now⟩
  | expireStarvedQueue now => ⟨_, Gpq.expireStarvedQueue now⟩

/-- A lease draws the identifier of its Attempt for its Generation. -/
def Draws (owner : Uuid → Uuid) : Txn → Prop
  | tryAssign assignment a _ _ => owner a = assignment.generationId
  | _ => True

/-- Every transaction that draws fresh identifiers commits settlements only. -/
theorem body_commits [ManifestHash] {owner : Uuid → Uuid} {timely : Mark → Prop} {t : Txn}
    (h : t.Draws owner) : t.body.2.Commits (settlements owner timely) := by
  cases t with
  | settleAttemptFailure w a failure now => exact settleAttemptFailure_commits w a failure now
  | expireLeases now skip => exact expireLeases_commits now skip
  | enforceExecutionDeadlines now skip => exact enforceExecutionDeadlines_commits now skip
  | cancelGeneration id now => exact cancelGeneration_commits id now
  | attemptResult w a outputs now => exact attemptResult_commits w a outputs now
  | leaseRejected w a now => exact leaseRejected_commits w a now
  | tryAssign assignment a now sent => exact tryAssign_commits assignment a now sent h
  | cancelAcknowledged w a now => exact cancelAcknowledged_commits w a now
  | attemptRunning w a now => exact attemptRunning_commits w a now
  | heartbeat w attemptIds now clock => exact heartbeat_commits w attemptIds now clock
  | propagateCancellations now => exact propagateCancellations_commits now
  | expireStarvedQueue now => exact expireStarvedQueue_commits now

end Txn

/-- Every running or cancelling Generation has exactly one live Attempt. -/
def NoneStranded (db : Db) : Prop :=
  ∀ g row, fetch db (generation g) = some row → row.state.isActive → liveAttempts db g = 1

/-- Every Attempt's identifier was drawn for its Generation. -/
def OwnedBy (owner : Uuid → Uuid) (db : Db) : Prop :=
  ∀ a r, fetch db (attempt a) = some r → r.generationId = owner a

/-- No requeue runs while its Generation is cancelling. -/
def requeuesInTime {ι τ : Type} (a : Action ι τ) (c : Concurrent Db ι) : Bool :=
  match a with
  | .advance i => (c.session i).all fun S => S.label.all fun
    | .requeue g =>
      (fetch (S.view c.committed) (generation g)).map GenerationRow.state ≠ some .cancelling
    | .requestCancelRunning _ => true
  | _ => true

section Interleavings

variable (ι : Type) [Fintype ι] [DecidableEq ι] (owner : Uuid → Uuid)

/-- The interleavings on the connections `ι` of any transactions, from any reachable
    database without stranded Generations; `owner` says which Generation an Attempt's
    identifier is drawn for. -/
def Interleaves [ManifestHash]
    (allowed : Action ι { t : Txn // t.Draws owner } → Concurrent Db ι → Prop) :
    Concurrent Db ι → Prop :=
  Machine.Reachable
    (fun c => (Reaches c.committed ∧ NoneStranded c.committed ∧ OwnedBy owner c.committed) ∧
      c.quiescent)
    (Machine.Fires (Concurrent.next fun t => t.1.body) allowed)

end Interleavings

section Stranding

variable {ι : Type} {owner : Uuid → Uuid} {db : Db}

theorem noneStranded_iff_rows : NoneStranded db ↔
    ∀ e ∈ db.generations.rows, e.2.state.isActive → liveAttempts db e.1 = 1 := by
  constructor
  · exact fun h e he => h e.1 e.2 (Table.mem_rows.1 he)
  · exact fun h g row hrow => h (g, row) (Table.mem_rows.2 hrow)

theorem ownedBy_iff_rows :
    OwnedBy owner db ↔ ∀ e ∈ db.attempts.rows, e.2.generationId = owner e.1 := by
  constructor
  · exact fun h e he => h e.1 e.2 (Table.mem_rows.1 he)
  · exact fun h a r hr => h (a, r) (Table.mem_rows.2 hr)

instance : Decidable (NoneStranded db) := decidable_of_iff' _ noneStranded_iff_rows

instance : Decidable (OwnedBy owner db) := decidable_of_iff' _ ownedBy_iff_rows

/-- The discipline where no requeue comes too late. -/
abbrev inTime (owner : Uuid → Uuid) : Discipline Db := settlements owner fun m => m.isRequeue

/-- What the discipline keeps is that no Generation is stranded. -/
theorem noneStranded_of_inv (h : (inTime owner).inv db) : NoneStranded db := by
  intro g row hrow hact
  obtain ⟨a, ha⟩ := h.2.1 (fun _ => rfl) g row.life (life_gen_of_fetch hrow) hact
  have hle := liveAttempts_le_one_iff.2 (h.1.atMostOne.1 g)
  have hne : liveAttempts db g ≠ 0 := fun h0 => liveAttempts_eq_zero_iff.1 h0 a ha
  omega

/-- Where nothing is stranded, every active Generation has a live Attempt. -/
theorem inv_of_noneStranded (hs : (life db).Sound) (h : NoneStranded db) (ho : OwnedBy owner db) :
    (inTime owner).inv db := by
  refine ⟨hs, fun _ g r hg hact => ?_, ho⟩
  obtain ⟨row, hrow, rfl⟩ := Option.map_eq_some_iff.1 hg
  by_contra hnone
  have hzero : liveAttempts db g = 0 := liveAttempts_eq_zero_iff.2 fun a ha => hnone ⟨a, ha⟩
  have hone := h g row hrow hact
  omega

/-- Requeues in time are what the discipline permits of them. -/
theorem permits_of_requeuesInTime {τ : Type} {a : Action ι τ} {c : Concurrent Db ι}
    (h : requeuesInTime a c) : (inTime owner).Permits a c := by
  cases a with
  | advance i =>
    intro S hS l hl ht
    cases l with
    | requeue g =>
      rw [requeuesInTime, Option.mem_def.1 hS, Option.all_some, Option.mem_def.1 hl,
        Option.all_some] at h
      exact h
    | requestCancelRunning g => cases ht
  | _ => trivial

end Stranding

/-- A run of allowed actions is an interleaving. -/
theorem interleaves_run [ManifestHash] {ι : Type} [Fintype ι] [DecidableEq ι] {owner : Uuid → Uuid}
    {allowed : Action ι { t : Txn // t.Draws owner } → Concurrent Db ι → Prop} {db : Db}
    (hdb : Reaches db) (hs : NoneStranded db) (ho : OwnedBy owner db)
    (actions : List (Action ι { t : Txn // t.Draws owner }))
    (h : Machine.Allowed (Concurrent.next fun t => t.1.body) allowed ⟨db, fun _ => none⟩ actions) :
    Interleaves ι owner allowed
      (Machine.run (Concurrent.next fun t => t.1.body) ⟨db, fun _ => none⟩ actions) :=
  Machine.reachable_run (.init ⟨⟨hdb, hs, ho⟩, fun _ => rfl⟩) actions h

/-- In every interleaving in which no requeue runs while its Generation is cancelling,
    no Generation is ever stranded. -/
theorem none_stranded [ManifestHash] {ι : Type} [Fintype ι] [DecidableEq ι] (owner : Uuid → Uuid)
    (c : Concurrent Db ι) (hc : Interleaves ι owner (fun a c => requeuesInTime a c) c) :
    NoneStranded c.committed := by
  have hstart : ∀ db, Reaches db ∧ NoneStranded db ∧ OwnedBy owner db → (inTime owner).inv db :=
    fun db h => inv_of_noneStranded (ReachesBy.sound h.1) h.2.1 h.2.2
  have hbody : ∀ t : { t : Txn // t.Draws owner }, t.1.body.2.Commits (inTime owner) :=
    fun t => Txn.body_commits t.2
  refine noneStranded_of_inv (Concurrent.invariant hstart hbody (hc.mono ?_))
  rintro c c' ⟨a, ha, rfl⟩
  exact ⟨a, permits_of_requeuesInTime ha, rfl⟩

namespace Sample

/-- What two connections do, for Attempts of the Generation 31. -/
abbrev TwoConnections := Action (Fin 2) { t : Txn // t.Draws fun _ => 31 }

/-- A Worker reports that the backend of the Attempt 41 crashed. -/
def crash (w : AuthenticatedWorker) : TwoConnections :=
  .start 0 ⟨.settleAttemptFailure w 41
    { kind := .backendCrashed, message := "backend exited", workerRetryHint := false } 1000, trivial⟩

/-- The caller cancels the Generation 31. -/
def cancel : TwoConnections := .start 1 ⟨.cancelGeneration 31 1000, trivial⟩

/-- The two connections, after the first lease. -/
def idle : Concurrent Db (Fin 2) := ⟨after [firstLease], fun _ => none⟩

/-- The two connections after some actions. -/
def interleaved (actions : List TwoConnections) : Concurrent Db (Fin 2) :=
  Machine.run (Concurrent.next fun t => @Txn.body manifestHash t.1) idle actions

/-- Two connections after the first lease are interleaved. -/
theorem interleaves_interleaved {allowed : TwoConnections → Concurrent Db (Fin 2) → Prop}
    (actions : List TwoConnections)
    (h : Machine.Allowed (Concurrent.next fun t => @Txn.body manifestHash t.1) allowed idle actions) :
    @Interleaves (Fin 2) _ _ (fun _ => 31) manifestHash allowed (interleaved actions) := by
  have hstart : NoneStranded (after [firstLease]) ∧ OwnedBy (fun _ => 31) (after [firstLease]) := by
    decide +kernel
  exact @interleaves_run manifestHash _ _ _ _ _ _
    (reaches_after [firstLease]) hstart.1 hstart.2 actions h

end Sample

/-- A settlement has read the Generation as running, a cancellation commits, and the
    requeue matches nothing: the Generation is left cancelling without an Attempt. -/
theorem cancelling_stranded :
    ∃ c : Concurrent Db (Fin 2),
      @Interleaves (Fin 2) _ _ (fun _ => 31) Sample.manifestHash (fun _ _ => True) c ∧ c.quiescent ∧
      (fetch c.committed (generation 31)).map GenerationRow.state = some .cancelling ∧
      liveAttempts c.committed 31 = 0 := by
  let actions : List Sample.TwoConnections :=
    [Sample.crash Sample.alpha] ++ List.replicate 5 (.advance 0) ++ [Sample.cancel] ++
      List.replicate 4 (.advance 1) ++ List.replicate 5 (.advance 0)
  have hend : (∀ i, ((Sample.interleaved actions).session i).isNone) ∧
      (fetch (Sample.interleaved actions).committed (generation 31)).map GenerationRow.state =
        some .cancelling ∧ liveAttempts (Sample.interleaved actions).committed 31 = 0 := by
    decide +kernel
  exact ⟨_, Sample.interleaves_interleaved actions
    (Machine.allowed_of_forall (fun _ _ => trivial) _ _),
    fun i => Option.isNone_iff_eq_none.1 (hend.1 i), hend.2⟩

/-- A cancellation between the statements of a report by a Worker that does not hold the
    lease: the Generation is cancelling, and its Attempt is there to acknowledge it. -/
theorem none_stranded_cancelling :
    let c := Sample.interleaved ([Sample.crash Sample.beta, .advance 0, Sample.cancel, .advance 1,
      .advance 0, .advance 1, .advance 0, .advance 1, .advance 1])
    (fetch c.committed (generation 31)).map GenerationRow.state = some .cancelling ∧
      liveAttempts c.committed 31 = 1 := by
  let _ := Sample.manifestHash
  let actions : List Sample.TwoConnections := [Sample.crash Sample.beta, .advance 0, Sample.cancel,
    .advance 1, .advance 0, .advance 1, .advance 0, .advance 1, .advance 1]
  have hrun : Machine.Allowed (Concurrent.next fun t => t.1.body) (fun a c => requeuesInTime a c)
      Sample.idle actions ∧
    (fetch (Sample.interleaved actions).committed (generation 31)).map GenerationRow.state =
      some .cancelling := by decide +kernel
  obtain ⟨row, hrow, hstate⟩ := Option.map_eq_some_iff.1 hrun.2
  refine ⟨hrun.2,
    none_stranded (fun _ => 31) _ (Sample.interleaves_interleaved actions hrun.1) 31 row hrow ?_⟩
  rw [hstate]
  rfl

end Gpq
