import Gpq.Lib.Calls
import Gpq.Lifecycle.Interleaving

/-!
# Lost cancellations

`CancelGeneration` is two guarded updates, one for a queued and one for a running
Generation, and a requeue may commit between them:

  * `cancel_lost`: the first update finds the Generation running, a settlement requeues it,
    and the second update finds it queued: the call commits, and the Generation waits on;
  * `cancel_not_lost`: where no second update runs while its Generation is queued, every
    call that commits leaves its Generation cancelling or over.

The way back from the queue is no danger: a lease that commits between the two updates
leaves the Generation running, for the second one to find.
-/

namespace Gpq

open Sql DbKey Prog

/-- The Generation is cancelling, or over. -/
def Stopped (g : Uuid) (db : Db) : Prop :=
  ∃ row, fetch db (generation g) = some row ∧ (row.state = .cancelling ∨ row.state.isTerminal)

/-- The Generation that a transaction is to cancel. -/
def Txn.cancels : Txn → Option Uuid
  | cancelGeneration g _ => some g
  | _ => none

/-- A call that is to cancel a Generation, and commits, has stopped it, if there was one when
    the call began. -/
def CancelStops (t : Txn) (began : Db) (v : Ending) (_ left : Db) : Prop :=
  ∀ g, t.cancels = some g → (∃ row, fetch began (generation g) = some row) → v.commits →
    Stopped g left

/-- No cancellation request runs while its Generation is queued. -/
def requestsInTime {ι τ : Type} (a : Action ι τ) (c : Concurrent Db ι) : Bool :=
  match a with
  | .advance i => (c.session i).all fun S => S.label.all fun
    | .requestCancelRunning g =>
      (fetch (S.view c.committed) (generation g)).map GenerationRow.state ≠ some .queued
    | .requeue _ => true
  | _ => true

/-- The interleavings of the calls on the connections `ι`, from any reachable database;
    `owner` says which Generation an Attempt's identifier is drawn for. -/
def Calls [ManifestHash] (ι : Type) [Fintype ι] [DecidableEq ι] (owner : Uuid → Uuid)
    (allowed : Action ι { t : Txn // t.Draws owner } → Concurrent Db ι → Prop) :
    Traced Db ι { t : Txn // t.Draws owner } → Prop :=
  Machine.Reachable (fun c => (Reaches c.committed ∧ OwnedBy owner c.committed) ∧ c.idle)
    (Machine.Fires (Traced.next fun t => t.1.body) fun a c => allowed a c.toConcurrent)

/-- The discipline where no cancellation request comes too early. -/
abbrev requested (owner : Uuid → Uuid) : Discipline Db := settlements owner fun m => ¬ m.isRequeue

section Cancel

variable {owner : Uuid → Uuid} {g : Uuid} {db db' : Db} {H : List DbKey} {W : List (Write Db)}

/-- A Generation is stopped from the stage of its cancellation on. -/
theorem stopped_iff : Stopped g db ↔ ∃ row, fetch db (generation g) = some row ∧
    1 ≤ row.state.stage := by
  have hstage : ∀ s : GenerationState, s = .cancelling ∨ s.isTerminal ↔ 1 ≤ s.stage := by
    intro s
    cases s <;> decide
  simp only [Stopped, hstage]

/-- A Generation that a transaction sees stopped stays so. -/
theorem Stopped.env (h : Stopped g (applyAll db W)) (henv : (requested owner).Env H db db') :
    Stopped g (applyAll db' W) := by
  rw [stopped_iff] at h ⊢
  obtain ⟨row, hrow, hstage⟩ := h
  obtain ⟨row', hrow', hle⟩ := henv.rely_applyAll W (generation g) row hrow
  exact ⟨row', hrow', hstage.trans hle⟩

/-- Where the call commits, its Generation is stopped. -/
def Stops (g : Uuid) {α : Type} (v : Verdict α) (_ : List DbKey) (W : List (Write Db))
    (db : Db) : Prop :=
  (∃ a, v = .commit a) → Stopped g (applyAll db W)

/-- A request that runs in time stops the Generation. -/
theorem request_stops (hdb : (requested owner).inv db)
    (hrow : ∃ row, fetch (applyAll db W) (generation g) = some row) :
    Prog.Safe (requested owner) (Stops g) (cancelRunning g) H W db := by
  rw [cancelRunning]
  have hanswer : ∀ {H W db}, (requested owner).inv db → Stopped g (applyAll db W) →
      Prog.Safe (requested owner) (Stops g) (cancelAnswer g) H W db := by
    intro H W db hdb h
    refine safe_bind hdb (safe_read fun s henv t ht => ?_)
    cases fetch (applyAll s W) (generation g) with
    | none => exact fun _ hu _ => ((h.env henv).env ht).env hu
    | some row => exact fun _ hu _ => ((h.env henv).env ht).env hu
  refine safe_bind hdb (safe_labelled_update (fun s row henv _ _ t ht => hanswer ht.inv ?_)
    fun s henv hmay hnone t ht => hanswer ht.inv (Stopped.env ?_ ht))
  · rw [applyAll_append]
    exact ⟨row.withState .cancelling, Database.fetch_store_self .., .inl rfl⟩
  · obtain ⟨row, hrow⟩ := hrow
    obtain ⟨row', hrow', -⟩ := henv.rely_applyAll W (generation g) row hrow
    have hguard : row'.state ≠ .running := by simpa [hrow'] using hnone
    have hqueued : row'.state ≠ .queued := by
      simpa [Mark.inTime, Mark.isRequeue, hrow'] using hmay (by simp [Mark.isRequeue])
    rw [stopped_iff]
    refine ⟨row', hrow', ?_⟩
    revert hguard hqueued
    cases row'.state <;> decide

/-- A call that commits has stopped its Generation. -/
theorem cancelGeneration_stops (now : Time) (hdb : (requested owner).inv db)
    (hrow : ∃ row, fetch db (generation g) = some row) :
    (cancelGeneration g now).Safe (requested owner) (Stops g) [] [] db := by
  refine safe_bind hdb (safe_update (fun s row henv _ _ t ht => ?_) fun s henv _ t ht => ?_)
  · refine safe_bind ht.inv (safe_write fun s' _ ws henv' hws t' ht' => request_stops ht'.inv ?_)
    cases hws
    refine ⟨row.terminated .cancelled now, ?_⟩
    rw [applyAll_append, fetch_applyAll_of_notMem]
    · exact Database.fetch_store_self ..
    · intro w hw
      obtain ⟨e, -, rfl⟩ := List.mem_map.1 hw
      exact nofun
  · obtain ⟨row, hrow⟩ := hrow
    obtain ⟨row', hrow', -⟩ := (henv.trans ht).rely (generation g) row hrow
    exact request_stops ht.inv ⟨row', hrow'⟩

end Cancel

section Calls

variable {ι : Type} {owner : Uuid → Uuid}

/-- Requests in time are what the discipline permits of them. -/
theorem permits_of_requestsInTime {τ : Type} {a : Action ι τ} {c : Concurrent Db ι}
    (h : requestsInTime a c) : (requested owner).Permits a c := by
  cases a with
  | advance i =>
    intro S hS l hl ht
    cases l with
    | requeue g => exact absurd rfl ht
    | requestCancelRunning g =>
      rw [requestsInTime, Option.mem_def.1 hS, Option.all_some, Option.mem_def.1 hl,
        Option.all_some] at h
      exact h
  | _ => trivial

variable [ManifestHash]

/-- A cancellation that commits has stopped its Generation, if there is one; other transactions
    promise nothing. -/
theorem body_cancelStops (t : Txn) {db : Db} (hdb : (requested owner).inv db) :
    t.body.2.Safe (requested owner)
      (fun v _ W db' => CancelStops t db ⟨_, v⟩ db' (Ending.leaves ⟨_, v⟩ db' W)) [] [] db := by
  cases t with
  | cancelGeneration g now =>
    by_cases hrow : ∃ row, fetch db (generation g) = some row
    · refine (cancelGeneration_stops now hdb hrow).mono ?_
      rintro v H W db' - hv g' ⟨⟩ - hcommit
      cases v with
      | commit a => exact hv ⟨a, rfl⟩
      | rollback a => cases hcommit
    · refine safe_of_forall (fun v H W db' => ?_) _
      rintro g' ⟨⟩ hrow'
      exact absurd hrow' hrow
  | _ => exact safe_of_forall (fun _ _ _ _ => nofun) _

variable [Fintype ι] [DecidableEq ι]

/-- In every interleaving in which no cancellation request runs while its Generation is
    queued, a cancellation that commits leaves the Generation cancelling or over, if there
    was one when the call began. -/
theorem cancel_not_lost (owner : Uuid → Uuid) (c : Traced Db ι { t : Txn // t.Draws owner })
    (hc : Calls ι owner (fun a c => requestsInTime a c) c) (e : Call Db { t : Txn // t.Draws owner })
    (he : e ∈ c.log) (g : Uuid) (hcancel : e.txn.1.cancels = some g)
    (hrow : ∃ row, fetch e.began (generation g) = some row)
    (hcommit : ∃ v, e.ending = some v ∧ v.commits) : Stopped g e.left := by
  have hinit : ∀ db, Reaches db ∧ OwnedBy owner db → (requested owner).inv db :=
    fun db hdb => ⟨ReachesBy.sound hdb.1, fun h => absurd rfl (h 0), hdb.2⟩
  have hok : c.Ok (requested owner) fun t => CancelStops t.1 :=
    Traced.ok hinit (fun t => Txn.body_commits t.2) (fun t _ hdb => body_cancelStops t.1 hdb) <|
      hc.mono fun c c' ⟨a, ha, he⟩ => ⟨a, permits_of_requestsInTime ha, he⟩
  obtain ⟨v, hv, hcommit⟩ := hcommit
  exact hok.ended e he v hv g hcancel hrow hcommit

end Calls

/-- A database before any call. -/
def Db.noCalls (ι τ : Type) (db : Db) : Traced Db ι τ := ⟨⟨db, fun _ => none⟩, fun _ => none, []⟩

/-- A run of allowed actions is an interleaving of calls. -/
theorem calls_run [ManifestHash] {ι : Type} [Fintype ι] [DecidableEq ι] {owner : Uuid → Uuid}
    {allowed : Action ι { t : Txn // t.Draws owner } → Concurrent Db ι → Prop} {db : Db}
    (hdb : Reaches db) (ho : OwnedBy owner db)
    (actions : List (Action ι { t : Txn // t.Draws owner }))
    (h : Machine.Allowed (Traced.next fun t => t.1.body) (fun a c => allowed a c.toConcurrent)
      (db.noCalls ι _) actions) :
    Calls ι owner allowed (Machine.run (Traced.next fun t => t.1.body) (db.noCalls ι _) actions) :=
  Machine.reachable_run (.init ⟨⟨hdb, ho⟩, fun _ => rfl, fun _ => rfl, rfl⟩) actions h

namespace Sample

/-- The calls after some actions of the two connections, which begin after the first lease. -/
def called (actions : List TwoConnections) : Traced Db (Fin 2) { t : Txn // t.Draws fun _ => 31 } :=
  Machine.run (Traced.next fun t => @Txn.body manifestHash t.1)
    ((after [firstLease]).noCalls (Fin 2) _) actions

/-- Two connections after the first lease are a run of calls. -/
theorem calls_called {allowed : TwoConnections → Concurrent Db (Fin 2) → Prop}
    (actions : List TwoConnections)
    (h : Machine.Allowed (Traced.next fun t => @Txn.body manifestHash t.1)
      (fun a c => allowed a c.toConcurrent) ((after [firstLease]).noCalls (Fin 2) _) actions) :
    @Calls manifestHash (Fin 2) _ _ (fun _ => 31) allowed (called actions) := by
  have howned : OwnedBy (fun _ => 31) (after [firstLease]) := by decide +kernel
  exact @calls_run manifestHash _ _ _ _ _ _ (reaches_after [firstLease]) howned actions h

/-- A call that cancels the Generation 31, which waits or executes when the call begins,
    and that commits. -/
def isCancel (e : Call Db { t : Txn // t.Draws fun _ => 31 }) : Bool :=
  e.txn.1.cancels =
    some 31 && (fetch e.began (generation 31)).any (fun row => !row.state.isTerminal) &&
    e.ending.any Ending.commits

end Sample

/-- The first update finds the Generation running, it is requeued, and the second finds it
    queued: the call commits, and the Generation is queued. -/
theorem cancel_lost :
    ∃ c : Traced Db (Fin 2) { t : Txn // t.Draws fun _ => 31 },
      @Calls Sample.manifestHash (Fin 2) _ _ (fun _ => 31) (fun _ _ => True) c ∧
      ∃ e ∈ c.log, Sample.isCancel e ∧
        (fetch e.left (generation 31)).map GenerationRow.state = some .queued := by
  let actions : List Sample.TwoConnections :=
    [Sample.cancel, .advance 1, Sample.crash Sample.alpha] ++ List.replicate 10 (.advance 0) ++
      List.replicate 3 (.advance 1)
  have hlog : (Sample.called actions).log.any fun e => Sample.isCancel e &&
      (fetch e.left (generation 31)).map GenerationRow.state = some .queued := by decide +kernel
  obtain ⟨e, he, hcancel⟩ := List.any_eq_true.1 hlog
  obtain ⟨hcancel, hqueued⟩ := Bool.and_eq_true_iff.1 hcancel
  exact ⟨_, Sample.calls_called actions (Machine.allowed_of_forall (fun _ _ => trivial) _ _), e, he,
    hcancel, of_decide_eq_true hqueued⟩

/-- A cancellation between the statements of a report by a Worker that does not hold the
    lease. -/
theorem cancel_not_lost_running :
    let c := Sample.called ([Sample.crash Sample.beta, .advance 0, Sample.cancel, .advance 1,
      .advance 0, .advance 1, .advance 0, .advance 1, .advance 1])
    ∃ e ∈ c.log, Sample.isCancel e ∧ Stopped 31 e.left := by
  let _ := Sample.manifestHash
  let actions : List Sample.TwoConnections := [Sample.crash Sample.beta, .advance 0, Sample.cancel,
    .advance 1, .advance 0, .advance 1, .advance 0, .advance 1, .advance 1]
  have hrun : Machine.Allowed (Traced.next fun t => t.1.body)
      (fun a c => requestsInTime a c.toConcurrent)
      ((Sample.after [Sample.firstLease]).noCalls (Fin 2) _) actions ∧
    (Sample.called actions).log.any Sample.isCancel := by decide +kernel
  obtain ⟨e, he, hcancel⟩ := List.any_eq_true.1 hrun.2
  refine ⟨e, he, hcancel, ?_⟩
  obtain ⟨⟨htxn, hrow⟩, hend⟩ : (e.txn.1.cancels = some 31 ∧
      (fetch e.began (generation 31)).any (fun row => !row.state.isTerminal)) ∧
      e.ending.any Ending.commits := by simpa [Sample.isCancel] using hcancel
  obtain ⟨row, hrow, -⟩ := (Option.any_eq_true _ _).1 hrow
  obtain ⟨v, hv, hcommit⟩ := (Option.any_eq_true _ _).1 hend
  exact cancel_not_lost (fun _ => 31) _ (Sample.calls_called actions hrun.1) e he 31 htxn ⟨row, hrow⟩
    ⟨v, hv, hcommit⟩

end Gpq
