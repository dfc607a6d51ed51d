import Gpq.Lib.ReadCommitted
import Gpq.Lifecycle.Observation

/-!
# Replies to a lease

The scheduler sends `LeaseAssignment` inside the transaction that creates the Attempt, and
commits afterwards. The Worker's reply may be handled in between: its handler works on
committed rows, finds no Attempt, and drops the reply (`reply_dropped`). An
`AttemptRunning` that is dropped leaves the Attempt without a deadline, a `LeaseRejected`
that is dropped keeps its Slot until the lease expires.

An `Exchange` is the scheduler's transaction and the handler's, in any order of their
statements that the message allows. The reply has its effect exactly where the handler
looks for the Attempt when the scheduler's transaction is no longer open
(`reply_kept_iff`).
-/

namespace Gpq

open Sql DbKey

/-- The two transactions. -/
inductive Party
  | scheduler
  | handler
  deriving DecidableEq

instance : Fintype Party := ⟨{.scheduler, .handler}, fun i => by cases i <;> simp⟩

/-- What a Worker replies to a lease before it executes. -/
inductive Reply
  | running
  | rejected
  deriving DecidableEq

/-- A lease and the reply to it. -/
structure Lease where
  assignment : SlotAssignment
  attemptId : Uuid
  /-- When the scheduler assigns it. -/
  leasedAt : Time
  worker : AuthenticatedWorker
  reply : Reply
  /-- When the reply is handled. -/
  handledAt : Time

namespace Lease

variable (x : Lease)

/-- The scheduler's transaction, whose message is delivered. -/
def assign : Transaction Db := ⟨_, tryAssign x.assignment x.attemptId x.leasedAt true⟩

/-- The handler's transaction. -/
def handle : Transaction Db :=
  match x.reply with
  | .running => ⟨_, tryHandleAttemptRunning x.worker x.attemptId x.handledAt⟩
  | .rejected => ⟨_, tryHandleLeaseRejected x.worker x.attemptId x.handledAt⟩

/-- The reply had its effect on the database `db` from before the lease: the Attempt is
    running and its execution timeout has begun, or the Attempt is gone, its Slot is free
    again, and its Generation is queued and will not come back to the Pool. -/
def Kept (db db' : Db) : Prop :=
  match x.reply with
  | .running => ∃ a g, fetch db' (attempt x.attemptId) = some a ∧
      fetch db' (generation x.assignment.generationId) = some g ∧ a.state = .running ∧
      a.executionDeadline = some (x.handledAt + g.executionTimeout)
  | .rejected => fetch db' (attempt x.attemptId) = none ∧
      (fetch db' (devicePool x.assignment.poolId)).map DevicePoolRow.claimedSlots =
        (fetch db (devicePool x.assignment.poolId)).map DevicePoolRow.claimedSlots ∧
      (fetch db' (generation x.assignment.generationId)).map GenerationRow.state = some .queued ∧
      x.assignment.poolId ∈ NativeExclusions.excluded db' x.assignment.generationId

end Lease

/-- The two transactions, whether the lease has left, and whether the reply is here. -/
structure Exchange where
  parties : Concurrent Db Party
  sent : Bool
  received : Bool

/-- What happens next: a statement of the scheduler, or its commit; the reply arrives; a
    statement of the handler, or its commit. -/
inductive ExchangeStep
  | assign
  | receive
  | handle
  deriving DecidableEq

namespace Exchange

/-- A transaction that has only begun. -/
def opened (t : Transaction Db) : Session Db := ⟨t.2, [], []⟩

/-- The scheduler has begun the assignment. -/
def start (x : Lease) (db : Db) : Exchange where
  parties := ⟨db, fun
    | .scheduler => some (opened x.assign)
    | .handler => none⟩
  sent := false
  received := false

/-- The scheduler's transaction is over but for its commit: the lease has left. -/
def delivers (c : Concurrent Db Party) : Bool :=
  (c.session .scheduler).any fun S => S.ending.any Ending.commits

/-- What a step leaves. The reply arrives once, after the lease has left. -/
def next (x : Lease) (s : ExchangeStep) (e : Exchange) : Exchange :=
  match s with
  | .assign =>
    let parties := e.parties.advance .scheduler
    { e with parties, sent := e.sent || delivers parties }
  | .receive =>
    if e.sent && !e.received then
      { e with parties := e.parties.put .handler (some (opened x.handle)), received := true }
    else e
  | .handle => { e with parties := e.parties.advance .handler }

/-- Both transactions are over. -/
def Done (e : Exchange) : Prop := e.received ∧ ∀ i, e.parties.session i = none

/-- The transaction's next statement looks for the Attempt: it holds the Worker's row, and
    not the Attempt. -/
def looksUp (x : Lease) (S : Session Db) : Bool :=
  S.ending.isNone && decide (worker x.worker.workerId ∈ S.held) && decide
    (attempt x.attemptId ∉ S.held)

/-- The step does not look for an Attempt while the scheduler's transaction is open. -/
def notEarly (x : Lease) (s : ExchangeStep) (e : Exchange) : Bool :=
  match s with
  | .handle =>
    !((e.parties.session .scheduler).isSome && (e.parties.session .handler).any (looksUp x))
  | _ => true

end Exchange

/-! ## Each transaction alone -/

namespace Lease

/-- What an assignment that commits leaves. -/
structure Assigned (x : Lease) (db db₁ : Db) : Prop where
  new : fetch db (attempt x.attemptId) = none
  leased : ∃ a : AttemptRow, fetch db₁ (attempt x.attemptId) = some a ∧ a.state = .leased ∧
    a.generationId = x.assignment.generationId ∧ a.workerId = x.assignment.workerId ∧
    a.poolId = x.assignment.poolId ∧ a.leaseExpiresAt = leaseExpiryFrom x.leasedAt
  running : ∃ g g' : GenerationRow, fetch db (generation x.assignment.generationId) = some g ∧
    fetch db₁ (generation x.assignment.generationId) = some g' ∧ g'.state = .running ∧
    g'.acceptedAttemptId = g.acceptedAttemptId
  claimed : ∃ q : DevicePoolRow, fetch db (devicePool x.assignment.poolId) = some q ∧
    q.claimedSlots < q.totalSlots ∧
    fetch db₁ (devicePool x.assignment.poolId) = some q.claim
  others : ∀ k, k ≠ attempt x.attemptId → k ≠ generation x.assignment.generationId →
    k ≠ devicePool x.assignment.poolId → fetch db₁ k = fetch db k

variable {x : Lease} {db db₁ : Db}

/-- What an assignment leaves that commits: the Attempt, the Generation that runs, and the Slot
    that is taken. -/
theorem assign_ensures (x : Lease) (db : Db) :
    (tryAssign x.assignment x.attemptId x.leasedAt true).Ensures ⊤
      (fun v db₁ => v = .commit () → x.Assigned db db₁) db := by
  unfold tryAssign NativeExclusions.excludedPools Workers.claimSlot Attempts.create
    Generations.markRunning Generations.get NativeExclusions.excludedPools
  simp only [Prog.bind_eq, Prog.exec_bind, Prog.pure_eq]
  refine Prog.ensures_read ?_
  split
  · exact nofun
  refine Prog.ensures_update (fun q hq hfree => ⟨trivial, ?_⟩) fun _ => nofun
  have hfree : q.claimedSlots < q.totalSlots := of_decide_eq_true hfree
  simp only [Bool.not_true, Bool.false_eq_true, if_false, Prog.step_bind]
  refine Prog.ensures_lock (fun g hg _ => ?_) fun _ => nofun
  have hg : fetch db (generation x.assignment.generationId) = some g := by simpa using hg
  dsimp only
  split
  · exact nofun
  rename_i hqueued
  have hqueued : g.state = .queued := not_not.1 hqueued
  simp only [Prog.step_bind]
  refine Prog.ensures_read ?_
  split
  · exact nofun
  split
  · exact nofun
  simp only [Prog.step_bind]
  refine Prog.ensures_require fun _ => Prog.ensures_write fun _ ws hws => ⟨fun _ => trivial, ?_⟩
  split at hws
  case isFalse => cases hws
  split at hws
  case isTrue => cases hws
  rename_i hnew
  split at hws
  case isTrue => cases hws
  -- the identifier of the Attempt was free
  have hnew : fetch db (attempt x.attemptId) = none := by
    have hnew := (Bool.or_eq_false_iff.1 (Bool.eq_false_iff.2 hnew)).1
    simpa using hnew
  obtain ⟨a, ha, rfl⟩ : ∃ a : AttemptRow, (a.state = .leased ∧
      a.generationId = x.assignment.generationId ∧ a.workerId = x.assignment.workerId ∧
      a.poolId = x.assignment.poolId ∧ a.leaseExpiresAt = leaseExpiryFrom x.leasedAt) ∧
      ws = [⟨attempt x.attemptId, some a⟩] := by
    cases hws
    exact ⟨_, ⟨rfl, rfl, rfl, rfl, rfl⟩, rfl⟩
  -- the Generation is counted, and then runs
  refine Prog.ensures_update_of_fetch (r := g) (by simpa using hg) rfl trivial ?_
  simp only [Prog.done_bind]
  refine Prog.ensures_update_of_fetch (r := g.counted (g.attemptCount + 1)) (by simp)
    (decide_eq_true hqueued) trivial ?_
  refine Prog.ensures_read ?_
  split
  case h_2 => exact nofun
  refine Prog.ensures_read ?_
  split
  · exact nofun
  rintro -
  refine ⟨hnew, ⟨a, by simp, ha⟩, ⟨g, _, hg, Database.fetch_store_self .., rfl, rfl⟩,
    ⟨q, hq, hfree, by simp⟩, fun k ha hg hp => ?_⟩
  rw [Db.fetch_store_ne _ _ hg, Db.fetch_store_ne _ _ hg, applyAll_cons, applyAll_nil,
    Db.fetch_store_ne _ _ ha, Db.fetch_store_ne _ _ hp]

/-- What is promised of a lease and its reply: the reply comes from the Worker that was
    sent the lease and whose credential is current, it is handled before the lease
    expires, and the Attempt's identifier is drawn anew, so that nothing refers to it. -/
structure Regular (x : Lease) (db : Db) : Prop where
  addressee : x.worker.workerId = x.assignment.workerId
  credential : (fetch db (DbKey.worker x.worker.workerId)).any fun r =>
    r.credentialHash = x.worker.credentialHash && r.revokedAt.isNone
  live : x.handledAt < leaseExpiryFrom x.leasedAt
  unreferenced : Workers.attemptsReferenced db [x.attemptId] = false

/-- What the handler does once the credential is verified. -/
def afterLock (x : Lease) : Transaction Db :=
  match x.reply with
  | .running => ⟨_, do
    if !(← Attempts.markRunning x.attemptId x.worker.workerId x.handledAt) then return .rollback ()
    let some generationId ← Attempts.generationIdOf x.attemptId x.worker.workerId x.handledAt
      | return .rollback ()
    let _ ← Generations.markRunning generationId x.handledAt
    return .commit ()⟩
  | .rejected => ⟨_, do
    return .commit (← Attempts.rejectLease x.attemptId x.worker.workerId x.handledAt)⟩

/-- The handler verifies the credential first. -/
theorem handle_eq (x : Lease) : ∃ refused : Verdict x.afterLock.1, x.handle = ⟨x.afterLock.1,
    .step (@Stmt.lock Db _ (DbKey.worker x.worker.workerId) fun _ => true) fun row =>
      if !(row.any fun r => r.credentialHash = x.worker.credentialHash && r.revokedAt.isNone) then
        .done refused
      else x.afterLock.2⟩ := by
  obtain ⟨assignment, a, leasedAt, w, reply, handledAt⟩ := x
  cases reply
  · exact ⟨.rollback (), rfl⟩
  · exact ⟨.rollback none, rfl⟩

/-- The handler finds no Attempt, and is over. -/
theorem afterLock_dropped (h : fetch db (attempt x.attemptId) = none) :
    ∃ (β : Type) (q : Stmt Db β) (k : β → Body (Verdict x.afterLock.1)) (v : β) (v' : _),
      x.afterLock.2 = .step q k ∧ q.run db = .ok { val := v } ∧ k v = .done v' := by
  obtain ⟨assignment, a, leasedAt, w, reply, handledAt⟩ := x
  have h : fetch db (attempt a) = none := h
  cases reply with
  | running => exact ⟨_, _, _, false, _, rfl, by simp [Stmt.write, Except.map, h], rfl⟩
  | rejected => exact ⟨_, _, _, none, _, rfl, by simp [Stmt.lock, h], rfl⟩

/-- The handler finds the Attempt, and it runs from now on. -/
theorem markRunning_kept (h : x.Assigned db db₁) (hx : x.Regular db) (hreply : x.reply = .running) :
    x.afterLock.2.Yields (fun v db₂ => (∃ a, v = .commit a) ∧ x.Kept db db₂) db₁ := by
  obtain ⟨r, hr, hstate, hgen, hw, -, hexp⟩ := h.leased
  obtain ⟨-, g, -, hg, hrun, -⟩ := h.running
  have hlease : r.leaseExpiresAt > x.handledAt := hexp ▸ hx.live
  have hworker : r.workerId = x.worker.workerId := hw.trans hx.addressee.symm
  obtain ⟨assignment, a, leasedAt, w, reply, handledAt⟩ := x
  obtain rfl : reply = .running := hreply
  dsimp only at hr hgen hg hlease hworker
  let r' : AttemptRow := { r with
    state := .running
    startedAt := some handledAt
    executionDeadline := some (handledAt + g.executionTimeout) }
  have hr' : fetch (store db₁ (attempt a) (some r')) (attempt a) = some r' :=
    Database.fetch_store_self ..
  have hg' : fetch (store db₁ (attempt a) (some r')) (generation assignment.generationId) =
      some g := by
    simpa using hg
  dsimp only [afterLock]
  unfold Attempts.markRunning Attempts.generationIdOf Generations.markRunning
  simp only [Prog.bind_eq, Prog.exec_bind, Prog.pure_eq]
  refine Prog.yields_write (b := true) (w := [⟨attempt a, some r'⟩]) ?_ ?_
  · have hg : fetch db₁ (generation r.generationId) = some g := hgen ▸ hg
    rw [hr, Option.filter_some, if_pos (by simp [hworker, hstate, hlease])]
    dsimp only
    rw [hg]
  · refine Prog.yields_read ?_
    rw [applyAll_cons, applyAll_nil, hr', Option.filter_some,
      if_pos (by simp [r', hworker, hlease, AttemptState.isLive])]
    refine Prog.yields_update_none ?_ (Prog.yields_done ⟨⟨(), rfl⟩, r', g, hr', hg', rfl, rfl⟩)
    have hg' : fetch (store db₁ (attempt a) (some r')) (generation r'.generationId) = some g :=
      hgen ▸ hg'
    rw [hg']
    simp [hrun]

/-- Nothing refers to the new Attempt once it is leased. -/
theorem Assigned.unreferenced (h : x.Assigned db db₁)
    (hx : Workers.attemptsReferenced db [x.attemptId] = false) :
    Workers.attemptsReferenced db₁ [x.attemptId] = false := by
  rw [Workers.attemptsReferenced_eq_false_iff] at hx ⊢
  refine ⟨fun g r hr => ?_, fun i r hr => hx.2 i r ?_⟩
  · by_cases hg : g = x.assignment.generationId
    · subst hg
      obtain ⟨g₀, g₁, hg₀, hg₁, -, hacc⟩ := h.running
      obtain rfl : g₁ = r := Option.some_inj.1 (hg₁.symm.trans hr)
      rw [hacc]
      exact hx.1 _ g₀ hg₀
    · have hother := h.others (generation g) nofun (by simpa using hg) nofun
      exact hx.1 g r (hother.symm.trans hr)
  · exact (h.others (artifact i) nofun nofun nofun).symm.trans hr

/-- The handler finds the Attempt, and takes the lease back. -/
theorem rejectLease_kept (h : x.Assigned db db₁) (hx : x.Regular db) (hreply : x.reply = .rejected) :
    x.afterLock.2.Yields (fun v db₂ => (∃ a, v = .commit a) ∧ x.Kept db db₂) db₁ := by
  obtain ⟨r, hr, hstate, hgen, hw, hpool, hexp⟩ := h.leased
  obtain ⟨-, g, -, hg, hrun, -⟩ := h.running
  obtain ⟨q, hq₀, hfree, hq⟩ := h.claimed
  have hlease : r.leaseExpiresAt > x.handledAt := hexp ▸ hx.live
  have hworker : r.workerId = x.worker.workerId := hw.trans hx.addressee.symm
  have hunref := h.unreferenced hx.unreferenced
  obtain ⟨⟨w₀, p, gid⟩, a, leasedAt, w, reply, handledAt⟩ := x
  obtain rfl : reply = .rejected := hreply
  obtain rfl : r.generationId = gid := hgen
  obtain rfl : r.poolId = p := hpool
  dsimp only at hr hg hq hlease hworker hunref
  dsimp only [afterLock]
  unfold Attempts.rejectLease
  simp only [Prog.bind_eq, Prog.exec_bind, Prog.pure_eq]
  refine Prog.yields_lock hr (by simp [hworker, hstate]) ?_
  simp only [Prog.step_bind, not_le.2 hlease, if_false]
  refine Prog.yields_lock hg rfl ?_
  simp only [Option.map_some, hrun, ne_eq, not_true, if_false]
  unfold NativeExclusions.recordPreexecutionRejection Workers.releaseSlot Attempts.delete
  simp only [Prog.bind_eq, Prog.exec_bind, Prog.step_bind]
  obtain ⟨b, ws, hws, hrec⟩ := NativeExclusions.exists_recorded hg hq
  refine Prog.yields_write hws ?_
  -- only the record of the rejection differs from here on
  have hsame : ∀ k, k ≠ rejection r.generationId r.poolId → fetch (applyAll db₁ ws) k = fetch db₁ k :=
    fun k hk => fetch_applyAll_of_notMem db₁ fun w hw hwk =>
      hk (hwk ▸ NativeExclusions.recorded_eq_ok hws w hw)
  have hunref : Workers.attemptsReferenced (applyAll db₁ ws) [a] = false := by
    rw [Workers.attemptsReferenced_eq_false_iff] at hunref ⊢
    exact ⟨fun g r hr => hunref.1 g r ((hsame (generation g) (by simp)).symm.trans hr),
      fun i r hr => hunref.2 i r ((hsame (artifact i) (by simp)).symm.trans hr)⟩
  refine Prog.yields_write (b := ()) (w := [⟨attempt a, none⟩]) ?_ ?_
  · rw [hsame (attempt a) (by simp), hr, Option.filter_some, if_pos (by simp [hworker, hstate])]
    dsimp only
    rw [hunref]
    rfl
  refine Prog.yields_update (r := q.claim) (by simp [hsame, hq]) rfl ?_
  simp only [Prog.pure_eq, Prog.done_bind, Prog.step_bind]
  refine Prog.yields_update (r := g) (by simp [hsame, hg]) (by simp [hrun]) (Prog.yields_done ?_)
  refine ⟨⟨_, rfl⟩, by simp, ?_, by simp, excluded_life_iff.1 (.inl ?_)⟩
  · have hq₀ : fetch db (devicePool r.poolId) = some q := hq₀
    simp [hq₀, DevicePoolRow.release, DevicePoolRow.claim, hfree]
  · simpa [life] using hrec

theorem afterLock_kept (h : x.Assigned db db₁) (hx : x.Regular db) :
    x.afterLock.2.Yields (fun v db₂ => (∃ a, v = .commit a) ∧ x.Kept db db₂) db₁ := by
  cases hreply : x.reply with
  | running => exact markRunning_kept h hx hreply
  | rejected => exact rejectLease_kept h hx hreply

/-- A reply that is handled after the commit is kept. -/
theorem handle_kept (h : x.Assigned db db₁) (hx : x.Regular db) :
    x.handle.2.Yields (fun v db₂ => (∃ a, v = .commit a) ∧ x.Kept db db₂) db₁ := by
  have hcred := hx.credential
  rw [← h.others (DbKey.worker x.worker.workerId) nofun nofun nofun] at hcred
  obtain ⟨row, hrow, hcur⟩ := (Option.any_eq_true _ _).1 hcred
  obtain ⟨refused, heq⟩ := x.handle_eq
  rw [heq]
  refine Prog.yields_lock hrow rfl ?_
  simp only [Option.any_some, hcur, Bool.not_true, Bool.false_eq_true, if_false]
  exact afterLock_kept h hx

/-- An Attempt that is leased shows that the reply had no effect. -/
theorem not_kept_of_leased
    (h : (fetch db₁ (attempt x.attemptId)).map AttemptRow.state = some .leased) :
    ¬ x.Kept db db₁ := by
  obtain ⟨r, hr, hstate⟩ := Option.map_eq_some_iff.1 h
  unfold Kept
  cases x.reply with
  | running =>
    rintro ⟨a, g, ha, -, hrun, -⟩
    obtain rfl : a = r := Option.some_inj.1 (ha.symm.trans hr)
    rw [hstate] at hrun
    cases hrun
  | rejected =>
    rintro ⟨hnone, -⟩
    rw [hr] at hnone
    cases hnone

theorem Assigned.not_kept (h : x.Assigned db db₁) : ¬ x.Kept db db₁ := by
  obtain ⟨r, hr, hstate, -⟩ := h.leased
  exact not_kept_of_leased (hr ▸ congrArg some hstate)

end Lease

/-! ## The two together -/

namespace Exchange

/-- The lease has left, and is not committed. -/
structure Uncommitted (x : Lease) (db : Db) (e : Exchange) (S : Session Db) : Prop where
  committed : e.parties.committed = db
  session : e.parties.session .scheduler = some S
  ending : ∃ v, S.ending = some v ∧ v.commits
  assigned : x.Assigned db (S.view db)

/-- The handler has nothing to do any more but to end. -/
def Idle (e : Exchange) : Prop :=
  ∀ T, e.parties.session .handler = some T → (∃ v, T.ending = some v) ∧ T.writes = []

/-- Where the exchange stands; `ok` says that the handler has not looked for the Attempt too
    early. -/
inductive Stands (x : Lease) (db : Db) (ok : Prop) (e : Exchange) : Prop
  /-- The scheduler is at work. -/
  | assigning (S : Session Db) (hok : ok) (hdb : e.parties.committed = db)
      (hs : e.parties.session .scheduler = some S)
      (hS : S.result db = (opened x.assign).result db) (hh : e.parties.session .handler = none)
      (hsent : e.sent → S.ending.any Ending.commits) (hr : e.received = false)
  /-- The scheduler has given up. -/
  | dropped (hs : e.parties.session .scheduler = none) (hh : e.parties.session .handler = none)
      (hsent : e.sent = false) (hr : e.received = false)
  /-- The lease is committed, and the reply is not here. -/
  | waiting (hok : ok) (h : x.Assigned db e.parties.committed)
      (hs : e.parties.session .scheduler = none) (hh : e.parties.session .handler = none)
      (hr : e.received = false)
  /-- The lease is not committed, and the handler verifies the credential. -/
  | opening (S : Session Db) (hok : ok) (hu : Uncommitted x db e S)
      (hh : e.parties.session .handler = some (opened x.handle)) (hr : e.received)
  /-- The lease is not committed, and the handler looks for the Attempt next. -/
  | verified (S : Session Db) (hok : ok) (hu : Uncommitted x db e S)
      (hh : e.parties.session .handler = some ⟨x.afterLock.2, [worker x.worker.workerId], []⟩)
      (hr : e.received)
  /-- The lease is not committed, and the handler has dropped the reply. -/
  | early (S : Session Db) (hok : ¬ ok) (hu : Uncommitted x db e S) (hh : e.Idle) (hr : e.received)
  /-- The lease is committed, and the handler is at work. -/
  | handling (S : Session Db) (hok : ok) (hs : e.parties.session .scheduler = none)
      (hh : e.parties.session .handler = some S)
      (hS : ∃ v db₂, S.result e.parties.committed = .ok (v, db₂) ∧ v.commits ∧ x.Kept db db₂)
      (hr : e.received)
  /-- The reply had its effect. -/
  | kept (hok : ok) (h : x.Kept db e.parties.committed) (hs : e.parties.session .scheduler = none)
      (hh : e.parties.session .handler = none) (hr : e.received)
  /-- The lease is committed, and the handler has dropped the reply. -/
  | lost (hok : ¬ ok) (h : ¬ x.Kept db e.parties.committed)
      (hs : e.parties.session .scheduler = none) (hh : e.Idle) (hr : e.received)

section Steps

variable {x : Lease} {db : Db} {ok : Prop} {e : Exchange}

theorem held_of_none {i : Party} (h : e.parties.session i = none) : e.parties.held i = [] := by
  rw [Concurrent.held, h]
  rfl

/-- A transaction that is over comes to what it sees. -/
theorem result_of_ending {S : Session Db} {v : Ending} (h : S.ending = some v) :
    S.result db = .ok (v, S.view db) := by
  obtain ⟨rest, H, W⟩ := S
  cases rest with
  | done v' =>
    cases h
    rfl
  | step q k => cases h

/-- What the scheduler's transaction comes to is what it leaves. -/
theorem assigned_of_result {S : Session Db} {v : Ending}
    (hS : S.result db = (opened x.assign).result db)
    (hv : S.ending = some v) (hc : v.commits) : x.Assigned db (S.view db) := by
  rw [result_of_ending hv, Session.result] at hS
  cases hrun : (opened x.assign).rest.run ((opened x.assign).view db) with
  | error err =>
    rw [hrun] at hS
    cases hS
  | ok r =>
    rw [hrun] at hS
    obtain ⟨v', db'⟩ := r
    obtain ⟨rfl, hview⟩ : v = ⟨_, v'⟩ ∧ S.view db = db' := by simpa [Except.map] using hS
    rw [hview]
    refine (Lease.assign_ensures x db).of_run hrun ?_
    cases v' with
    | commit a => rfl
    | rollback a => cases hc

/-- The rest of the handler, which finds the Attempt, comes to an end where the reply has its
    effect. -/
theorem result_of_yields {t : Transaction Db} {db₁ : Db} {H : List DbKey}
    (h : t.2.Yields (fun v db₂ => (∃ a, v = .commit a) ∧ x.Kept db db₂) db₁) :
    ∃ v db₂, Session.result (σ := Db) ⟨t.2, H, []⟩ db₁ = .ok (v, db₂) ∧ v.commits ∧
      x.Kept db db₂ := by
  obtain ⟨v, db₂, hrun, ⟨a, rfl⟩, hkept⟩ := h
  refine ⟨⟨_, .commit a⟩, db₂, ?_, rfl, hkept⟩
  rw [Session.result, Session.view, applyAll_nil, hrun]
  rfl

theorem delivers_of_none {c : Concurrent Db Party} (h : c.session .scheduler = none) :
    delivers c = false := by
  rw [delivers, h]
  rfl

@[simp]
theorem handler_put_scheduler (c : Concurrent Db Party) (S : Option (Session Db)) :
    (c.put .scheduler S).session .handler = c.session .handler :=
  Concurrent.session_put_of_ne (by decide) S

@[simp]
theorem scheduler_put_handler (c : Concurrent Db Party) (S : Option (Session Db)) :
    (c.put .handler S).session .scheduler = c.session .scheduler :=
  Concurrent.session_put_of_ne (by decide) S

/-- The lease is committed. -/
theorem Uncommitted.advance {S : Session Db} (hu : Uncommitted x db e S) :
    (e.parties.advance .scheduler).committed = S.view db ∧
      (e.parties.advance .scheduler).session .scheduler = none ∧
      (e.parties.advance .scheduler).session .handler = e.parties.session .handler := by
  obtain ⟨v, hv, hc⟩ := hu.ending
  have hsession := Concurrent.session_advance_of_ending hu.session hv
  refine ⟨?_, (hsession _).trans (Concurrent.session_put_self ..),
    (hsession _).trans (handler_put_scheduler ..)⟩
  rw [Concurrent.advance_of_ending hu.session hv, Ending.leaves, if_pos hc, hu.committed]
  rfl

/-- A step of the scheduler. -/
theorem stands_assign (h : Stands x db ok e) (hx : x.Regular db) :
    Stands x db ok (next x .assign e) := by
  have hnone : e.parties.session .scheduler = none → next x .assign e = e := by
    intro hs
    have hsame : e.parties.advance .scheduler = e.parties := by rw [Concurrent.advance, hs]
    rw [next, hsame, delivers_of_none hs, Bool.or_false]
  cases h with
  | assigning S hok hdb hs hS hh hsent hr =>
    cases hend : S.ending with
    | none =>
      have hsent : e.sent = false := by simpa [hend] using hsent
      -- its next statement is executed, or the assignment is dropped
      obtain ⟨S', hS', hres⟩ | ⟨err, -, hS'⟩ := Concurrent.advance_alone hs hend fun j hj => by
        cases j with
        | scheduler => exact absurd rfl hj
        | handler => exact held_of_none hh
      · rw [hdb, hS] at hres
        have hs' : (e.parties.advance .scheduler).session .scheduler = some S' := by
          rw [hS', Concurrent.session_put_self]
        refine .assigning S' hok ?_ hs' hres ?_ ?_ hr
        · exact (congrArg Concurrent.committed hS').trans hdb
        · exact (congrArg (Concurrent.session · .handler) hS').trans
            ((handler_put_scheduler ..).trans hh)
        · rw [next, hsent, Bool.false_or, delivers, hs']
          exact id
      · have hs' : (e.parties.advance .scheduler).session .scheduler = none := by
          rw [hS', Concurrent.session_put_self]
        refine .dropped hs' ?_ ?_ hr
        · exact (congrArg (Concurrent.session · .handler) hS').trans
            ((handler_put_scheduler ..).trans hh)
        · rw [next, hsent, Bool.false_or]
          exact delivers_of_none hs'
    | some v =>
      have hadv := Concurrent.advance_of_ending hs hend
      have hsession := Concurrent.session_advance_of_ending hs hend
      have hs' := (hsession .scheduler).trans (Concurrent.session_put_self ..)
      have hh' := (hsession .handler).trans ((handler_put_scheduler ..).trans hh)
      -- the assignment ends: by a commit, or not
      by_cases hc : v.commits
      · refine .waiting hok ?_ hs' hh' hr
        have hcom : (e.parties.advance .scheduler).committed = S.view db := by
          rw [hadv, Ending.leaves, if_pos hc, hdb]
          rfl
        exact hcom.symm ▸ assigned_of_result hS hend hc
      · have hsent : e.sent = false := by simpa [hend, hc] using hsent
        refine .dropped hs' hh' ?_ hr
        rw [next, hsent, Bool.false_or]
        exact delivers_of_none hs'
  | dropped hs hh hsent hr => exact (hnone hs).symm ▸ .dropped hs hh hsent hr
  | waiting hok h hs hh hr => exact (hnone hs).symm ▸ .waiting hok h hs hh hr
  | opening S hok hu hh hr =>
    obtain ⟨hcom, hs', hh'⟩ := hu.advance
    refine .handling _ hok hs' (hh'.trans hh) ?_ hr
    exact hcom.symm ▸ result_of_yields (Lease.handle_kept hu.assigned hx)
  | verified S hok hu hh hr =>
    obtain ⟨hcom, hs', hh'⟩ := hu.advance
    refine .handling _ hok hs' (hh'.trans hh) ?_ hr
    exact hcom.symm ▸ result_of_yields (Lease.afterLock_kept hu.assigned hx)
  | early S hok hu hh hr =>
    obtain ⟨hcom, hs', hh'⟩ := hu.advance
    refine .lost hok ?_ hs' (fun T hT => hh T (hh'.symm.trans hT)) hr
    exact hcom.symm ▸ hu.assigned.not_kept
  | handling S hok hs hh hS hr => exact (hnone hs).symm ▸ .handling S hok hs hh hS hr
  | kept hok h hs hh hr => exact (hnone hs).symm ▸ .kept hok h hs hh hr
  | lost hok h hs hh hr => exact (hnone hs).symm ▸ .lost hok h hs hh hr

/-- The reply arrives: a handler is opened for it, before or after the commit. -/
theorem stands_receive (h : Stands x db ok e) (hx : x.Regular db) :
    Stands x db ok (next x .receive e) := by
  have hnone : e.received → next x .receive e = e := by
    intro hr
    rw [next, hr]
    simp
  cases h with
  | assigning S hok hdb hs hS hh hsent hr =>
    by_cases hs' : e.sent
    · obtain ⟨v, hv, hc⟩ := (Option.any_eq_true _ _).1 (hsent hs')
      have hnext : next x .receive e =
          { e with parties :=
              e.parties.put .handler (some (opened x.handle)), received := true } := by
        simp [next, hs', hr]
      rw [hnext]
      refine .opening S hok ⟨hdb, ?_, ⟨v, hv, hc⟩, assigned_of_result hS hv hc⟩ ?_ rfl
      · exact (scheduler_put_handler ..).trans hs
      · exact Concurrent.session_put_self ..
    · have hnext : next x .receive e = e := by simp [next, hs']
      exact hnext.symm ▸ .assigning S hok hdb hs hS hh hsent hr
  | dropped hs hh hsent hr =>
    have hnext : next x .receive e = e := by simp [next, hsent]
    exact hnext.symm ▸ .dropped hs hh hsent hr
  | waiting hok h hs hh hr =>
    by_cases hs' : e.sent
    · have hnext : next x .receive e =
          { e with parties := e.parties.put .handler (some (opened x.handle)), received :=
              true } := by
        simp [next, hs', hr]
      rw [hnext]
      refine .handling (opened x.handle) hok ?_ ?_ (result_of_yields (Lease.handle_kept h hx)) rfl
      · exact (scheduler_put_handler ..).trans hs
      · exact Concurrent.session_put_self ..
    · have hnext : next x .receive e = e := by simp [next, hs']
      exact hnext.symm ▸ .waiting hok h hs hh hr
  | opening S hok hu hh hr => exact (hnone hr).symm ▸ .opening S hok hu hh hr
  | verified S hok hu hh hr => exact (hnone hr).symm ▸ .verified S hok hu hh hr
  | early S hok hu hh hr => exact (hnone hr).symm ▸ .early S hok hu hh hr
  | handling S hok hs hh hS hr => exact (hnone hr).symm ▸ .handling S hok hs hh hS hr
  | kept hok h hs hh hr => exact (hnone hr).symm ▸ .kept hok h hs hh hr
  | lost hok h hs hh hr => exact (hnone hr).symm ▸ .lost hok h hs hh hr

theorem Stands.congr {ok' : Prop} (h : Stands x db ok e) (hok : ok ↔ ok') : Stands x db ok' e :=
  propext hok ▸ h

/-- The handler is not about to look for the Attempt. -/
theorem notEarly_of_looksUp (h : ∀ T, e.parties.session .handler = some T → looksUp x T = false) :
    notEarly x .handle e = true := by
  rw [notEarly]
  cases hT : e.parties.session .handler with
  | none => simp
  | some T => simp [h T hT]

theorem notEarly_of_committed (hs : e.parties.session .scheduler = none) :
    notEarly x .handle e = true := by
  rw [notEarly, hs]
  rfl

/-- A handler that dropped the reply ends, and changes nothing. -/
theorem Idle.advance (hh : e.Idle) :
    (e.parties.advance .handler).committed = e.parties.committed ∧
      (e.parties.advance .handler).session .scheduler = e.parties.session .scheduler ∧
      (next x .handle e).Idle := by
  cases hT : e.parties.session .handler with
  | none =>
    have hsame : e.parties.advance .handler = e.parties := by rw [Concurrent.advance, hT]
    refine ⟨by rw [hsame], by rw [hsame], fun T hT' => hh T ?_⟩
    rw [← hT', next, hsame]
  | some T =>
    obtain ⟨⟨v, hv⟩, hws⟩ := hh T hT
    have hsession := Concurrent.session_advance_of_ending hT hv
    refine ⟨?_, (hsession _).trans (scheduler_put_handler ..), fun T' hT' => ?_⟩
    · rw [Concurrent.advance_of_ending hT hv, Ending.leaves, hws, applyAll_nil, ite_self]
    · have hnone := (hsession .handler).trans (Concurrent.session_put_self ..)
      cases hnone.symm.trans hT'

/-- The handler verifies the credential, or waits for the Worker's row. -/
theorem advance_opened (hx : x.Regular db) (hdb : e.parties.committed = db)
    (hh : e.parties.session .handler = some (opened x.handle)) :
    e.parties.advance .handler = e.parties ∨ e.parties.advance .handler =
      e.parties.put .handler (some ⟨x.afterLock.2, [worker x.worker.workerId], []⟩) := by
  obtain ⟨row, hrow, hcur⟩ := (Option.any_eq_true _ _).1 hx.credential
  obtain ⟨refused, heq⟩ := x.handle_eq
  rw [heq] at hh
  have hlock : (@Stmt.lock Db _ (worker x.worker.workerId) fun _ => true).run
      (applyAll e.parties.committed []) =
        .ok { val := some row, locks := [worker x.worker.workerId] } := by
    simp only [Stmt.lock, applyAll_nil, hdb, hrow]
    rfl
  rw [Concurrent.advance_of_run hh hlock]
  split
  · refine .inr ?_
    simp only [Option.any_some, hcur, Bool.not_true, Bool.false_eq_true, if_false]
    rfl
  · exact .inl rfl

/-- The handler finds no committed Attempt, and drops the reply. -/
theorem advance_verified (hnew : fetch e.parties.committed (attempt x.attemptId) = none)
    (hh : e.parties.session .handler = some ⟨x.afterLock.2, [worker x.worker.workerId], []⟩) :
    ∃ v : Verdict x.afterLock.1, e.parties.advance .handler =
      e.parties.put .handler (some ⟨.done v, [worker x.worker.workerId], []⟩) := by
  obtain ⟨β, q, k, v, v', heq, hrun, hk⟩ := Lease.afterLock_dropped hnew
  rw [heq] at hh
  refine ⟨v', ?_⟩
  rw [Concurrent.advance_of_run hh hrun, hk]
  exact if_pos fun _ _ _ => nofun

/-- The lease is not committed, and the handler looks for the Attempt. -/
theorem notEarly_eq_false {S : Session Db} (hnew : fetch db (attempt x.attemptId) = none)
    (hs : e.parties.session .scheduler = some S)
    (hh : e.parties.session .handler = some ⟨x.afterLock.2, [worker x.worker.workerId], []⟩) :
    notEarly x .handle e = false := by
  obtain ⟨β, q, k, v, v', heq, -⟩ := Lease.afterLock_dropped hnew
  rw [notEarly, hs, hh, heq]
  simp [looksUp, Session.ending]

/-- The handler verifies the credential while the lease is not committed. -/
theorem stands_opening (hx : x.Regular db) {S : Session Db} (hok : ok) (hu : Uncommitted x db e S)
    (hh : e.parties.session .handler = some (opened x.handle)) (hr : e.received) :
    Stands x db (ok ∧ notEarly x .handle e) (next x .handle e) := by
  have hok : ok ∧ notEarly x .handle e := by
    refine ⟨hok, notEarly_of_looksUp fun T hT => ?_⟩
    obtain rfl : opened x.handle = T := Option.some_inj.1 (hh.symm.trans hT)
    simp [looksUp, opened]
  obtain hadv | hadv := advance_opened hx hu.committed hh
  · have hsame : next x .handle e = e := by rw [next, hadv]
    rw [hsame]
    exact .opening S hok hu hh hr
  · refine .verified S hok ⟨?_, ?_, hu.ending, hu.assigned⟩ ?_ hr
    · exact (congrArg Concurrent.committed hadv).trans hu.committed
    · exact (congrArg (Concurrent.session · .scheduler) hadv).trans
        ((scheduler_put_handler ..).trans hu.session)
    · exact (congrArg (Concurrent.session · .handler) hadv).trans (Concurrent.session_put_self ..)

/-- The handler looks for the Attempt before the lease is committed, and drops the reply. -/
theorem stands_verified {S : Session Db} (hu : Uncommitted x db e S)
    (hh : e.parties.session .handler = some ⟨x.afterLock.2, [worker x.worker.workerId], []⟩)
    (hr : e.received) : Stands x db (ok ∧ notEarly x .handle e) (next x .handle e) := by
  obtain ⟨v, hadv⟩ := advance_verified (hu.committed.symm ▸ hu.assigned.new) hh
  refine .early S (fun h => ?_) ⟨?_, ?_, hu.ending, hu.assigned⟩ (fun T hT => ?_) hr
  · rw [notEarly_eq_false hu.assigned.new hu.session hh] at h
    cases h.2
  · exact (congrArg Concurrent.committed hadv).trans hu.committed
  · exact (congrArg (Concurrent.session · .scheduler) hadv).trans
      ((scheduler_put_handler ..).trans hu.session)
  · have hT' := (congrArg (Concurrent.session · .handler) hadv).trans (Concurrent.session_put_self ..)
    obtain rfl := Option.some_inj.1 (hT'.symm.trans hT)
    exact ⟨⟨_, rfl⟩, rfl⟩

/-- The handler goes on once the lease is committed, and ends as it would alone. -/
theorem stands_handling {S : Session Db} (hok : ok) (hs : e.parties.session .scheduler = none)
    (hh : e.parties.session .handler = some S)
    (hS : ∃ v db₂, S.result e.parties.committed = .ok (v, db₂) ∧ v.commits ∧ x.Kept db db₂)
    (hr : e.received) : Stands x db ok (next x .handle e) := by
  obtain ⟨v, db₂, hres, hc, hkept⟩ := hS
  cases hend : S.ending with
  | none =>
    obtain ⟨S', hS', hres'⟩ | ⟨err, herr, -⟩ := Concurrent.advance_alone hh hend fun j hj => by
      cases j with
      | scheduler => exact held_of_none hs
      | handler => exact absurd rfl hj
    · refine .handling S' hok ?_ ?_ ⟨v, db₂, ?_, hc, hkept⟩ hr
      · exact (congrArg (Concurrent.session · .scheduler) hS').trans
          ((scheduler_put_handler ..).trans hs)
      · exact (congrArg (Concurrent.session · .handler) hS').trans (Concurrent.session_put_self ..)
      · have hcom : (next x .handle e).parties.committed = e.parties.committed :=
          (congrArg Concurrent.committed hS').trans rfl
        rw [hcom, hres', hres]
    · cases hres.symm.trans herr
  | some v' =>
    have hsession := Concurrent.session_advance_of_ending hh hend
    rw [result_of_ending hend] at hres
    obtain ⟨rfl, rfl⟩ : v' = v ∧ S.view e.parties.committed = db₂ := by simpa using hres
    refine .kept hok ?_ ((hsession _).trans ((scheduler_put_handler ..).trans hs))
      ((hsession _).trans (Concurrent.session_put_self ..)) hr
    have hcom : (e.parties.advance .handler).committed = S.view e.parties.committed := by
      rw [Concurrent.advance_of_ending hh hend, Ending.leaves, if_pos hc]
      rfl
    exact hcom.symm ▸ hkept

/-- A step of the handler. -/
-- early S hok hu hh hr => | it looked the Attempt up too early, and goes on without it
theorem stands_handle (h : Stands x db ok e) (hx : x.Regular db) :
    Stands x db (ok ∧ notEarly x .handle e) (next x .handle e) := by
  have hnone : e.parties.session .handler = none → next x .handle e = e := by
    intro hh
    have hsame : e.parties.advance .handler = e.parties := by rw [Concurrent.advance, hh]
    rw [next, hsame]
  have hidle : e.parties.session .handler = none → notEarly x .handle e = true :=
    fun hh => notEarly_of_looksUp fun T hT => by cases hh.symm.trans hT
  cases h with
  | assigning S hok hdb hs hS hh hsent hr =>
    rw [hnone hh]
    exact .assigning S ⟨hok, hidle hh⟩ hdb hs hS hh hsent hr
  | dropped hs hh hsent hr =>
    rw [hnone hh]
    exact .dropped hs hh hsent hr
  | waiting hok h hs hh hr =>
    rw [hnone hh]
    exact .waiting ⟨hok, hidle hh⟩ h hs hh hr
  | kept hok h hs hh hr =>
    rw [hnone hh]
    exact .kept ⟨hok, hidle hh⟩ h hs hh hr
  | opening S hok hu hh hr => exact stands_opening hx hok hu hh hr
  | verified S hok hu hh hr => exact stands_verified hu hh hr
  | handling S hok hs hh hS hr => exact stands_handling ⟨hok, notEarly_of_committed hs⟩ hs hh hS hr
  | early S hok hu hh hr =>
    obtain ⟨hcom, hs', hidle⟩ := hh.advance
    exact .early S (fun h => hok h.1) ⟨hcom.trans hu.committed, hs'.trans hu.session, hu.ending,
      hu.assigned⟩
      hidle hr
  | lost hok h hs hh hr =>
    obtain ⟨hcom, hs', hidle⟩ := hh.advance
    exact .lost (fun h => hok h.1) (by simpa [next, hcom] using h) (hs'.trans hs) hidle hr

/-- Every run of an exchange. -/
theorem stands_run (hx : x.Regular db) (steps : List ExchangeStep) (h : Stands x db ok e) :
    Stands x db (ok ∧ Machine.Allowed (next x) (fun s e => notEarly x s e) e steps)
      (Machine.run (next x) e steps) := by
  induction steps generalizing ok e with
  | nil => exact h.congr (by simp [Machine.Allowed])
  | cons s steps ih =>
    have hstep : Stands x db (ok ∧ notEarly x s e) (next x s e) := by
      cases s with
      | assign => exact (stands_assign h hx).congr (by simp [notEarly])
      | receive => exact (stands_receive h hx).congr (by simp [notEarly])
      | handle => exact stands_handle h hx
    exact (ih hstep).congr and_assoc

theorem stands_start (x : Lease) (db : Db) : Stands x db True (start x db) :=
  .assigning (opened x.assign) trivial rfl rfl rfl rfl nofun rfl

end Steps

end Exchange

open Exchange in
/-- The reply to a lease has its effect exactly where the handler does not look for the
    Attempt while the scheduler's transaction is open. -/
theorem reply_kept_iff (x : Lease) (db : Db) (hx : x.Regular db) (steps : List ExchangeStep)
    (hdone : (Machine.run (next x) (start x db) steps).Done) :
    x.Kept db (Machine.run (next x) (start x db) steps).parties.committed ↔
      Machine.Allowed (next x) (fun s e => notEarly x s e) (start x db) steps := by
  obtain ⟨hrec, hover⟩ := hdone
  have h := (stands_run hx steps (stands_start x db)).congr (iff_of_eq (true_and _))
  cases h with
  | kept hok h => exact ⟨fun _ => hok, fun _ => h⟩
  | lost hok h => exact ⟨fun hk => absurd hk h, fun h => absurd h hok⟩
  | assigning S hok hdb hs => cases (hover .scheduler).symm.trans hs
  | dropped hs hh hsent hr => cases hrec.symm.trans hr
  | waiting hok h hs hh hr => cases hrec.symm.trans hr
  | opening S hok hu => cases (hover .scheduler).symm.trans hu.session
  | verified S hok hu => cases (hover .scheduler).symm.trans hu.session
  | early S hok hu => cases (hover .scheduler).symm.trans hu.session
  | handling S hok hs hh => cases (hover .handler).symm.trans hh

namespace Sample

/-- The first lease, and a reply to it. -/
def replied (reply : Reply) : Lease := ⟨⟨11, 21, 31⟩, 41, 0, alpha, reply, 5⟩

theorem replied_regular (reply : Reply) : (replied reply).Regular (after []) := by
  have hdb : ((fetch (after []) (worker alpha.workerId)).any fun r =>
      r.credentialHash = alpha.credentialHash && r.revokedAt.isNone) ∧
      Workers.attemptsReferenced (after []) [41] = false := by decide +kernel
  exact ⟨rfl, hdb.1, show (5 : Time) < leaseExpiryFrom 0 by decide, hdb.2⟩

/-- The exchange after some steps. -/
def exchanged (reply : Reply) (steps : List ExchangeStep) : Exchange :=
  Machine.run (Exchange.next (replied reply)) (Exchange.start (replied reply) (after [])) steps

end Sample

/-- The handler looks for the Attempt before the scheduler commits: the Attempt is leased
    when both are done. -/
theorem reply_dropped :
    let db := Sample.after []
    @Reaches Sample.manifestHash db ∧ ∃ steps, ∀ reply,
      (Sample.replied reply).Regular db ∧ (Sample.exchanged reply steps).Done ∧
      ¬ (Sample.replied reply).Kept db (Sample.exchanged reply steps).parties.committed := by
  let steps : List ExchangeStep := List.replicate 9 .assign ++
    [.receive, .handle, .handle, .handle, .assign]
  have hrun : ∀ reply, reply = .running ∨ reply = .rejected →
      (Sample.exchanged reply steps).received ∧
      (∀ i, (Sample.exchanged reply steps).parties.session i = none) ∧
      (fetch (Sample.exchanged reply steps).parties.committed (attempt 41)).map AttemptRow.state =
        some .leased := by
    rintro reply (rfl | rfl) <;> decide +kernel
  refine ⟨Sample.reaches_after [], steps, fun reply => ⟨Sample.replied_regular reply, ?_⟩⟩
  obtain ⟨hrec, hover, hleased⟩ := hrun reply (by cases reply <;> simp)
  exact ⟨⟨hrec, hover⟩, Lease.not_kept_of_leased hleased⟩

/-- The scheduler commits while the handler verifies the credential. -/
theorem reply_kept_iff_verified :
    let steps : List ExchangeStep := List.replicate 9 .assign ++ [.receive, .handle, .assign] ++
      List.replicate 9 .handle
    (Sample.replied .rejected).Kept (Sample.after [])
      (Sample.exchanged .rejected steps).parties.committed := by
  intro steps
  have hrun : ((Sample.exchanged .rejected steps).received ∧
      ∀ i, (Sample.exchanged .rejected steps).parties.session i = none) ∧
      Machine.Allowed (Exchange.next (Sample.replied .rejected))
        (fun s e => Exchange.notEarly (Sample.replied .rejected) s e)
        (Exchange.start (Sample.replied .rejected) (Sample.after [])) steps := by decide +kernel
  have hdone : (Sample.exchanged .rejected steps).Done := hrun.1
  exact (reply_kept_iff _ _ (Sample.replied_regular .rejected) steps hdone).2 hrun.2

end Gpq
