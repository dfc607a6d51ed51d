import Gpq.Lifecycle.Observation

/-!
# Transactions refine the lifecycle

Every transaction that commits moves `life` by lifecycle steps, or leaves it
alone:

  * `Op.core`: a transaction that is neither an acknowledgement nor a report moves
    it by core steps;
  * `cancelAcknowledged_life`: an acknowledgement moves it by a core step or is a
    late one;
  * capability reports follow in `Gpq.Lifecycle.Reports`.
-/

namespace Gpq

open Function Sql DbKey

/-! ## Settlements -/

/-- The retry policy's requeue, of a Generation that is not cancelling. -/
theorem Settles.requeued {s : GenerationState} (h : s ≠ .cancelling) :
    Settles s (if s = .running then .queued else s) := by
  cases s with
  | running => exact .requeue
  | cancelling => exact absurd rfl h
  | _ => exact .none (by decide)

/-- The retry policy's failure. -/
theorem Settles.failed (s : GenerationState) :
    Settles s (if (s = .queued ∨ s = .running) ∨ s = .cancelling then .failed else s) := by
  cases s with
  | queued | running | cancelling => exact .fail (by decide)
  | _ => exact .none (by decide)

section Settlements

variable {db : Db}

/-- `finish` settles a live Attempt and releases its Slot, or does nothing. -/
theorem finish_ensures (id : Uuid) (w : Option Uuid) (target : AttemptState)
    (failure : Option Attempts.FailureDetails) (now : Time) :
    (Attempts.finish id w target failure now).Ensures ⊤ (fun b db' =>
      (b = false ∧ db' = db) ∨ (b = true ∧ target.isTerminal ∧ ∃ r r' : AttemptRow,
        fetch db (attempt id) = some r ∧ Attempts.liveOf w r ∧
        r'.life = { r.life with state := target, exhausted := r'.life.exhausted } ∧
        r'.failureKind = failure.map Attempts.FailureDetails.kind ∧
        db' = releasedSlot (store db (attempt id) (some r')) r.poolId)) db := by
  unfold Attempts.finish
  simp only [Prog.bind_eq, Prog.exec_bind, Prog.pure_eq]
  split
  · exact Prog.ensures_done (.inl ⟨rfl, rfl⟩)
  · rename_i hterm
    refine Prog.ensures_require fun _ => Prog.ensures_updateReturning (fun r hr hl => ⟨trivial, ?_⟩)
      fun _ => Prog.ensures_done (.inl ⟨rfl, rfl⟩)
    refine Prog.ensures_bind ((releaseSlot_ensures _ fun _ _ => trivial).mono fun _ db' hdb' => ?_)
    exact Prog.ensures_done (.inr ⟨rfl, by simpa using hterm, r, _, hr, hl, rfl, rfl, hdb'⟩)

/-- A guarded transition of a Generation that exists. -/
theorem transition_ensures {id : Uuid} {source : GenerationState → Bool}
    {f : GenerationRow → GenerationRow} {g : GenerationRow} (hg : fetch db (generation id) = some g) :
    (Prog.exec (Generations.transition id source f)).Ensures ⊤ (fun _ db' =>
      life db' = { life db with
        gen := update (life db).gen id (some (if source g.state then f g else g).life) }) db := by
  refine Prog.ensures_update (fun r hr hs => ⟨trivial, ?_⟩) fun hnone => ?_
  · obtain rfl : r = g := Option.some_inj.1 (hr.symm.trans hg)
    exact Prog.ensures_done (by simp [hs])
  · have hs : source g.state = false := by simpa [hg] using hnone
    have hself : update (life db).gen id (some g.life) = (life db).gen :=
      update_eq_self_iff.2 (by simp [life, hg])
    exact Prog.ensures_done (by simp [hs, hself])

/-- What is left of a settlement once the Attempt is settled: the Generation. -/
theorem settle_core {id : Uuid} {r r' : AttemptRow} {g g' : GenerationRow} {target : AttemptState}
    {db db' : Db} (hr : fetch db (attempt id) = some r) (hl : r.state.isLive)
    (hterm : target.isTerminal) (hns : target ≠ .succeeded)
    (hr' : r'.life = { r.life with state := target, exhausted := r'.life.exhausted })
    (hg : fetch db (generation r.generationId) = some g) (hs : Settles g.state g'.state)
    (hretry : g.state = .running → g'.state = .queued → g.attemptCount < maxAttempts)
    (hg' : g'.life = { g.life with state := g'.state })
    (hdb' : life db' =
      let l := life (releasedSlot (store db (attempt id) (some r')) r.poolId)
      { l with gen := update l.gen r.generationId (some g'.life) }) :
    Life.Core (life db) (life db') := by
  have hstep := Life.Core.settle id r.life target r'.life.exhausted g.life g'.state
    (life_att_of_fetch hr) hl hterm hns (life_gen_of_fetch hg) hs hretry
  rw [← hg', ← hr'] at hstep
  rw [hdb']
  simpa [Life.released] using hstep

/-- To end an Attempt without success is one step of the lifecycle: the Attempt, its Slot and its
    Generation change together. -/
theorem finishAndDecide_moves [ManifestHash] (id : Uuid) (w : Option Uuid) (target : AttemptState)
    (failure : Attempts.FailureDetails) (now : Time) (hns : target ≠ .succeeded) :
    Moves Life.Core (Attempts.finishAndDecide id w target failure now) := by
  intro db
  unfold Attempts.finishAndDecide
  simp only [Prog.bind_eq, Prog.exec_bind, Prog.pure_eq]
  refine Prog.ensures_read ?_
  cases hlive : (fetch db (attempt id)).filter (Attempts.liveOf w) with
  | none => exact Prog.ensures_done .refl
  | some r₀ =>
    refine Prog.ensures_bind ((finish_ensures _ _ _ _ _).mono fun b db₁ h => ?_)
    rcases h with ⟨rfl, rfl⟩ | ⟨rfl, hterm, r, r', hr, hl, hr', -, rfl⟩
    · exact Prog.ensures_done .refl
    · obtain ⟨hr₀, -⟩ := Option.filter_eq_some_iff.1 hlive
      obtain rfl : r = r₀ := Option.some_inj.1 (hr.symm.trans hr₀)
      simp only [Bool.not_true, Bool.false_eq_true, if_false]
      unfold Generations.getOne
      simp only [Prog.exec_bind]
      refine Prog.ensures_tryRead fun g hg => ?_
      have hg₁ : fetch (releasedSlot (store db (attempt id) (some r')) r.poolId)
          (generation r.generationId) = some g := by
        split at hg
        · cases hg
          assumption
        · cases hg
      have hg₀ : fetch db (generation r.generationId) = some g := by simpa using hg₁
      have hlr : r.state.isLive := (Bool.and_eq_true_iff.1 hl).1
      -- whatever is decided, it is a settlement
      have hcore : ∀ (g' : GenerationRow) (db' : Db), life db' = _ → Settles g.state g'.state →
          (g.state = .running → g'.state = .queued → g.attemptCount < maxAttempts) →
          g'.life = { g.life with state := g'.state } →
          Relation.ReflTransGen Life.Core (life db) (life db') := fun g' db' hdb' hs hretry hg' =>
        .single (settle_core hr hlr hterm hns hr' hg₀ hs hretry hg' hdb')
      split
      · -- a cancellation that was requested wins
        rename_i hc
        refine Prog.ensures_bind ((transition_ensures hg₁).mono fun _ db' hdb' => ?_)
        rw [if_pos (by simpa using hc)] at hdb'
        exact Prog.ensures_done (hcore _ db' hdb' (hc ▸ .cancel) (fun _ => nofun) rfl)
      · rename_i hc
        -- what the decision reads
        unfold Generations.requirementOf NativeExclusions.excludedPools Workers.poolCapabilities
        simp only [Prog.exec_bind]
        refine Prog.ensures_read (Prog.ensures_read (Prog.ensures_read ?_))
        split
        · -- it is queued again
          refine Prog.ensures_bind (Prog.ensures_labelled ((transition_ensures hg₁).mono ?_))
          refine fun _ db' hdb' => Prog.ensures_done (hcore _ db' hdb' ?_ (fun _ _ => ?_) ?_)
          · simpa [apply_ite] using Settles.requeued hc
          · exact FailureKind.lt_maxAttempts_of_requeue ‹_›
          · split <;> rfl
        · -- it fails
          refine Prog.ensures_bind (Prog.ensures_require fun _ => (transition_ensures hg₁).mono ?_)
          refine fun _ db' hdb' => Prog.ensures_done (hcore _ db' hdb' ?_ (fun hrun hq => ?_) ?_)
          · simpa [apply_ite] using Settles.failed g.state
          · rw [if_pos (by simp [hrun])] at hq
            cases hq
          · split <;> rfl

/-- A result is accepted, or nothing changes. -/
theorem acceptResult_ensures (id w : Uuid) (now : Time) :
    (Generations.acceptResult id w now).Ensures ⊤ (fun out db' =>
      ((∀ g, out ≠ .accepted g) ∧ db' = db) ∨
        ∃ g, out = .accepted g ∧ Life.Core (life db) (life db')) db := by
  unfold Generations.acceptResult
  simp only [Prog.bind_eq, Prog.exec_bind, Prog.pure_eq]
  refine Prog.ensures_lock (fun r hr hw => ?_) fun _ => .inl ⟨by simp, rfl⟩
  refine Prog.ensures_lock (fun g hg _ => ?_) fun _ => .inl ⟨by simp, rfl⟩
  dsimp only
  split
  · exact .inl ⟨by simp, rfl⟩
  split
  · exact .inl ⟨by simp, rfl⟩
  split
  · exact .inl ⟨by simp, rfl⟩
  split
  · exact .inl ⟨by simp, rfl⟩
  rename_i hlive hnone htrans
  obtain ⟨hlive, -⟩ : r.state.isLive = true ∧ now < r.leaseExpiresAt := by simpa using hlive
  refine Prog.ensures_update_of_fetch hr hw trivial ?_
  refine Prog.ensures_bind ((releaseSlot_ensures _ fun _ _ => trivial).mono fun _ db₁ hdb₁ => ?_)
  have hg₁ : fetch db₁ (generation r.generationId) = some g := by simpa [hdb₁] using hg
  refine Prog.ensures_update_of_fetch hg₁ rfl trivial (.inr ⟨_, rfl, ?_⟩)
  have hactive := GenerationState.isActive_of_canTransitionTo_succeeded (by simpa using htrans)
  have hstep := Life.Core.accept id r.life g.life (life_att_of_fetch hr) hlive
    (life_gen_of_fetch hg) (by simpa using hnone) hactive
  simp only [hdb₁, life_store_generation, life_releasedSlot, life_store_attempt]
  exact hstep

/-- A Pool that rejected a Generation, as the lifecycle sees it. -/
def rejecting (l : DbLife) (g p : Uuid) : DbLife :=
  { l with rejected := fun g' p' => l.rejected g' p' ∨ g' = g ∧ p' = p }

/-- A rejection that is there already changes nothing. -/
theorem rejecting_eq_self {l : DbLife} {g p : Uuid} (h : l.rejected g p) : rejecting l g p = l := by
  ext1
  · rfl
  · rfl
  · rfl
  · funext g' p'
    refine propext ⟨?_, .inl⟩
    rintro (h' | ⟨rfl, rfl⟩)
    · exact h'
    · exact h

/-- The record of a rejection, where it was already there or is made now. -/
theorem life_recorded {s t : Db} {g p : Uuid} {b : Bool} {ws : List (Write Db)}
    (hws : NativeExclusions.recorded g p s = .ok (b, ws))
    (ht : (fetch s (rejection g p)).isSome → (fetch t (rejection g p)).isSome) :
    life (applyAll t ws) = rejecting (life t) g p := by
  unfold NativeExclusions.recorded at hws
  split at hws
  · rename_i hrow
    cases hws
    exact (rejecting_eq_self (l := life t) (ht hrow)).symm
  split at hws
  · cases hws
  · cases hws
    exact life_store_rejection g p

/-- The record of a rejection is seen, and no other row changes. -/
theorem recordPreexecutionRejection_ensures (g p : Uuid) :
    (NativeExclusions.recordPreexecutionRejection g p).Ensures ⊤
      (fun _ db' => life db' = rejecting (life db) g p ∧
        ∀ k, k ≠ rejection g p → fetch db' k = fetch db k) db := by
  refine Prog.ensures_write fun _ ws hws => ⟨fun _ => trivial, Prog.ensures_done ?_⟩
  refine ⟨life_recorded hws id, fun k hk => fetch_applyAll_of_notMem db fun w hw hwk => hk ?_⟩
  rw [← hwk, NativeExclusions.recorded_eq_ok hws w hw]

/-- A lease that is rejected takes its Attempt with it, and its Pool is excluded. -/
theorem rejectLease_moves (id w : Uuid) (now : Time) :
    Moves Life.Core (Attempts.rejectLease id w now) := by
  intro db
  unfold Attempts.rejectLease
  simp only [Prog.bind_eq, Prog.exec_bind, Prog.pure_eq]
  refine Prog.ensures_lock (fun r hr hw => ?_) fun _ => .refl
  dsimp only
  split
  · exact .refl
  refine Prog.ensures_lock (fun g hg _ => ?_) fun _ => .refl
  split
  · exact .refl
  rename_i hrun
  have hrun : g.state = .running := by simpa using hrun
  have hleased : r.state = .leased := by simpa using (Bool.and_eq_true_iff.1 hw).2
  refine Prog.ensures_bind ((recordPreexecutionRejection_ensures _ _).mono ?_)
  rintro _ db₁ ⟨hlife, hsame⟩
  have hr₁ : fetch db₁ (attempt id) = some r := (hsame (attempt id) (by simp)).trans hr
  have hg₁ : fetch db₁ (generation r.generationId) = some g :=
    (hsame (generation _) (by simp)).trans hg
  -- the Attempt is deleted, its Slot released
  refine Prog.ensures_write fun _ ws hws => ⟨fun _ => trivial, ?_⟩
  obtain rfl : ws = [⟨attempt id, none⟩] := by
    simp only [hr₁, Option.filter_some, hw, if_true] at hws
    split at hws
    · cases hws
    · cases hws
      rfl
  refine Prog.ensures_bind ((releaseSlot_ensures _ fun _ _ => trivial).mono fun _ db₂ hdb₂ => ?_)
  have hg₂ : fetch db₂ (generation r.generationId) = some g := by simpa [hdb₂] using hg₁
  refine Prog.ensures_update_of_fetch hg₂ (by simpa using hrun) trivial (.single ?_)
  have hstep := Life.Core.reject id r.life g.life (life_att_of_fetch hr) hleased
    (life_gen_of_fetch hg) hrun
  simp only [hdb₂, life_store_generation, life_releasedSlot, applyAll_cons, applyAll_nil,
    life_store_attempt, hlife]
  exact hstep

/-- What an acknowledgement of the Worker `w` that names the Attempt `id` does. -/
inductive Acknowledged (db : Db) (w id : Uuid) (db' : Db) : Prop
  /-- Nothing that the lifecycle sees. -/
  | quiet (h : life db' = life db)
  /-- The live Attempt and its cancelling Generation end. -/
  | core (h : Life.Core (life db) (life db'))
  /-- The Worker's Attempt was settled before, and the cancelling Generation ends. -/
  | late (r : AttemptRow) (hr : fetch db (attempt id) = some r) (hw : r.workerId = w)
      (h : Life.AckLate id (life db) (life db'))

/-- A cancellation that is acknowledged ends the Attempt and its Generation, or only the
    Generation where the Attempt is over. -/
theorem acknowledgeCancel_ensures (id w : Uuid) (now : Time) :
    (Attempts.acknowledgeCancel id w now).Ensures ⊤
      (fun _ db' => Acknowledged db w id db') db := by
  unfold Attempts.acknowledgeCancel
  simp only [Prog.bind_eq, Prog.exec_bind, Prog.pure_eq]
  refine Prog.ensures_lock (fun r hr hw => ?_) fun _ => .quiet rfl
  unfold Generations.get
  simp only [Prog.exec_bind]
  refine Prog.ensures_read ?_
  split
  · exact .quiet rfl
  rename_i hc
  obtain ⟨g, hg, hc⟩ := Option.map_eq_some_iff.1 (not_not.1 hc)
  split
  · rename_i hlive
    -- the Attempt is live: it ends, too
    refine Prog.ensures_write fun p ws hws => ⟨fun _ => trivial, ?_⟩
    have hguard : (r.workerId = w && r.state.isLive) = true := by simpa [hlive] using hw
    simp only [hr, hg, Option.filter_some, Option.map_some, hguard, if_true, hc] at hws
    cases hws
    refine Prog.ensures_bind ((releaseSlot_ensures _ fun _ _ => trivial).mono fun _ db₁ hdb₁ => ?_)
    have hg₁ : fetch db₁ (generation r.generationId) = some g := by simpa [hdb₁] using hg
    refine Prog.ensures_bind ((transition_ensures hg₁).mono fun b db' hdb' => .core ?_)
    have hstep := Life.Core.ack id r.life g.life (life_att_of_fetch hr) hlive
      (life_gen_of_fetch hg) hc
    rw [hdb', if_pos (by simpa using hc)]
    simp only [hdb₁, life_releasedSlot, applyAll_cons, applyAll_nil, life_store_attempt]
    exact hstep
  · rename_i hlive
    refine Prog.ensures_bind ((transition_ensures hg).mono fun b db' hdb' => ?_)
    refine .late r hr (by simpa using hw) ?_
    rw [hdb', if_pos (by simpa using hc)]
    exact .mk r.life g.life (life_att_of_fetch hr) hlive (life_gen_of_fetch hg) hc

end Settlements

/-! ## Leases -/

section Leases

variable {db : Db}

/-- A claim, as the lifecycle sees it. -/
theorem claim_life {q : DevicePoolRow} (h : q.claimedSlots < q.totalSlots) :
    q.claim.life = q.life.claim := by
  rw [DevicePoolRow.claim, dif_pos h]
  rfl

/-- A queued Generation is running once it is leased. -/
theorem markRunning_ensures {id : Uuid} {now : Time} {g : GenerationRow}
    (hg : fetch db (generation id) = some g) (hq : g.state = .queued) :
    (Generations.markRunning id now).Ensures ⊤ (fun _ db' => life db' = { life db with
      gen := update (life db).gen id (some { g.life with state := .running }) }) db := by
  refine (transition_ensures hg).mono fun _ db' hdb' => ?_
  rw [hdb', if_pos (by simpa using hq)]
  rfl

/-- `create` leases a queued Generation below its Attempt limit, or refuses. -/
theorem create_ensures (id g w p : Uuid) (slotKey : String) (expiry now : Time) :
    (Attempts.create id g w p slotKey expiry now).Ensures ⊤ (fun out db' =>
      (∃ e, out = .error e) ∨ ∃ (r r' : GenerationRow) (a : AttemptRow), out = .ok id ∧
        fetch db (generation g) = some r ∧ r.state = .queued ∧ r.attemptCount < maxAttempts ∧
        fetch db (attempt id) = none ∧ p ∉ NativeExclusions.excluded db g ∧
        a.life = ⟨g, p, .leased, r.attemptCount + 1, false⟩ ∧
        r'.life = { r.life with count := r.attemptCount + 1 } ∧
        db' = store (store db (attempt id) (some a)) (generation g) (some r')) db := by
  unfold Attempts.create
  simp only [Prog.bind_eq, Prog.exec_bind, Prog.pure_eq]
  refine Prog.ensures_lock (fun r hr _ => ?_) fun _ => .inl ⟨_, rfl⟩
  dsimp only
  split
  · exact .inl ⟨_, rfl⟩
  rename_i hq
  unfold NativeExclusions.excludedPools
  simp only [Prog.exec_bind]
  refine Prog.ensures_read ?_
  split
  · exact .inl ⟨_, rfl⟩
  rename_i hx
  split
  · exact .inl ⟨_, rfl⟩
  rename_i hmax
  refine Prog.ensures_require fun _ => Prog.ensures_write fun _ ws hws => ⟨fun _ => trivial, ?_⟩
  split at hws
  case isFalse => cases hws
  split at hws
  case isTrue => cases hws
  rename_i hnew
  split at hws
  case isTrue => cases hws
  cases hws
  have hid : fetch db (attempt id) = none := by
    simpa using (Bool.or_eq_false_iff.1 (Bool.eq_false_iff.2 hnew)).1
  refine Prog.ensures_update_of_fetch (r := r) (by simpa using hr) rfl trivial ?_
  exact .inr ⟨r, _, _, rfl, hr, not_not.1 hq, Nat.lt_of_succ_le (not_lt.1 hmax), hid, hx, rfl,
    rfl, rfl⟩

/-- An assignment that commits makes one Attempt on one free Slot. -/
theorem tryAssign_transacts (assignment : SlotAssignment) (id : Uuid) (now : Time) (sent : Bool) :
    Transacts Life.Core (tryAssign assignment id now sent) := by
  intro db
  unfold tryAssign NativeExclusions.excludedPools Workers.claimSlot
  simp only [Prog.bind_eq, Prog.exec_bind, Prog.pure_eq]
  refine Prog.ensures_read ?_
  split
  · exact nofun
  refine Prog.ensures_update (fun q hq hfree => ⟨trivial, ?_⟩) fun _ => nofun
  refine Prog.ensures_bind ((create_ensures _ _ _ _ _ _ _).mono fun out db₁ h => ?_)
  -- the Attempt is created, or the transaction fails
  rcases h with ⟨e, rfl⟩ | ⟨r, r', a, rfl, hr, hs, hmax, hid, hx, ha, hr', hdb₁⟩
  · exact nofun
  have hr₁ : fetch db₁ (generation assignment.generationId) = some r' := by simp [hdb₁]
  have hs' : r'.state = .queued := (congrArg GenLife.state hr').trans hs
  refine Prog.ensures_bind ((markRunning_ensures hr₁ hs').mono fun _ db₂ hdb₂ => ?_)
  unfold Generations.get
  simp only [Prog.exec_bind]
  refine Prog.ensures_read ?_
  split
  case h_2 => exact nofun
  refine Prog.ensures_read ?_
  split
  · exact nofun
  split
  case isFalse => exact nofun
  have hfree : q.claimedSlots < q.totalSlots := by simpa using hfree
  refine Prog.ensures_done fun _ _ => .single ?_
  have hstep := Life.Core.assign assignment.generationId id assignment.poolId r.life q.life
    (life_gen_of_fetch (by simpa using hr)) hs (by simpa [life] using hid) (life_pool_of_fetch hq)
    hfree hmax (mt excluded_life_iff.1 hx)
  rw [hdb₂, hdb₁]
  simp only [life_store_generation, life_store_attempt, life_store_devicePool, update_idem, hr', ha,
    Option.map_some, claim_life hfree]
  exact hstep

end Leases

/-! ## Transactions -/

section Transactions

/-- A guarded transition that is a core step wherever its guard matches. -/
theorem transition_moves {id : Uuid} {source : GenerationState → Bool}
    {f : GenerationRow → GenerationRow}
    (h : ∀ l : DbLife, ∀ g : GenerationRow, l.gen id = some g.life → source g.state →
      Life.Core l { l with gen := update l.gen id (some (f g).life) }) :
    Moves Life.Core (.exec (Generations.transition id source f)) := by
  intro db
  refine Prog.ensures_update (fun g hg hs => ⟨trivial, .single ?_⟩) fun _ => .refl
  rw [life_store_generation]
  exact h _ g (life_gen_of_fetch hg) hs

theorem cancelQueued_moves (id : Uuid) (now : Time) :
    Moves Life.Core (Generations.cancelQueued id now) :=
  transition_moves fun _ g hg hs => .endQueued id g.life .cancelled hg (by simpa using hs) (.inl rfl)

theorem expire_moves (id : Uuid) (now : Time) : Moves Life.Core (Generations.expire id now) :=
  transition_moves fun _ g hg hs => .endQueued id g.life .expired hg (by simpa using hs) (.inr rfl)

theorem requestCancelRunning_moves (id : Uuid) :
    Moves Life.Core (Generations.requestCancelRunning id) :=
  .labelled (transition_moves fun _ g hg hs => .cancelRunning id g.life hg (by simpa using hs))

/-- A Generation that is inserted is queued, without any Attempt. -/
theorem insertGeneration_moves (new : NewGeneration) :
    Moves Life.Core (Generations.insert new) := by
  intro db
  refine Prog.ensures_require fun _ => Prog.ensures_write fun b ws hws => ⟨fun _ => trivial, ?_⟩
  obtain ⟨hnew, r, rfl, hstate, hacc, hcount, -⟩ := Generations.insertion_eq_ok hws
  refine .single ?_
  have hlife : r.life = ⟨.queued, none, 0⟩ := by rw [GenerationRow.life, hstate, hacc, hcount]
  rw [applyAll_cons, applyAll_nil, life_store_generation, Option.map_some, hlife]
  exact .admission new.id (by simp [life, hnew])

theorem propagateCancellations_transacts (now : Time) :
    Transacts Life.Core (propagateCancellations now) :=
  .bind (.read _) fun _ => .bind (.forEach (fun id => requestCancel_moves id now) _) fun _ =>
    .commit _

theorem tryHandleAttemptProgress_transacts (w : AuthenticatedWorker) (id : Uuid)
    (progress : ProgressSnapshot) (now : Time) :
    Transacts Life.Core (tryHandleAttemptProgress w id progress now) := by
  refine .authenticated (.bind (.read _) fun generationId => ?_)
  cases generationId with
  | none => exact .rollback _
  | some generationId => exact .bind (recordProgress_moves _ _) fun _ => .commit _

/-- What follows an accepted result writes Artifacts only. -/
theorem recordAcceptedResult_transacts (tenantId w id g : Uuid) (outputs : List AttemptOutput)
    (now : Time) : Transacts Life.Core (recordAcceptedResult tenantId w id g outputs now) := by
  refine .bind (.forEach (fun output => ?_) _) fun recorded => ?_
  · unfold recordReportedOutput
    split
    · dsimp only
      split
      · split
        · exact .done _
        · exact .bind (insertArtifact_moves _ _) fun _ => .done _
      · split
        · exact .done _
        · exact .bind (insertArtifact_moves _ _) fun _ => .done _
      · exact .done _
    · exact .done _
  · split
    · exact .rollback _
    · exact .bind (deleteInputsForGeneration_moves _) fun _ => .commit _

theorem recordIdempotencyKey_moves (key : String) (digest : Bytes) (id : Uuid) :
    Moves Life.Core (recordIdempotencyKey key digest id) := by
  refine .require (.write fun db b ws hws v hv => ?_)
  split at hws
  · cases hws
  · cases hws
    rw [List.mem_singleton.1 hv]
    rfl

/-- A cancellation ends a queued Generation, or requests the end of a running one. -/
theorem cancelGeneration_transacts (id : Uuid) (now : Time) :
    Transacts Life.Core (cancelGeneration id now) := by
  refine .bind (cancelQueued_moves id now) fun cancelled => ?_
  have hrest : Transacts Life.Core (cancelRunning id) := by
    rw [cancelRunning, cancelAnswer]
    refine .bind (requestCancelRunning_moves id) fun _ => .bind (.read _) fun row => ?_
    cases row with
    | none => exact .rollback _
    | some row => exact .commit _
  cases cancelled with
  | false => exact hrest
  | true => exact .bind (deleteInputsForGeneration_moves id) fun _ => hrest

/-- A leased Attempt of the Worker starts to run, or nothing changes. -/
theorem markRunningAttempt_ensures {db : Db} (id w : Uuid) (now : Time) :
    (Attempts.markRunning id w now).Ensures ⊤ (fun b db' => (b = false ∧ db' = db) ∨
      (b = true ∧ ∃ (r r' : AttemptRow) (g : GenerationRow), fetch db (attempt id) = some r ∧
        r.state = .leased ∧ fetch db (generation r.generationId) = some g ∧
        r'.life = { r.life with state := .running } ∧ db' = store db (attempt id) (some r'))) db := by
  refine Prog.ensures_write fun b ws hws => ⟨fun _ => trivial, ?_⟩
  split at hws
  · cases hws
    exact .inl ⟨rfl, rfl⟩
  rename_i r hr
  obtain ⟨hr, hguard⟩ := Option.filter_eq_some_iff.1 hr
  split at hws
  · cases hws
    exact .inl ⟨rfl, rfl⟩
  rename_i g hg
  cases hws
  simp only [Bool.and_eq_true, decide_eq_true_eq] at hguard
  exact .inr ⟨rfl, r, _, g, hr, hguard.1.2, hg, rfl, rfl⟩

/-- An Attempt that runs wakes its Generation. -/
theorem tryHandleAttemptRunning_transacts (w : AuthenticatedWorker) (id : Uuid) (now : Time) :
    Transacts Life.Core (tryHandleAttemptRunning w id now) := by
  refine .authenticated fun db => ?_
  refine Prog.ensures_bind ((markRunningAttempt_ensures id w.workerId now).mono fun b db₁ h => ?_)
  rcases h with ⟨rfl, -⟩ | ⟨rfl, r, r', g, hr, hleased, hg, hr', rfl⟩
  · exact nofun
  unfold Attempts.generationIdOf
  simp only [Bool.not_true, Bool.false_eq_true, if_false, Prog.bind_eq, Prog.exec_bind]
  refine Prog.ensures_read ?_
  cases hlive : (fetch (store db (attempt id) (some r')) (attempt id)).filter fun r =>
    r.workerId = w.workerId && r.state.isLive && r.leaseExpiresAt > now with
  | none => exact nofun
  | some r'' =>
    obtain rfl : r' = r'' := by simpa using (Option.filter_eq_some_iff.1 hlive).1
    have hid : r'.generationId = r.generationId := congrArg AttLife.generation hr'
    have hg₁ : fetch (store db (attempt id) (some r')) (generation r'.generationId) = some g := by
      rw [hid]
      simpa using hg
    refine Prog.ensures_bind ((transition_ensures hg₁).mono fun _ db' hdb' => ?_)
    refine Prog.ensures_done fun _ _ => .single ?_
    have hstep := Life.Core.start id r.life (life_att_of_fetch hr) hleased
    -- a queued Generation runs with it, any other stays
    have hwake : (if decide (g.state = .queued) then
        { g.withState .running with startedAt := some now } else g).life = g.life.wake := by
      by_cases hq : g.state = .queued
      · simp [hq, GenLife.wake]
        rfl
      · simp [hq, GenLife.wake]
    rw [AttemptRow.life_generation, life_gen_of_fetch hg] at hstep
    rw [hdb', hwake, life_store_attempt, hid, Option.map_some, hr']
    exact hstep

/-- An admission admits one Generation. -/
theorem admitNew_transacts (request : AdmissionRequest) (new : NewGeneration) (clock : Time) :
    Transacts Life.Core (admitNew request new clock) := by
  refine .bind (insertGeneration_moves new) fun _ => ?_
  have hrest : ∀ linked : ℕ, @Transacts (Except AdmissionError Uuid) Life.Core
      (admitLinked request new linked) := by
    intro linked
    rw [admitLinked]
    split
    · exact .rollback _
    dsimp only
    split
    · exact .bind (recordIdempotencyKey_moves _ _ _) fun _ => .commit _
    · exact .commit _
  dsimp only
  split
  · exact hrest 0
  · exact .bind (linkInputArtifacts_moves _ _ _) hrest

/-- What comes before that only reads. -/
theorem admitFresh_transacts (request : AdmissionRequest) (id : Uuid) (uploaded : Uuid → Bool)
    (now clock : Time) : Transacts Life.Core (admitFresh request id uploaded now clock) := by
  refine .bind (.read _) fun settings => ?_
  cases settings with
  | none => exact .rollback _
  | some settings =>
    refine .bind (.read _) fun nonterminal => ?_
    split
    · exact .rollback _
    refine .bind (.require (.read _)) fun model => ?_
    cases model with
    | none => exact .rollback _
    | some model =>
      dsimp only
      split
      · exact .rollback _
      refine .bind (.forEach (fun id => .bind (.read _) fun _ => .done _) _) fun inputs => ?_
      split
      · exact .rollback _
      · exact .rollback _
      · exact admitNew_transacts _ _ _

theorem replayIdempotent_moves (key : String) (digest : Bytes) :
    Moves Life.Core (replayIdempotent key digest) := by
  refine .bind (.require (.read _)) fun existing => ?_
  cases existing with
  | none => exact .done _
  | some row =>
    dsimp only
    split
    · exact .done _
    · refine .bind (.read _) fun found => ?_
      cases found <;> exact .done _

theorem admitGeneration_transacts (request : AdmissionRequest) (id : Uuid)
    (objectStoreAvailable : Bool) (uploaded : Uuid → Bool) (now clock : Time) :
    Transacts Life.Core (admitGeneration request id objectStoreAvailable uploaded now clock) := by
  unfold admitGeneration
  split
  · exact .rollback _
  split
  · exact .rollback _
  split
  · exact admitFresh_transacts _ _ _ _ _
  · refine .bind (replayIdempotent_moves _ _) fun replayed => ?_
    split
    · exact .rollback _
    · exact .commit _
    · exact admitFresh_transacts _ _ _ _ _

theorem setModelAlias_transacts (aliasName : String) (version : ContentHash) :
    Transacts Life.Core (Catalog.setModelAlias aliasName version) := by
  refine .bind (.read _) fun known => ?_
  split
  · exact .rollback _
  refine .bind (.require (.write fun db b ws hws v hv => ?_)) fun _ => .commit _
  cases hws
  rw [List.mem_singleton.1 hv]
  rfl

theorem deleteModelAlias_transacts (aliasName : String) :
    Transacts Life.Core (Catalog.deleteModelAlias aliasName) := by
  refine .bind (.require (.write fun db b ws hws v hv => ?_)) fun _ => .commit _
  split at hws
  · cases hws
    rw [List.mem_singleton.1 hv]
    rfl
  · cases hws
    cases hv

/-- An acknowledgement, as the lifecycle sees it. -/
theorem cancelAcknowledged_life (w : AuthenticatedWorker) (id : Uuid) (now : Time) (db : Db) :
    let db' := (tryHandleCancelAcknowledged w id now).commit db
    life db' = life db ∨ w.isCurrent db ∧ Acknowledged db w.workerId id db' := by
  refine Prog.Ensures.commit (R := ⊤) (P := fun db' => life db' = life db ∨
    w.isCurrent db ∧ Acknowledged db w.workerId id db')
    (authenticated_ensures nofun fun hcur => ?_) (.inl rfl)
  refine Prog.ensures_bind ((acknowledgeCancel_ensures id w.workerId now).mono fun out db₁ h => ?_)
  cases out with
  | none => exact fun _ _ => .inr ⟨hcur, h⟩
  | some g =>
    refine Prog.ensures_bind ((deleteInputsForGeneration_ensures g).mono fun _ db₂ hdb₂ => ?_)
    refine fun _ _ => .inr ⟨hcur, ?_⟩
    cases h with
    | quiet h => exact .quiet (hdb₂.trans h)
    | core h => exact .core (hdb₂ ▸ h)
    | late r hr hw h => exact .late r hr hw (hdb₂ ▸ h)

variable [ManifestHash]

/-- Leases that have run out are settled one by one. -/
theorem expireLeases_transacts (now : Time) (skip : Uuid → Bool) :
    Transacts Life.Core (expireLeases now skip) := by
  refine .bind (fun _ => Prog.ensures_lockAll .refl) fun expired => ?_
  refine .bind (.forEach (fun id => ?_) _) fun _ => .commit _
  refine .bind (requestCancel_moves id now) fun _ => ?_
  exact .bind (finishAndDecide_moves _ _ _ _ _ nofun) fun out => deleteInputsOnFail_moves out

theorem enforceExecutionDeadlines_transacts (now : Time) (skip : Uuid → Bool) :
    Transacts Life.Core (enforceExecutionDeadlines now skip) := by
  refine .bind (fun _ => Prog.ensures_lockAll .refl) fun overdue => ?_
  refine .bind (.forEach (fun id => ?_) _) fun _ => .commit _
  exact .bind (finishAndDecide_moves _ _ _ _ _ nofun) fun out => deleteInputsOnFail_moves out

/-- Generations that are starved end one by one. -/
theorem expireStarvedQueue_transacts (now : Time) :
    Transacts Life.Core (expireStarvedQueue now) := by
  refine .bind (.read _) fun settings => .bind (.read _) fun candidates => ?_
  split
  · exact .rollback _
  refine .bind (.read _) fun capabilities => .bind (.read _) fun exclusions => ?_
  refine .bind (.forEach (fun candidate => ?_) _) fun _ => .commit _
  split
  · refine .bind (expire_moves _ _) fun expired => ?_
    cases expired with
    | false => exact .done _
    | true => exact deleteInputsForGeneration_moves _
  · exact .done _

theorem settleAttemptFailure_transacts (w : AuthenticatedWorker) (id : Uuid)
    (failure : Attempts.FailureDetails) (now : Time) :
    Transacts Life.Core (settleAttemptFailure w id failure now) := by
  refine .authenticated (.bind (finishAndDecide_moves _ _ _ _ _ nofun) fun out => ?_)
  dsimp only
  split
  · exact .bind (deleteInputsForGeneration_moves _) fun _ => .commit _
  · exact .commit _

/-- A result is accepted, or its Attempt fails. -/
theorem tryHandleAttemptResult_transacts (w : AuthenticatedWorker) (id : Uuid)
    (outputs : List AttemptOutput) (now : Time) :
    Transacts Life.Core (tryHandleAttemptResult w id outputs now) := by
  refine .bind (fun _ => Prog.ensures_tryRead fun _ _ => .refl) fun settings => ?_
  dsimp only
  split
  · intro db
    refine Prog.ensures_bind ((settleAttemptFailure_transacts w id _ now db).mono fun v db' h => ?_)
    cases v with
    | commit out => exact fun _ _ => h out rfl
    | rollback out => exact nofun
  · refine .authenticated fun db => ?_
    refine Prog.ensures_bind ((acceptResult_ensures id w.workerId now).mono fun out db' h => ?_)
    rcases h with ⟨hne, rfl⟩ | ⟨g, rfl, hcore⟩
    · cases out with
      | accepted g => exact absurd rfl (hne g)
      | _ => exact fun _ _ => .refl
    · refine (recordAcceptedResult_transacts _ _ _ _ _ _ db').mono fun _ _ h a ha => ?_
      exact .head hcore (h a ha)

/-- The transactions that move the lifecycle by core steps. -/
def Op.isCore : Op → Bool
  | cancelAcknowledged .. | capabilityReport .. => false
  | _ => true

/-- Every operation but two is a path of the lifecycle's steps. -/
theorem Op.core (op : Op) (h : op.isCore) (db : Db) :
    Relation.ReflTransGen Life.Core (life db) (life (op.apply db)) := by
  cases op with
  | deleteTenant now =>
    exact (Transacts.bind (.update_of_not_observed rfl) fun _ => .commit ()).path db
  | updateSettings settings =>
    exact (Transacts.committed (.require (.require (.update_of_not_observed rfl)))).path db
  | enroll id name credentialHash =>
    exact (Transacts.committed (enroll_moves id name credentialHash)).path db
  | revokeWorker id now => exact (Transacts.committed (.update_of_not_observed rfl)).path db
  | setModelAlias aliasName version => exact (setModelAlias_transacts aliasName version).path db
  | deleteModelAlias aliasName => exact (deleteModelAlias_transacts aliasName).path db
  | createInput id manifest placement objectKey now =>
    exact (Transacts.committed (insertArtifact_moves id _)).path db
  | setRemoteLocalContent id bytes now clock =>
    exact (Transacts.committed (setRemoteLocalContent_moves id bytes now clock)).path db
  | beginDelivery id clock => exact (Transacts.committed (.update_of_not_observed rfl)).path db
  | commitOffset id offset =>
    exact (Transacts.committed (.require (.update_of_not_observed rfl))).path db
  | setArtifactState id target now =>
    exact (Transacts.committed (setState_moves id target now)).path db
  | submit request id available uploaded now clock =>
    exact (admitGeneration_transacts request id available uploaded now clock).path db
  | tryAssign assignment id now sent => exact (tryAssign_transacts assignment id now sent).path db
  | cancelGeneration id now => exact (cancelGeneration_transacts id now).path db
  | capabilityReport w pools => cases h
  | heartbeat w ids now clock =>
    exact (Transacts.authenticated (.committed (heartbeat_moves _ ids now clock))).path db
  | attemptRunning w id now => exact (tryHandleAttemptRunning_transacts w id now).path db
  | attemptProgress w id progress now =>
    exact (tryHandleAttemptProgress_transacts w id progress now).path db
  | attemptResult w id outputs now =>
    exact (tryHandleAttemptResult_transacts w id outputs now).path db
  | attemptFailed w id failure now => exact (settleAttemptFailure_transacts w id failure now).path db
  | leaseRejected w id now =>
    exact (Transacts.authenticated (.committed (rejectLease_moves id _ now))).path db
  | cancelAcknowledged w id now => cases h
  | expireLeases now skip => exact (expireLeases_transacts now skip).path db
  | enforceExecutionDeadlines now skip =>
    exact (enforceExecutionDeadlines_transacts now skip).path db
  | propagateCancellations now => exact (propagateCancellations_transacts now).path db
  | expireStarvedQueue now => exact (expireStarvedQueue_transacts now).path db
  | expireArtifacts now => exact (Transacts.bind (expireDue_moves now) fun _ => .commit ()).path db

end Transactions

end Gpq
