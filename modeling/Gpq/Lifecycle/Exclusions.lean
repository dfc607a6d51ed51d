import Gpq.Lib.Rowwise
import Gpq.Lifecycle.Interleaving

/-!
# Excluded Pools

A Pool that ran out of memory on a Generation, or rejected its lease before execution,
is never given that Generation again (`exclusion_permanent`):

  * over any run of whole transactions, among them leases that were planned before the
    exclusion and reports that drop Pools;
  * over any interleaving of the statements of the transactions that lease and settle.

The exclusions are two tables, which a lease reads again once it holds its Generation's
lock. From then on they stand: an exclusion comes from a live Attempt, and a queued
Generation has none.
-/

namespace Gpq

open Sql DbKey

namespace Life

variable {G A P N : Type*} {l l' l₀ : Life G A P N} {g : G} {p : P}

/-- The Pool is excluded for the Generation, or there is no such Pool. -/
def Barred (l : Life G A P N) (g : G) (p : P) : Prop := l.Excluded g p ∨ l.pool p = none

/-- Every Attempt of the Generation on the Pool is one that there was in `l₀`. -/
def OnlyOld (l₀ l : Life G A P N) (g : G) (p : P) : Prop :=
  ∀ a r, l.att a = some r → r.generation = g → r.pool = p → l₀.att a = some r

/-- There is no Attempt on a Pool that does not exist. -/
theorem onlyOld_of_pool (hw : l.WellReferenced) (hp : l.pool p = none) : l₀.OnlyOld l g p := by
  rintro a r ha - rfl
  obtain ⟨-, q, hq⟩ := hw a r ha
  rw [hp] at hq
  cases hq

/-- A barred Pool stays barred, and gets no Attempts of the Generation, along a step that
    remembers the exclusions and makes no new Pools. -/
theorem OnlyOld.step (h : l₀.OnlyOld l g p) (hb : l.Barred g p) (hr : l.Remembers l')
    (hw : l'.WellReferenced) (hpool : l.pool p = none → l'.pool p = none) :
    l'.Barred g p ∧ l₀.OnlyOld l' g p := by
  rcases hb with hx | hp
  · refine ⟨.inl (hr.1 g p hx), fun a r ha hg hp => h a r (hr.2 a r ?_ ha) hg hp⟩
    rwa [hg, hp]
  · exact ⟨.inr (hpool hp), onlyOld_of_pool hw (hpool hp)⟩

/-- A deletion of Pools bars those that it deletes. -/
theorem OnlyOld.drop [DecidableEq P] {D : List P} (h : l₀.OnlyOld l g p) (hb : l.Barred g p)
    (hd : Drop D l l') (hw : l'.WellReferenced) : l'.Barred g p ∧ l₀.OnlyOld l' g p := by
  obtain ⟨href⟩ := hd
  by_cases hD : p ∈ D
  · have hp : (if p ∈ D then none else l.pool p) = none := if_pos hD
    exact ⟨.inr hp, onlyOld_of_pool hw hp⟩
  · refine ⟨?_, fun a r ha => h a r (Option.filter_eq_some_iff.1 ha).1⟩
    rcases hb with (hr | ⟨a, r, ha, hg, hp, hx⟩) | hp
    · exact .inl (.inl ⟨hr, hD⟩)
    · refine .inl (.inr ⟨a, r, Option.filter_eq_some_iff.2 ⟨ha, ?_⟩, hg, hp, hx⟩)
      simpa [hp] using hD
    · exact .inr ((if_neg hD).trans hp)

end Life

/-! ## Whole transactions -/

/-- The identifiers that an operation draws for new Pools. -/
def Op.drawnPools : Op → List Uuid
  | capabilityReport _ pools => pools.map Prod.fst
  | _ => []

section Runs

variable [ManifestHash] {db : Db} {l₀ : DbLife} {g p : Uuid}

/-- An operation that does not draw the Pool's identifier leaves it barred. -/
theorem onlyOld_apply (op : Op) (hp : p ∉ op.drawnPools) (hs : (life db).Sound)
    (hb : (life db).Barred g p) (h : l₀.OnlyOld (life db) g p) :
    (life (op.apply db)).Barred g p ∧ l₀.OnlyOld (life (op.apply db)) g p := by
  cases op.effect db with
  | core hpath =>
    refine (Machine.preserved_of_path
      (I := fun l : DbLife => l.Sound ∧ l.Barred g p ∧ l₀.OnlyOld l g p) ?_ ⟨hs, hb, h⟩ hpath).2
    rintro l l' ⟨hs, hb, h⟩ hstep
    have hs' := hstep.sound hs
    refine ⟨hs', h.step hb (hstep.remembers hs.spared) hs'.wellReferenced fun hnone => ?_⟩
    have hmap := hstep.motion.pool_map (fun _ _ => ()) p
    rw [hnone, Option.map_none] at hmap
    exact Option.map_eq_none_iff.1 hmap
  | late w a now he hcur r hr hw hlate =>
    have hs' := hlate.sound hs
    obtain ⟨hatt, hrej, hpool⟩ := hlate.others
    exact h.step hb (Life.remembers_congr hatt hrej) hs'.wellReferenced fun hnone => hpool ▸ hnone
  | report w pools he hrep =>
    subst he
    obtain ⟨hb₁, h₁⟩ := h.drop hb hrep.drop (hrep.drop.sound hs).wellReferenced
    have hs' : (life ((Op.capabilityReport w pools).apply db)).Sound := sound_apply _ hs
    obtain ⟨hatt, hrej⟩ := Machine.preserved_of_path
      (I := fun l : DbLife => l.att = (life (Workers.dropPools db _)).att ∧
        l.rejected = (life (Workers.dropPools db _)).rejected)
      (fun _ _ hl hstep => ⟨hstep.others.2.1.trans hl.1, hstep.others.2.2.trans hl.2⟩) ⟨rfl, rfl⟩
      hrep.refresh
    refine h₁.step hb₁ (Life.remembers_congr hatt hrej) hs'.wellReferenced fun hnone => ?_
    exact Option.map_eq_none_iff.2 (hrep.drawn p hp (Option.map_eq_none_iff.1 hnone))

/-- What a run leaves of the Attempts on an excluded Pool. -/
theorem onlyOld_run (hs : (life db).Sound) (hb : (life db).Barred g p) (ops : List Op)
    (hp : ∀ op ∈ ops, p ∉ op.drawnPools) (h : l₀.OnlyOld (life db) g p) :
    (life (Machine.run Op.apply db ops)).Sound ∧ (life (Machine.run Op.apply db ops)).Barred g p ∧
      l₀.OnlyOld (life (Machine.run Op.apply db ops)) g p := by
  induction ops generalizing db with
  | nil => exact ⟨hs, hb, h⟩
  | cons op ops ih =>
    obtain ⟨hb', h'⟩ := onlyOld_apply op (hp op List.mem_cons_self) hs hb h
    exact ih (sound_apply op hs) hb' (fun o ho => hp o (List.mem_cons_of_mem _ ho)) h'

end Runs

/-! ## The exclusions of a Generation -/

/-- Every Attempt of the Generation on the Pool is over, and was there before. -/
def NoneAdded (g p : Uuid) (db db' : Db) : Prop :=
  ∀ a r, fetch db' (attempt a) = some r → r.generationId = g → r.poolId = p →
    (fetch db (attempt a)).isSome ∧ ¬ r.state.isLive

/-- A live Attempt of the Generation on the Pool is rejected before execution, or runs out
    of memory. -/
def Excludes (g p : Uuid) (db db' : Db) : Prop :=
  ∃ a r, fetch db (attempt a) = some r ∧ r.generationId = g ∧ r.poolId = p ∧ r.state.isLive ∧
    ((fetch db' (attempt a) = none ∧ (fetch db' (rejection g p)).isSome) ∨
      ∃ r', fetch db' (attempt a) = some r' ∧ r'.generationId = g ∧ r'.poolId = p ∧
        r'.failureKind = some .outOfMemory)

section Excluded

variable {g p : Uuid} {db db' : Db}

/-- Who is excluded is among the exclusions that are read. -/
theorem Excludes.excluded (h : Excludes g p db db') : p ∈ NativeExclusions.excluded db' g := by
  rw [← excluded_life_iff]
  obtain ⟨a, r, -, -, -, -, ⟨-, hr⟩ | ⟨r', hr', hg, hp, hx⟩⟩ := h
  · exact .inl hr
  · exact .inr ⟨a, r'.life, life_att_of_fetch hr', hg, hp, decide_eq_true hx⟩

/-- No Attempt that could be rejected or run out of memory is left. -/
theorem NoneAdded.not_excludes {db₀ : Db} (h : NoneAdded g p db₀ db) : ¬ Excludes g p db db' := by
  rintro ⟨a, r, hr, hg, hp, hl, -⟩
  exact (h a r hr hg hp).2 hl

/-- Where only old leases are left, none was added. -/
theorem noneAdded_of_onlyOld (hs : (life db).Sound) (hx : (life db).Excluded g p)
    (h : (life db).OnlyOld (life db') g p) : NoneAdded g p db db' := by
  intro a r hr hg hp
  have hold := h a r.life (life_att_of_fetch hr) hg hp
  refine ⟨?_, fun hl => hs.spared a r.life hold hl ?_⟩
  · obtain ⟨r₀, hr₀, -⟩ := Option.map_eq_some_iff.1 hold
    exact Option.isSome_iff_exists.2 ⟨r₀, hr₀⟩
  · rwa [AttemptRow.life_generation, AttemptRow.life_pool, hg, hp]

end Excluded

/-! ## Accepted reports -/

/-- The rows of the Attempts stay as they are. -/
def sparesAttempts : RowRel Db where
  rel k o o' := ∀ a, k = attempt a → o' = o
  refl _ _ _ _ := rfl
  trans _ _ _ _ h h' a hk := (h' a hk).trans (h a hk)

theorem transition_sparesAttempts (g : Uuid) (source : GenerationState → Bool)
    (f : GenerationRow → GenerationRow) :
    (Prog.exec (Generations.transition g source f)).Keeps sparesAttempts :=
  Prog.keeps_update fun _ _ a hk => by cases hk

/-- Inputs are no Attempts. -/
theorem deleteInputs_sparesAttempts (g : Uuid) :
    (Artifacts.deleteInputsForGeneration g).Keeps sparesAttempts := by
  refine Prog.keeps_write fun db b ws hws v hv a hk => ?_
  cases hws
  obtain ⟨e, -, rfl⟩ := List.mem_map.1 hv
  cases hk

/-- A failure that is recorded ends a live Attempt of the Generation, with the kind of the failure. -/
theorem finishAndDecide_records [ManifestHash] {db : Db} (id : Uuid) (w : Option Uuid)
    (target : AttemptState) (failure : Attempts.FailureDetails) (now : Time) :
    (Attempts.finishAndDecide id w target failure now).Ensures ⊤ (fun out db' => ∀ x, out = some x →
      ∃ r r', fetch db (attempt id) = some r ∧ r.generationId = x.1 ∧ r.state.isLive ∧
        fetch db' (attempt id) = some r' ∧ r'.generationId = x.1 ∧ r'.poolId = r.poolId ∧
        r'.failureKind = some failure.kind) db := by
  unfold Attempts.finishAndDecide
  simp only [Prog.bind_eq, Prog.exec_bind, Prog.pure_eq]
  refine Prog.ensures_read ?_
  cases hlive : (fetch db (attempt id)).filter (Attempts.liveOf w) with
  | none => exact Prog.ensures_done fun x hx => by cases hx
  | some r₀ =>
    refine Prog.ensures_bind ((finish_ensures _ _ _ _ _).mono fun b db₁ h => ?_)
    rcases h with ⟨rfl, rfl⟩ | ⟨rfl, -, r, r', hr, hl, hr', hkind, rfl⟩
    · exact Prog.ensures_done fun x hx => by cases hx
    obtain rfl : r₀ = r := Option.some_inj.1 ((Option.filter_eq_some_iff.1 hlive).1.symm.trans hr)
    have hr₁ : fetch (releasedSlot (store db (attempt id) (some r')) r₀.poolId) (attempt id) =
        some r' := by
      rw [fetch_releasedSlot_attempt, Database.fetch_store_self]
    have hrecorded {db' : Db} {x : Uuid × RetryDecision} (hx : x.1 = r₀.generationId)
        (hsame : sparesAttempts.Of (releasedSlot (store db (attempt id) (some r')) r₀.poolId) db') :
        ∃ r r', fetch db (attempt id) = some r ∧ r.generationId = x.1 ∧ r.state.isLive ∧
          fetch db' (attempt id) = some r' ∧ r'.generationId = x.1 ∧ r'.poolId = r.poolId ∧
          r'.failureKind = some failure.kind := by
      refine ⟨r₀, r', hr, hx.symm, (Bool.and_eq_true_iff.1 hl).1,
        (hsame (attempt id) id rfl).trans hr₁, ?_, ?_, hkind⟩
      · exact (congrArg AttLife.generation hr').trans hx.symm
      · exact congrArg AttLife.pool hr'
    simp only [Bool.not_true, Bool.false_eq_true, if_false]
    unfold Generations.getOne Generations.requirementOf NativeExclusions.excludedPools
      Workers.poolCapabilities
    simp only [Prog.exec_bind]
    refine Prog.ensures_tryRead fun g _ => ?_
    split
    · refine Prog.ensures_bind (((transition_sparesAttempts ..).ensures _).mono fun _ db' hsame => ?_)
      exact Prog.ensures_done fun x hx => hrecorded (by cases hx; rfl) hsame
    refine Prog.ensures_read (Prog.ensures_read (Prog.ensures_read ?_))
    split
    · refine Prog.ensures_bind
        (((transition_sparesAttempts ..).labelled _ |>.ensures _).mono fun _ db' hsame => ?_)
      exact Prog.ensures_done fun x hx => hrecorded (by cases hx; rfl) hsame
    · refine Prog.ensures_bind
        (((transition_sparesAttempts ..).require _ _ |>.ensures _).mono fun _ db' hsame => ?_)
      exact Prog.ensures_done fun x hx => hrecorded (by cases hx; rfl) hsame

/-- A lease that is rejected was held by a live Attempt of the Generation, which is deleted and leaves
    the rejection. -/
theorem rejectLease_excludes {db : Db} (id w : Uuid) (now : Time) :
    (Attempts.rejectLease id w now).Ensures ⊤ (fun out db' => ∀ g, out = some g →
      ∃ r, fetch db (attempt id) = some r ∧ Excludes g r.poolId db db') db := by
  unfold Attempts.rejectLease
  simp only [Prog.bind_eq, Prog.exec_bind, Prog.pure_eq]
  refine Prog.ensures_lock (fun r hr hw => ?_) fun _ g hg => by cases hg
  dsimp only
  split
  · exact fun g hg => by cases hg
  refine Prog.ensures_lock (fun row hrow _ => ?_) fun _ => by
    rw [Option.map_none, if_pos (by simp)]
    exact fun g hg => by cases hg
  split
  · exact fun g hg => by cases hg
  refine Prog.ensures_bind ((recordPreexecutionRejection_ensures _ _).mono ?_)
  rintro _ db₁ ⟨hlife, hsame⟩
  have hr₁ : fetch db₁ (attempt id) = some r := (hsame (attempt id) (by simp)).trans hr
  refine Prog.ensures_write fun _ ws hws => ⟨fun _ => trivial, ?_⟩
  obtain rfl : ws = [⟨attempt id, none⟩] := by
    simp only [hr₁, Option.filter_some, hw, if_true] at hws
    split at hws
    · cases hws
    · cases hws
      rfl
  refine Prog.ensures_bind ((releaseSlot_ensures _ fun _ _ => trivial).mono fun _ db₂ hdb₂ => ?_)
  have hrejected : (fetch db₂ (rejection r.generationId r.poolId)).isSome := by
    rw [hdb₂, fetch_releasedSlot _ (by simp), applyAll_cons, applyAll_nil,
      Db.fetch_store_ne _ _ (by simp)]
    exact (congrFun₂ (congrArg Life.rejected hlife) r.generationId r.poolId).mpr (.inr ⟨rfl, rfl⟩)
  have hgone : fetch db₂ (attempt id) = none := by
    rw [hdb₂, fetch_releasedSlot_attempt, applyAll_cons, applyAll_nil, Database.fetch_store_self]
  have hlive : r.state.isLive := by
    rw [of_decide_eq_true (Bool.and_eq_true_iff.1 hw).2]
    rfl
  -- the Generation that is queued again is neither
  have hexcludes {db' : Db} (hrest : ∀ k, k ≠ generation r.generationId → fetch db' k = fetch db₂ k) :
      ∀ g, some r.generationId = some g → ∃ r, fetch db (attempt id) = some r ∧
          Excludes g r.poolId db db' := by
    rintro _ ⟨⟩
    refine ⟨r, hr, id, r, hr, rfl, rfl, hlive, .inl ⟨?_, ?_⟩⟩
    · rw [hrest _ (by simp), hgone]
    · rw [hrest _ (by simp)]
      exact hrejected
  refine Prog.ensures_update (fun row _ _ => ⟨trivial, ?_⟩) fun _ => ?_
  · exact hexcludes fun k hk => Db.fetch_store_ne _ _ hk
  · exact hexcludes fun _ _ => rfl

/-- A Worker that is believed to have rejected a lease. -/
theorem leaseRejected_excludes {db db' : Db} {w : AuthenticatedWorker} {a g : Uuid} {now : Time}
    (h : (tryHandleLeaseRejected w a now).run db = .ok (.commit (some g), db')) :
    ∃ r, fetch db (attempt a) = some r ∧ Excludes g r.poolId db db' := by
  have hensures : (tryHandleLeaseRejected w a now).Ensures ⊤ (fun v db' => ∀ g, v = .commit (some g) →
      ∃ r, fetch db (attempt a) = some r ∧ Excludes g r.poolId db db') db := by
    refine authenticated_ensures (fun g hg => by cases hg) fun _ => ?_
    refine Prog.ensures_bind ((rejectLease_excludes a w.workerId now).mono fun out db' h => ?_)
    exact Prog.ensures_done fun g hg => h g (Verdict.commit.inj hg)
  exact hensures.of_run h g rfl

/-- A Worker that is believed to have run out of memory. -/
theorem outOfMemory_excludes [ManifestHash] {db db' : Db} {w : AuthenticatedWorker} {a : Uuid}
    {failure : Attempts.FailureDetails} {now : Time} {x : Uuid × RetryDecision}
    (hkind : failure.kind = .outOfMemory)
    (h : (settleAttemptFailure w a failure now).run db = .ok (.commit (some x), db')) :
    ∃ r, fetch db (attempt a) = some r ∧ Excludes x.1 r.poolId db db' := by
  have hensures : (settleAttemptFailure w a failure now).Ensures ⊤ (fun v db' => ∀ x, v =
      .commit (some x) →
      ∃ r, fetch db (attempt a) = some r ∧ Excludes x.1 r.poolId db db') db := by
    refine authenticated_ensures (fun x hx => by cases hx) fun _ => ?_
    refine Prog.ensures_bind ((finishAndDecide_records a _ _ failure now).mono fun out db₁ h => ?_)
    have hdone {db' : Db} (hsame : sparesAttempts.Of db₁ db') :
        ∀ x, Verdict.commit out = .commit (some x) →
          ∃ r, fetch db (attempt a) = some r ∧ Excludes x.1 r.poolId db db' := by
      intro x hx
      obtain ⟨r, r', hr, hg, hlive, hr', hg', hp, hfailed⟩ := h x (Verdict.commit.inj hx)
      exact ⟨r, hr, a, r, hr, hg, rfl, hlive,
        .inr ⟨r', (hsame (attempt a) a rfl).trans hr', hg', hp, hfailed.trans (congrArg some hkind)⟩⟩
    dsimp only
    split
    · exact Prog.ensures_bind (((deleteInputs_sparesAttempts _).ensures _).mono fun _ db' hsame =>
        Prog.ensures_done (hdone hsame))
    · exact Prog.ensures_done (hdone (sparesAttempts.of_refl _))
  exact hensures.of_run h x rfl

/-! ## Interleaved statements -/

/-- The interleavings on the connections `ι` of the statements of any transactions that
    lease and settle, from any reachable database; `owner` says which Generation an
    Attempt's identifier is drawn for. -/
def Interleaved [ManifestHash] (ι : Type) [Fintype ι] [DecidableEq ι] (owner : Uuid → Uuid) :
    Concurrent Db ι → Prop :=
  Machine.Reachable (fun c => (Reaches c.committed ∧ OwnedBy owner c.committed) ∧ c.quiescent)
    (Machine.Fires (Concurrent.next fun t : { t : Txn // t.Draws owner } => t.1.body) fun _ _ => True)

/-- The discipline that asks nothing of the labelled statements. -/
abbrev anyTime (owner : Uuid → Uuid) : Discipline Db := settlements owner fun _ => False

section Interleavings

variable {ι : Type} {owner : Uuid → Uuid} {c c' : Concurrent Db ι}

/-- At any time everything is permitted. -/
theorem anyTime_permits {τ : Type} (a : Action ι τ) (c : Concurrent Db ι) :
    (anyTime owner).Permits a c := by
  cases a with
  | advance i => exact fun _ _ _ _ h => h.elim
  | _ => trivial

/-- Settlements in any order remember the exclusions. -/
theorem remembers_of_settlements {t : Prop} {l l' : DbLife} (hs : l.Sound)
    (h : Relation.ReflTransGen (Settlement t) l l') : l'.Sound ∧ l.Remembers l' := by
  induction h with
  | refl => exact ⟨hs, Life.remembers_refl _⟩
  | tail _ hstep ih => exact ⟨hstep.sound ih.1, ih.2.trans (hstep.remembers ih.1.spared)⟩

variable [ManifestHash] [Fintype ι] [DecidableEq ι]

omit [Fintype ι] [DecidableEq ι] in
theorem leasing_commits (t : { t : Txn // t.Draws owner }) : t.1.body.2.Commits (anyTime owner) :=
  Txn.body_commits t.2

/-- Every interleaving is safe. -/
theorem Interleaved.safe (h : Interleaved ι owner c) : c.Safe (anyTime owner) := by
  have hinit : ∀ db, Reaches db ∧ OwnedBy owner db → (anyTime owner).inv db :=
    fun db hdb => ⟨ReachesBy.sound hdb.1, fun h => (h 0).elim, hdb.2⟩
  refine Concurrent.safe hinit leasing_commits (h.mono ?_)
  rintro c c' ⟨a, -, rfl⟩
  exact ⟨a, anyTime_permits a c, rfl⟩

/-- Pool exclusion is permanent. Once a Pool is excluded for a Generation, no Attempt of the
    Generation is created on it any more, and none is left that it could reject or run out
    of memory on: over every run of transactions, as long as no new Pool gets its
    identifier, and over every interleaving of the statements of leases and settlements.
    A Pool whose Worker is believed to have rejected a Generation, or to have run out of
    memory on it, is excluded. -/
theorem exclusion_permanent (g p : Uuid) :
    (∀ (w : AuthenticatedWorker) (a : Uuid) (now : Time) (db db' : Db),
      (tryHandleLeaseRejected w a now).run db = .ok (.commit (some g), db') →
        ∃ r, fetch db (attempt a) = some r ∧ Excludes g r.poolId db db') ∧
    (∀ (w : AuthenticatedWorker) (a : Uuid) (failure : Attempts.FailureDetails) (now : Time)
      (decision : RetryDecision) (db db' : Db), failure.kind = .outOfMemory →
      (settleAttemptFailure w a failure now).run db = .ok (.commit (some (g, decision)), db') →
        ∃ r, fetch db (attempt a) = some r ∧ Excludes g r.poolId db db') ∧
    (∀ db db', Excludes g p db db' → p ∈ NativeExclusions.excluded db' g) ∧
    (∀ db, Reaches db → p ∈ NativeExclusions.excluded db g →
      ∀ ops : List Op, (∀ op ∈ ops, p ∉ op.drawnPools) →
        NoneAdded g p db (Machine.run Op.apply db ops) ∧
        ∀ op : Op, ¬ Excludes g p (Machine.run Op.apply db ops)
          (op.apply (Machine.run Op.apply db ops))) ∧
    ∀ (ι : Type) [Fintype ι] [DecidableEq ι] (owner : Uuid → Uuid) (c c' : Concurrent Db ι),
      Interleaved ι owner c → p ∈ NativeExclusions.excluded c.committed g →
      Relation.ReflTransGen (Machine.Fires (Concurrent.next fun t : { t : Txn // t.Draws owner } =>
        t.1.body) fun _ _ => True) c c' →
        NoneAdded g p c.committed c'.committed ∧
        ∀ a, ¬ Excludes g p c'.committed
          (Concurrent.next (fun t : { t : Txn // t.Draws owner } => t.1.body) a c').committed := by
  refine ⟨fun _ _ _ _ _ => leaseRejected_excludes, fun _ _ _ _ _ _ _ => outOfMemory_excludes,
    fun _ _ h => h.excluded, fun db hdb hx ops hops => ?_, ?_⟩
  · have hs := ReachesBy.sound hdb
    have hx := excluded_life_iff.2 hx
    obtain ⟨-, -, hold⟩ := onlyOld_run hs (.inl hx) ops hops fun _ _ ha _ _ => ha
    have hnone := noneAdded_of_onlyOld hs hx hold
    exact ⟨hnone, fun _ => hnone.not_excludes⟩
  · intro ι _ _ owner c c' hc hx hpath
    have hsafe := hc.safe
    have hx := excluded_life_iff.2 hx
    obtain ⟨-, hsince⟩ := Concurrent.since hsafe leasing_commits
      (hpath.lift id fun c _ ⟨a, _, he⟩ => ⟨a, anyTime_permits a c, he⟩)
    obtain ⟨-, hr⟩ := remembers_of_settlements hsafe.inv.1 hsince.moves
    have hold : (life c.committed).OnlyOld (life c'.committed) g p := by
      rintro a r ha rfl rfl
      exact hr.2 a r hx ha
    have hnone := noneAdded_of_onlyOld hsafe.inv.1 hx hold
    exact ⟨hnone, fun _ => hnone.not_excludes⟩

end Interleavings

namespace Sample

/-- The first Worker has no memory left. -/
def outOfMemory : Attempts.FailureDetails where
  kind := .outOfMemory
  message := "out of memory"
  workerRetryHint := false

/-- The first Attempt runs out of memory on the first Worker's Pool. -/
def exhausted : List Op := [firstLease, .attemptFailed alpha 41 outOfMemory 1000]

/-- What a transaction commits. -/
def committedIn {α : Type} : Except (Error Db) (Verdict α × Db) → Option α
  | .ok (.commit out, _) => some out
  | _ => none

/-- What was committed in a run that is evaluated. -/
theorem exists_of_committed {α : Type} {p : Body (Verdict α)} {db : Db} {out : α}
    (h : committedIn (p.run db) = some out) : ∃ db', p.run db = .ok (.commit out, db') := by
  rcases hrun : p.run db with _ | ⟨_ | _, db'⟩
  · rw [hrun] at h
    cases h
  · rw [hrun] at h
    cases h
    exact ⟨db', rfl⟩
  · rw [hrun] at h
    cases h

/-- A lease on that Pool, planned before. -/
def stale : Op := .tryAssign ⟨11, 21, 31⟩ 43 2000 true

end Sample

/-- The Pool is excluded by the report, and the stale lease creates no Attempt, in one go or statement
    by statement. -/
theorem exclusion_permanent_stale :
    (∃ r, fetch (Sample.after [Sample.firstLease]) (attempt 41) = some r ∧
      Excludes 31 r.poolId (Sample.after [Sample.firstLease]) (Sample.after Sample.exhausted)) ∧
    21 ∈ NativeExclusions.excluded (Sample.after Sample.exhausted) 31 ∧
    NoneAdded 31 21 (Sample.after Sample.exhausted)
      (Sample.after (Sample.exhausted ++ [Sample.stale])) ∧
    NoneAdded 31 21 (Sample.after Sample.exhausted)
      (Machine.run (Concurrent.next fun t => @Txn.body Sample.manifestHash t.1)
        (⟨Sample.after Sample.exhausted, fun _ => none⟩ : Concurrent Db (Fin 2))
        [.start 0 (⟨.tryAssign ⟨11, 21, 31⟩ 43 2000 true, rfl⟩ : { t : Txn // t.Draws fun _ => 31 }),
          .advance 0, .advance 0]).committed := by
  let _ := Sample.manifestHash
  have hexcludes : ∃ r, fetch (Sample.after [Sample.firstLease]) (attempt 41) = some r ∧
      Excludes 31 r.poolId (Sample.after [Sample.firstLease]) (Sample.after Sample.exhausted) := by
    obtain ⟨db', hrun⟩ : ∃ db', (settleAttemptFailure Sample.alpha 41 Sample.outOfMemory 1000).run
        (Sample.after [Sample.firstLease]) = .ok (.commit (some (31, .requeue)), db') := by
      exact Sample.exists_of_committed (by decide +kernel)
    have hafter : Sample.after Sample.exhausted = db' := by
      have happend :=
        Sample.after_append [Sample.firstLease]
          (.attemptFailed Sample.alpha 41 Sample.outOfMemory 1000)
      refine happend.trans ?_
      rw [Op.apply, Prog.commit, hrun]
    rw [hafter]
    exact (exclusion_permanent 31 21).2.1 _ _ _ _ _ _ _ rfl hrun
  have hx : 21 ∈ NativeExclusions.excluded (Sample.after Sample.exhausted) 31 ∧
      OwnedBy (fun _ => 31) (Sample.after Sample.exhausted) := by decide +kernel
  have hreach := Sample.reaches_after Sample.exhausted
  rw [Sample.after_append]
  generalize Sample.after Sample.exhausted = db at hexcludes hx hreach
  refine ⟨hexcludes, hx.1,
    ((exclusion_permanent 31 21).2.2.2.1 db hreach hx.1 [Sample.stale] ?_).1, ?_⟩
  · rintro op hop
    rw [List.mem_singleton.1 hop]
    exact List.not_mem_nil
  · refine ((exclusion_permanent 31 21).2.2.2.2 (Fin 2) (fun _ => 31) ⟨db, fun _ => none⟩ _
      (.init ⟨⟨hreach, hx.2⟩, fun _ => rfl⟩) hx.1 ?_).1
    exact Machine.path_run _ (Machine.allowed_of_forall (fun _ _ => trivial) _ _)

end Gpq
