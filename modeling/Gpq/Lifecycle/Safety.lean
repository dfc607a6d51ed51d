import Gpq.Lifecycle.Invariants
import Gpq.Lifecycle.Reports

/-!
# Safety of the Remote

The lifecycle's invariants hold of every database that the Remote reaches, in any
order of its transactions and for late, repeated or stale messages:

  * `liveAttempts_le_one`: a Generation has at most one live Attempt, a queued one
    none;
  * `claimedSlots_eq_liveOnPool`: the claimed Slots of a Pool are its live Attempts;
  * `accepted_result_agrees`: an accepted result is unique and final.

Two invariants need a condition on the run. A late acknowledgement can end a
Generation whose current Attempt is live (`terminal_idle`), and a report can
delete a live Attempt with its Pool (`report_intact_iff`).
-/

namespace Gpq

open Sql DbKey

/-- How many live Attempts a Generation has. -/
def liveAttempts (db : Db) (g : Uuid) : ℕ :=
  db.attempts.count fun _ r => r.generationId = g && r.state.isLive

/-- How many live Attempts are on a Pool. -/
def liveOnPool (db : Db) (p : Uuid) : ℕ :=
  db.attempts.count fun _ r => r.poolId = p && r.state.isLive

section Counts

variable {db : Db}

/-- The live Attempts of a Generation, as the lifecycle sees them. -/
theorem liveOf_life_iff {g a : Uuid} : (life db).LiveOf g a ↔
    ∃ r, fetch db (attempt a) = some r ∧ r.generationId = g ∧ r.state.isLive := by
  simp only [Life.LiveOf, life, Option.map_eq_some_iff]
  constructor
  · rintro ⟨_, ⟨r, hr, rfl⟩, hg, hl⟩
    exact ⟨r, hr, hg, hl⟩
  · rintro ⟨r, hr, hg, hl⟩
    exact ⟨r.life, ⟨r, hr, rfl⟩, hg, hl⟩

/-- The live Attempts on a Pool, as the lifecycle sees them. -/
theorem liveOn_life_iff {p a : Uuid} : (life db).LiveOn p a ↔
    ∃ r, fetch db (attempt a) = some r ∧ r.poolId = p ∧ r.state.isLive := by
  simp only [Life.LiveOn, life, Option.map_eq_some_iff]
  constructor
  · rintro ⟨_, ⟨r, hr, rfl⟩, hp, hl⟩
    exact ⟨r, hr, hp, hl⟩
  · rintro ⟨r, hr, hp, hl⟩
    exact ⟨r.life, ⟨r, hr, rfl⟩, hp, hl⟩

/-- They are as many as the database counts. -/
theorem encard_liveOf (g : Uuid) : {a | (life db).LiveOf g a}.encard = liveAttempts db g := by
  rw [liveAttempts, ← Table.encard_eq_count]
  congr 1
  ext a
  simp only [Set.mem_ofPred_eq, liveOf_life_iff, Bool.and_eq_true, decide_eq_true_eq]
  rfl

/-- So are those on a Pool. -/
theorem encard_liveOn (p : Uuid) : {a | (life db).LiveOn p a}.encard = liveOnPool db p := by
  rw [liveOnPool, ← Table.encard_eq_count]
  congr 1
  ext a
  simp only [Set.mem_ofPred_eq, liveOn_life_iff, Bool.and_eq_true, decide_eq_true_eq]
  rfl

theorem liveAttempts_eq_zero_iff {g : Uuid} :
    liveAttempts db g = 0 ↔ ∀ a, ¬ (life db).LiveOf g a := by
  rw [← Nat.cast_eq_zero (R := ℕ∞), ← encard_liveOf, Set.encard_eq_zero,
    Set.eq_empty_iff_forall_notMem]
  rfl

theorem liveAttempts_le_one_iff {g : Uuid} : liveAttempts db g ≤ 1 ↔
    ∀ a a', (life db).LiveOf g a → (life db).LiveOf g a' → a = a' := by
  rw [← Nat.cast_le (α := ℕ∞), ← encard_liveOf, Nat.cast_one, Set.encard_le_one_iff]
  rfl

end Counts

/-! ## Reachable databases -/

theorem life_initial (tenantId : Uuid) :
    life (.initial tenantId) = ⟨fun _ => none, fun _ => none, fun _ => none,
      fun _ _ => (none : Option Unit).isSome⟩ := rfl

theorem sound_initial (tenantId : Uuid) : (life (.initial tenantId)).Sound := by
  rw [life_initial]
  exact ⟨nofun, ⟨nofun, nofun⟩, ⟨nofun, nofun, nofun⟩, nofun, nofun, nofun, nofun⟩

/-- Success, the accepted result and the successful Attempt of a Generation agree. -/
def ResultsAgree (db : Db) (g : Uuid) (row : GenerationRow) : Prop :=
  (row.state = .succeeded ↔ row.acceptedAttemptId.isSome) ∧
    (row.state = .succeeded ↔ ∃ a r, row.acceptedAttemptId = some a ∧
      fetch db (attempt a) = some r ∧ r.generationId = g ∧ r.state = .succeeded) ∧
    ∀ a r, fetch db (attempt a) = some r → r.generationId = g → r.state = .succeeded →
      row.acceptedAttemptId = some a

/-- A Generation has succeeded exactly with its accepted Attempt. -/
theorem resultsAgree_of_sound {db : Db} (h : (life db).Sound) {g : Uuid} {row : GenerationRow}
    (hrow : fetch db (generation g) = some row) : ResultsAgree db g row := by
  obtain ⟨hiff, hown, hback⟩ := h.accepted
  have hg := life_gen_of_fetch hrow
  have hsucc : row.state = .succeeded ↔ row.acceptedAttemptId.isSome := hiff g row.life hg
  refine ⟨hsucc, ⟨fun hs => ?_, fun ⟨a, _, ha, _⟩ => hsucc.2 (by simp [ha])⟩,
    fun a r hr hrg hrs => ?_⟩
  · obtain ⟨a, ha⟩ := Option.isSome_iff_exists.1 (hsucc.1 hs)
    obtain ⟨s, hs, hsg, hss⟩ := hown g row.life a hg ha
    obtain ⟨r, hr, rfl⟩ := Option.map_eq_some_iff.1 hs
    exact ⟨a, r, ha, hr, hsg, hss⟩
  · obtain ⟨s, hs, hsa⟩ := hback a r.life (life_att_of_fetch hr) hrs
    rw [AttemptRow.life_generation, hrg, hg, Option.some_inj] at hs
    rw [← hs] at hsa
    exact hsa

section Reachable

variable {db db' : Db}

/-- Every operation keeps the Slots sound. -/
theorem sound_apply [ManifestHash] (op : Op) (h : (life db).Sound) : (life (op.apply db)).Sound := by
  cases op.effect db with
  | core hpath => exact Machine.preserved_of_path (fun _ _ hl hstep => hstep.sound hl) h hpath
  | late w a now hop hcur r hr hw hlate => exact hlate.sound h
  | report w pools hop hrep =>
    exact Machine.preserved_of_path (fun _ _ hl hstep => hstep.sound hl) (hrep.drop.sound h)
      hrep.refresh

/-- Every reachable database is sound, whatever the run was allowed to do. -/
theorem ReachesBy.sound [ManifestHash] {allowed : Op → Db → Prop} (h : ReachesBy allowed db) :
    (life db).Sound := by
  refine Machine.Reachable.invariant (I := fun db => (life db).Sound) ?_ (fun s s' _ hs hstep => ?_) h
  · rintro _ ⟨tenantId, rfl⟩
    exact sound_initial tenantId
  · obtain ⟨op, -, rfl⟩ := hstep
    exact sound_apply op hs

/-- At most one live Attempt: in every reachable database a Generation has at most
    one leased or running Attempt, and a queued one has none. -/
theorem liveAttempts_le_one [ManifestHash] (h : Reaches db) (g : Uuid) :
    liveAttempts db g ≤ 1 ∧
      ∀ row, fetch db (generation g) = some row → row.state = .queued → liveAttempts db g = 0 := by
  obtain ⟨hone, hqueued⟩ := h.sound.atMostOne
  refine ⟨liveAttempts_le_one_iff.2 (hone g), fun row hrow hq => ?_⟩
  exact liveAttempts_eq_zero_iff.2 fun a => hqueued g row.life a (life_gen_of_fetch hrow) hq

/-- The retried Generation of the installation has one live Attempt. -/
theorem liveAttempts_le_one_retried :
    liveAttempts (Sample.after Sample.retried) 31 = 1 ∧
      liveAttempts (Sample.after Sample.retried) 31 ≤ 1 := by
  let _ := Sample.manifestHash
  exact ⟨by decide +kernel, (liveAttempts_le_one (Sample.reaches_after Sample.retried) 31).1⟩

/-- Slot conservation: in every reachable database the claimed Slots of a Pool are
    its leased and running Attempts and no more than it has; so a live Attempt has
    a Slot to release, and every operation moves the claims by exactly what it
    moves the live Attempts. -/
theorem claimedSlots_eq_liveOnPool [ManifestHash] (h : Reaches db) (p : Uuid) (q : DevicePoolRow)
    (hq : fetch db (devicePool p) = some q) :
    q.claimedSlots = liveOnPool db p ∧ q.claimedSlots ≤ q.totalSlots ∧
      (∀ a r, fetch db (attempt a) = some r → r.poolId = p → r.state.isLive →
        q.release.claimedSlots + 1 = q.claimedSlots) ∧
      ∀ (op : Op) (q' : DevicePoolRow), fetch (op.apply db) (devicePool p) = some q' →
        (q'.claimedSlots : ℤ) - q.claimedSlots =
          (liveOnPool (op.apply db) p : ℤ) - liveOnPool db p := by
  have hconserved : ∀ {db : Db} {q : DevicePoolRow}, (life db).Sound →
      fetch db (devicePool p) = some q → q.claimedSlots = liveOnPool db p := by
    intro db q hs hq
    have hcard := (hs.conserved p q.life (life_pool_of_fetch hq)).1
    rw [encard_liveOn, Nat.cast_inj] at hcard
    exact hcard.symm
  have heq := hconserved h.sound hq
  refine ⟨heq, q.claimed_within_total, fun a r hr hp hl => ?_, fun op q' hq' => ?_⟩
  · -- the live Attempt itself is counted, so the count is not zero
    have hpos : liveOnPool db p ≠ 0 := fun h0 =>
      (Table.count_eq_zero_iff _ _).1 h0 a r hr (by simp [hp, hl])
    simp only [DevicePoolRow.release]
    omega
  · rw [heq, hconserved (sound_apply op h.sound) hq']

/-- The first Attempt of the installation occupies the one Slot of its Pool. -/
theorem claimedSlots_eq_liveOnPool_leased :
    ∃ q, fetch (Sample.after [Sample.firstLease]) (devicePool 21) = some q ∧ q.claimedSlots = 1 ∧
      q.claimedSlots = liveOnPool (Sample.after [Sample.firstLease]) 21 := by
  have hclaimed : (fetch (Sample.after [Sample.firstLease]) (devicePool 21)).map
      (fun q => q.claimedSlots) = some 1 := by decide +kernel
  obtain ⟨q, hq, h1⟩ := Option.map_eq_some_iff.1 hclaimed
  let _ := Sample.manifestHash
  exact ⟨q, hq, h1, (claimedSlots_eq_liveOnPool (Sample.reaches_after _) 21 q hq).1⟩

/-! ## Accepted results -/

/-- A result that the lifecycle has accepted stays accepted along every step. -/
theorem accepted_stays_apply [ManifestHash] (op : Op) {g a : Uuid} {r : GenLife Uuid}
    (hg : (life db).gen g = some r) (ha : r.accepted = some a) :
    ∃ r', (life (op.apply db)).gen g = some r' ∧ r'.accepted = some a := by
  cases op.effect db with
  | core hpath =>
    exact Machine.preserved_of_path
      (I := fun l : DbLife => ∃ r, l.gen g = some r ∧ r.accepted = some a)
      (fun _ _ ⟨_, hr, hra⟩ hstep => hstep.accepted_stays hr hra) ⟨r, hg, ha⟩ hpath
  | late w b now hop hcur s hs hw hlate => exact hlate.accepted_stays hg ha
  | report w pools hop hrep => exact ⟨r, hrep.gen_eq.symm ▸ hg, ha⟩

/-- Accepted-result agreement: in every reachable database success, the accepted
    result and the one successful Attempt agree; along every continuation of the
    run an accepted result stays and no other Attempt succeeds; and a result that
    is not accepted changes nothing. -/
theorem accepted_result_agrees [ManifestHash] (h : Reaches db)
    (hrun : Relation.ReflTransGen (Machine.Fires Op.apply fun _ _ => True) db db') :
    (∀ g row, fetch db (generation g) = some row → ResultsAgree db g row) ∧
      (∀ g row a, fetch db (generation g) = some row → row.acceptedAttemptId = some a →
        ∃ row', fetch db' (generation g) = some row' ∧ row'.acceptedAttemptId = some a) ∧
      (∀ a a' r r', fetch db (attempt a) = some r → fetch db' (attempt a') = some r' →
        r.generationId = r'.generationId → r.state = .succeeded → r'.state = .succeeded → a = a') ∧
      ∀ id w now out db'', (Generations.acceptResult id w now).run db = .ok (out, db'') →
        (∀ g, out ≠ .accepted g) → db'' = db := by
  have h' : Reaches db' := h.trans hrun
  have hstays : ∀ g row a, fetch db (generation g) = some row → row.acceptedAttemptId = some a →
      ∃ row', fetch db' (generation g) = some row' ∧ row'.acceptedAttemptId = some a := by
    intro g row a hrow ha
    have hlife : ∃ r, (life db').gen g = some r ∧ r.accepted = some a := by
      refine Machine.preserved_of_path (I := fun db => ∃ r, (life db).gen g = some r ∧
        r.accepted = some a) ?_ ⟨row.life, life_gen_of_fetch hrow, ha⟩ hrun
      rintro s _ ⟨r, hr, hra⟩ ⟨op, -, rfl⟩
      exact accepted_stays_apply op hr hra
    obtain ⟨_, hr, hra⟩ := hlife
    obtain ⟨row', hrow', rfl⟩ := Option.map_eq_some_iff.1 hr
    exact ⟨row', hrow', hra⟩
  refine ⟨fun g row hrow => resultsAgree_of_sound h.sound hrow, hstays, ?_, ?_⟩
  · intro a a' r r' hr hr' hg hs hs'
    obtain ⟨g, hgen, -⟩ := h.sound.accepted.2.2 a r.life (life_att_of_fetch hr) hs
    obtain ⟨row, hrow, rfl⟩ := Option.map_eq_some_iff.1 hgen
    have hacc := (resultsAgree_of_sound h.sound hrow).2.2 a r hr rfl hs
    obtain ⟨row', hrow', hacc'⟩ := hstays _ row a hrow hacc
    have := (resultsAgree_of_sound h'.sound hrow').2.2 a' r' hr' hg.symm hs'
    exact Option.some_inj.1 (hacc'.symm.trans this)
  · intro id w now out db'' hout hne
    rcases (acceptResult_ensures id w now).of_run hout with ⟨-, hdb⟩ | ⟨g, rfl, -⟩
    · exact hdb
    · exact absurd rfl (hne g)

/-- The installation's Generation succeeds by its first Attempt, and stays so when
    the result is reported again. -/
theorem accepted_result_agrees_replayed :
    let result : Op := .attemptResult Sample.alpha 41 [] 1
    ∃ row row', fetch (Sample.after [Sample.firstLease, result]) (generation 31) = some row ∧
      row.state = .succeeded ∧ row.acceptedAttemptId = some 41 ∧
      fetch (Sample.after [Sample.firstLease, result, result]) (generation 31) = some row' ∧
      row'.acceptedAttemptId = some 41 := by
  intro result
  have hstate : (fetch (Sample.after [Sample.firstLease, result]) (generation 31)).map
      (fun row => (row.state, row.acceptedAttemptId)) = some (.succeeded, some 41) := by
    decide +kernel
  obtain ⟨row, hrow, heq⟩ := Option.map_eq_some_iff.1 hstate
  obtain ⟨hs, ha⟩ := Prod.mk.inj heq
  let _ := Sample.manifestHash
  have hrun : Relation.ReflTransGen (Machine.Fires Op.apply fun _ _ => True)
      (Sample.after [Sample.firstLease, result]) (Sample.after [Sample.firstLease, result, result]) :=
    .single ⟨result, trivial, Sample.after_append [Sample.firstLease, result] result⟩
  obtain ⟨row', hrow', ha'⟩ :=
    (accepted_result_agrees (Sample.reaches_after _) hrun).2.1 31 row 41 hrow ha
  exact ⟨row, row', hrow, hs, ha, hrow', ha'⟩

/-! ## Late acknowledgements -/

/-- A late acknowledgement that takes effect although another Attempt is live: a
    Worker with a valid credential names a settled Attempt of its own, whose
    Generation is cancelling and has a live Attempt. -/
def Op.isStaleAcknowledgement (op : Op) (db : Db) : Bool :=
  match op with
  | cancelAcknowledged w id _ =>
    w.isCurrent db && (fetch db (attempt id)).any fun r =>
      r.workerId = w.workerId && !r.state.isLive &&
      ((fetch db (generation r.generationId)).any fun g => g.state = .cancelling) &&
      0 < liveAttempts db r.generationId
  | _ => false

/-- Every operation that is no such acknowledgement leaves terminal Generations
    without a live Attempt. -/
theorem terminalIdle_apply [ManifestHash] (op : Op) (hop : op.isStaleAcknowledgement db = false)
    (hs : (life db).Sound) (h : (life db).TerminalIdle) : (life (op.apply db)).TerminalIdle := by
  cases op.effect db with
  | core hpath =>
    exact (Machine.preserved_of_path (I := fun l => l.Sound ∧ l.TerminalIdle)
      (fun _ _ hl hstep => ⟨hstep.sound hl.1, hstep.terminalIdle hl.1 hl.2⟩) ⟨hs, h⟩ hpath).2
  | late w a now he hcur r hr hw hlate =>
    subst he
    refine (hlate.terminalIdle_iff (life_att_of_fetch hr) h).2 ?_
    obtain ⟨hdead, g, hg, hc⟩ := hlate.cancelling (life_att_of_fetch hr)
    obtain ⟨row, hrow, rfl⟩ := Option.map_eq_some_iff.1 hg
    have hdead : r.state.isLive = false := by simpa using hdead
    have hany : (fetch db (generation r.generationId)).any fun g => g.state = .cancelling := by
      rw [show fetch db (generation r.generationId) = some row from hrow]
      simpa using hc
    rw [AttemptRow.life_generation, ← liveAttempts_eq_zero_iff]
    simpa [Op.isStaleAcknowledgement, hcur, hr, hw, hdead, hany] using hop
  | report w pools he hrep =>
    exact Machine.preserved_of_path (fun _ _ hl hstep => hstep.terminalIdle hl)
      (hrep.drop.terminalIdle h) hrep.refresh

/-- A terminal Generation holds no live Attempt, in every database reached by a run
    without such an acknowledgement. -/
theorem terminal_idle [ManifestHash]
    (h : ReachesBy (fun op db => op.isStaleAcknowledgement db = false) db) (g : Uuid)
    (row : GenerationRow) (hrow : fetch db (generation g) = some row) (ht : row.state.isTerminal) :
    liveAttempts db g = 0 := by
  have hidle : (life db).TerminalIdle := by
    refine Machine.Reachable.invariant (I := fun db => (life db).TerminalIdle) ?_ ?_ h
    · rintro _ ⟨tenantId, rfl⟩
      rw [life_initial]
      exact nofun
    · rintro s _ hs hidle ⟨op, hop, rfl⟩
      exact terminalIdle_apply op hop (ReachesBy.sound hs) hidle
  exact liveAttempts_eq_zero_iff.2 fun a => hidle g row.life a (life_gen_of_fetch hrow) ht

/-- The first Worker's acknowledgement comes after the Generation was retried and
    cancelled: it is cancelled while the second Worker's Attempt is live. -/
theorem terminal_not_idle :
    let db := Sample.after (Sample.retried ++
      [.cancelGeneration 31 45000001, .cancelAcknowledged Sample.alpha 41 45000002])
    @Reaches Sample.manifestHash db ∧ ¬ ∀ g row, fetch db (generation g) = some row →
      row.state.isTerminal → liveAttempts db g = 0 := by
  intro db
  refine ⟨Sample.reaches_after _, fun h => ?_⟩
  have hstate : (fetch db (generation 31)).map (fun row => row.state.isTerminal) = some true ∧
      liveAttempts db 31 = 1 := by decide +kernel
  obtain ⟨row, hrow, ht⟩ := Option.map_eq_some_iff.1 hstate.1
  exact absurd (hstate.2.symm.trans (h 31 row hrow ht)) (by decide)

/-- The second Worker's acknowledgement is in time: no live Attempt remains. -/
theorem terminal_idle_acknowledged :
    let ops := Sample.retried ++
      [.cancelGeneration 31 45000001, .cancelAcknowledged Sample.beta 42 45000002]
    ∃ row, fetch (Sample.after ops) (generation 31) = some row ∧ row.state.isTerminal ∧
      liveAttempts (Sample.after ops) 31 = 0 := by
  intro ops
  have hstate : (fetch (Sample.after ops) (generation 31)).map (fun row => row.state.isTerminal) =
      some true := by decide +kernel
  obtain ⟨row, hrow, ht⟩ := Option.map_eq_some_iff.1 hstate
  have hallowed : Machine.Allowed (@Op.apply Sample.manifestHash)
      (fun op db => op.isStaleAcknowledgement db = false) (.initial 1) (Sample.setUp ++ ops) := by
    decide +kernel
  let _ := Sample.manifestHash
  exact ⟨row, hrow, ht, terminal_idle (reachesBy_run 1 _ hallowed) 31 row hrow ht⟩

/-! ## Capability reports -/

/-- A report that no longer advertises a Pool with a live Attempt on it. -/
def Op.dropsLive [ManifestHash] (op : Op) (db : Db) : Bool :=
  match op with
  | capabilityReport w pools => db.attempts.rows.any fun e =>
    e.2.state.isLive && e.2.poolId ∈ droppedPools db w.workerId pools
  | _ => false

/-- No work is destroyed: live Attempts and Attempts whose result was accepted are
    as they were, and active Generations have the live Attempts they had. -/
structure Intact (db db' : Db) : Prop where
  attempts : ∀ a r, fetch db (attempt a) = some r → (r.state.isLive ∨ ∃ g row,
    fetch db (generation g) = some row ∧ row.acceptedAttemptId = some a) →
    fetch db' (attempt a) = some r
  generations : ∀ g row, fetch db' (generation g) = some row → row.state.isActive →
    liveAttempts db' g = liveAttempts db g

/-- A report drops no live Attempt exactly if none is on a Pool that it does not name. -/
theorem dropsLive_eq_false_iff [ManifestHash] {w : AuthenticatedWorker}
    {pools : List (Uuid × PoolAdvertisement)} :
    (Op.capabilityReport w pools).dropsLive db = false ↔ ∀ a r, fetch db (attempt a) = some r →
      r.state.isLive → r.poolId ∉ droppedPools db w.workerId pools := by
  simp only [Op.dropsLive, List.any_eq_false, Bool.and_eq_true, decide_eq_true_eq, not_and,
    Prod.forall]
  exact forall₂_congr fun a r => imp_congr Table.mem_rows Iff.rfl

/-- A report that commits destroys no work exactly when no live Attempt is on a Pool
    that it drops. -/
theorem Reported.intact_iff [ManifestHash] {w : AuthenticatedWorker}
    {pools : List (Uuid × PoolAdvertisement)} (h : Reported db w.workerId pools db') :
    Intact db db' ↔ (Op.capabilityReport w pools).dropsLive db = false := by
  rw [dropsLive_eq_false_iff]
  constructor
  · intro hi a r hr hl hD
    have hkept := hi.attempts a r hr (.inl hl)
    rw [h.attempts, hr, Option.filter_some, if_neg (by simpa using hD)] at hkept
    cases hkept
  · intro hnone
    have hlive : ∀ a r, fetch db (attempt a) = some r → r.state.isLive →
        fetch db' (attempt a) = some r := fun a r hr hl => by
      rw [h.attempts, hr, Option.filter_some, if_pos (by simpa using hnone a r hr hl)]
    refine ⟨fun a r hr hor => ?_, fun g row hrow hact => ?_⟩
    · rcases hor with hl | ⟨g, row, hrow, hacc⟩
      · exact hlive a r hr hl
      · -- the schema refuses to delete an Attempt whose result was accepted
        have hD := h.drop.pool_notMem (life_gen_of_fetch hrow) hacc (life_att_of_fetch hr)
        rw [h.attempts, hr, Option.filter_some, if_pos (by simpa using hD)]
    · rw [← Nat.cast_inj (R := ℕ∞), ← encard_liveOf, ← encard_liveOf]
      congr 1
      ext a
      simp only [Set.mem_ofPred_eq, liveOf_life_iff]
      constructor
      · rintro ⟨r, hr, hg, hl⟩
        rw [h.attempts] at hr
        exact ⟨r, (Option.filter_eq_some_iff.1 hr).1, hg, hl⟩
      · rintro ⟨r, hr, hg, hl⟩
        exact ⟨r, hlive a r hr hl, hg, hl⟩

/-- An operation that drops no live Attempt leaves active Generations busy. -/
theorem activeBusy_apply [ManifestHash] (op : Op) (hop : op.dropsLive db = false)
    (h : (life db).ActiveBusy) :
    (life (op.apply db)).ActiveBusy := by
  cases op.effect db with
  | core hpath => exact Machine.preserved_of_path (fun _ _ hl hstep => hstep.activeBusy hl) h hpath
  | late w a now he hcur r hr hw hlate => exact hlate.activeBusy h
  | report w pools he hrep =>
    subst he
    refine Machine.preserved_of_path (fun _ _ hl hstep => hstep.activeBusy hl)
      (hrep.drop.activeBusy (fun p hp a ha => ?_) h) hrep.refresh
    obtain ⟨r, hr, rfl, hl⟩ := liveOn_life_iff.1 ha
    exact dropsLive_eq_false_iff.1 hop a r hr hl hp

/-- A report that commits destroys no work exactly when no live Attempt is on a Pool
    that it drops; and in a run whose reports all keep to that, every running or
    cancelling Generation has its one live Attempt. -/
theorem report_intact_iff [ManifestHash] :
    (∀ (db db' : Db) w pools, Reaches db →
      (tryHandleCapabilityReport w pools).run db = .ok (.commit (), db') →
      (Intact db db' ↔ (Op.capabilityReport w pools).dropsLive db = false)) ∧
    ∀ db, ReachesBy (fun op db => op.dropsLive db = false) db → ∀ g row,
      fetch db (generation g) = some row → row.state.isActive → liveAttempts db g = 1 := by
  refine ⟨fun db db' w pools _ hrun => ?_, fun db h g row hrow hact => ?_⟩
  · exact ((capabilityReport_ensures w pools).of_run hrun () rfl).intact_iff
  · have hbusy : (life db).ActiveBusy := by
      refine Machine.Reachable.invariant (I := fun db => (life db).ActiveBusy) ?_ ?_ h
      · rintro _ ⟨tenantId, rfl⟩
        rw [life_initial]
        exact nofun
      · rintro s _ _ hbusy ⟨op, hop, rfl⟩
        exact activeBusy_apply op hop hbusy
    obtain ⟨a, ha⟩ := hbusy g row.life (life_gen_of_fetch hrow) hact
    have hle := liveAttempts_le_one_iff.2 (h.sound.atMostOne.1 g)
    have hne : liveAttempts db g ≠ 0 := fun h0 => liveAttempts_eq_zero_iff.1 h0 a ha
    omega

/-- A report before the Pool's runtime has started, with the accelerator still
    unknown, deletes the live Attempt of a running Generation. -/
theorem report_not_intact :
    let db := Sample.after [Sample.firstLease]
    @Reaches Sample.manifestHash db ∧ ∃ db', (@tryHandleCapabilityReport Sample.manifestHash
      Sample.alpha [(23, { Sample.pool with accelerator := "" })]).run db = .ok (.commit (), db') ∧
      ¬ Intact db db' := by
  intro db
  refine ⟨Sample.reaches_after _, ?_⟩
  have hrun : (Verdict.committed ((@tryHandleCapabilityReport Sample.manifestHash Sample.alpha
      [(23, { Sample.pool with accelerator := "" })]).run db)).any (fun c =>
        (fetch db (attempt 41)).any (fun r => r.state.isLive) &&
          (fetch c.2 (attempt 41)).isNone) = true := by
    decide +kernel
  obtain ⟨⟨⟨⟩, db'⟩, hcommitted, hgone⟩ := (Option.any_eq_true ..).1 hrun
  obtain ⟨hlive, hnone⟩ := Bool.and_eq_true_iff.1 hgone
  obtain ⟨r, hr, hl⟩ := (Option.any_eq_true ..).1 hlive
  refine ⟨db', Verdict.committed_eq_some.1 hcommitted, fun hi => ?_⟩
  rw [hi.attempts 41 r hr (.inl hl)] at hnone
  cases hnone

/-- A report that still advertises the Pool leaves the live Attempt, and the running
    Generation keeps it. -/
theorem report_intact_advertised :
    ∃ db', (@tryHandleCapabilityReport Sample.manifestHash Sample.alpha [(23, Sample.pool)]).run
        (Sample.after [Sample.firstLease]) = .ok (.commit (), db') ∧
      Intact (Sample.after [Sample.firstLease]) db' ∧
      liveAttempts (Sample.after [Sample.firstLease]) 31 = 1 := by
  let _ := Sample.manifestHash
  have hstate : (Verdict.committed ((tryHandleCapabilityReport Sample.alpha [(23, Sample.pool)]).run
      (Sample.after [Sample.firstLease]))).isSome = true ∧
    (Op.capabilityReport Sample.alpha [(23, Sample.pool)]).dropsLive
      (Sample.after [Sample.firstLease]) = false ∧
    (fetch (Sample.after [Sample.firstLease]) (generation 31)).map (fun r => r.state.isActive) =
      some true ∧
    Machine.Allowed Op.apply (fun op db => op.dropsLive db = false) (.initial 1)
      (Sample.setUp ++ [Sample.firstLease]) := by decide +kernel
  obtain ⟨hrun, hkeeps, hactive, hallowed⟩ := hstate
  obtain ⟨row, hrow, hact⟩ := Option.map_eq_some_iff.1 hactive
  obtain ⟨⟨⟨⟩, db'⟩, hcommitted⟩ := Option.isSome_iff_exists.1 hrun
  have heq := Verdict.committed_eq_some.1 hcommitted
  exact ⟨db', heq, (report_intact_iff.1 _ _ _ _ (Sample.reaches_after _) heq).2 hkeeps,
    report_intact_iff.2 _ (reachesBy_run 1 _ hallowed) 31 row hrow hact⟩

end Reachable

end Gpq
