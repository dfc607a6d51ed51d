import Gpq.Lib.Sweep
import Gpq.Lifecycle.Planning

/-!
# Starved Generations

Each run of the starvation sweep reads the oldest queued Generations and expires those among
them that are overdue and that no Pool is left for. Run after run, this is a sweep of the
queue (`queue_swept`): an overdue Generation that no Pool can run expires at last exactly where
the older ones that stay queued do not fill a whole run (`starved_expires_iff`).
-/

namespace Gpq

open Sql DbKey

/-- The queue, in the order in which the query returns it. -/
def Generations.queue (db : Db) : List (Uuid × GenerationRow) :=
  (db.generations.rows.filter fun e => e.2.state = .queued).insertionSort
    fun a b => a.2.createdAt ≤ b.2.createdAt

/-- A Generation created later is not yet twice as old as the maximum queue age. -/
def starvationCutoff (now : Time) (db : Db) : Time :=
  now - ((((fetch db tenant).filter fun r => r.deletedAt.isNone).map TenantRow.settings).getD
    .default).maximumQueueAge * starvationExpiryMultiplier

section Defs

variable [ManifestHash]

/-- The Generation's requirement can be rebuilt, and no ready Pool that is left for it admits it. -/
def stranded (db : Db) (e : Uuid × GenerationRow) : Bool :=
  (Generations.requirementFromParts db e.2).any fun requirement =>
    !hasUnrejectedCandidate ((Workers.capabilities db).map Prod.fst) requirement
      (NativeExclusions.excluded db e.1)

/-- What the sweep expires where it looks at it. -/
def doomed (now : Time) (db : Db) (e : Uuid × GenerationRow) : Bool :=
  e.2.createdAt ≤ starvationCutoff now db && stranded db e

/-- The database after so many sweeps. -/
def sweptBy (times : ℕ → Time) (db : Db) : ℕ → Db
  | 0 => db
  | n + 1 => (Op.expireStarvedQueue (times n)).apply (sweptBy times db n)

end Defs

/-- The databases agree in all but Generations and Artifacts. -/
structure SameFleet (db db' : Db) : Prop where
  tenantId : db'.tenantId = db.tenantId
  others : ∀ k, (∀ g, k ≠ generation g) → (∀ i, k ≠ artifact i) → fetch db' k = fetch db k

section Fleet

variable {db db' : Db}

theorem SameFleet.trans {db'' : Db} (h : SameFleet db db') (h' : SameFleet db' db'') :
    SameFleet db db'' :=
  ⟨h'.tenantId.trans h.tenantId, fun k hg ha => (h'.others k hg ha).trans (h.others k hg ha)⟩

theorem SameFleet.starvationCutoff_eq (h : SameFleet db db') (now : Time) :
    starvationCutoff now db' = starvationCutoff now db := by
  rw [starvationCutoff, h.others tenant nofun nofun, starvationCutoff]

theorem SameFleet.buildSlotCapability_eq (h : SameFleet db db') (p : Uuid) (pool : DevicePoolRow) :
    Workers.buildSlotCapability db' p pool = Workers.buildSlotCapability db p pool := by
  have hversions : ∀ v, fetch db' (modelVersion v) = fetch db (modelVersion v) :=
    fun v => h.others _ nofun nofun
  simp only [Workers.buildSlotCapability, hversions, h.tenantId]

theorem SameFleet.unrevoked_eq (h : SameFleet db db') (pool : DevicePoolRow) :
    Workers.unrevoked db' pool = Workers.unrevoked db pool := by
  rw [Workers.unrevoked, h.others (worker _) (by simp) (by simp), Workers.unrevoked]

variable [ManifestHash]

theorem SameFleet.requirementFromParts_eq (h : SameFleet db db') (row : GenerationRow) :
    Generations.requirementFromParts db' row = Generations.requirementFromParts db row := by
  rw [Generations.requirementFromParts, h.others (modelVersion _) (by simp) (by simp), h.tenantId,
    Generations.requirementFromParts]

/-- Only a registered Pool can run a Generation. -/
theorem not_canRun_of_rows {g : Uuid} (h : ∀ e ∈ db.devicePools.rows, ¬ CanRun db e.1 g) (p : Uuid) :
    ¬ CanRun db p g := by
  intro hrun
  have hrun' := hrun
  obtain ⟨pool, -, -, hp, -⟩ := hrun'
  exact h (p, pool) (Table.mem_rows.2 hp) hrun

/-- The same Pools can run a Generation that is the same. -/
theorem SameFleet.canRun (h : SameFleet db db') {p g : Uuid}
    (hrow : fetch db' (generation g) = fetch db (generation g)) (hrun : CanRun db' p g) :
    CanRun db p g := by
  obtain ⟨pool, row, requirement, hp, hlive, hrow', hreq, hadmits⟩ := hrun
  exact ⟨pool, row, requirement, (h.others (devicePool p) nofun nofun).symm.trans hp,
    (h.unrevoked_eq pool).symm.trans hlive, hrow.symm.trans hrow',
      (h.requirementFromParts_eq row).symm.trans hreq,
    h.buildSlotCapability_eq p pool ▸ hadmits⟩

/-- Who is stranded depends on the fleet only. -/
theorem SameFleet.stranded_eq (h : SameFleet db db') (e : Uuid × GenerationRow) :
    stranded db' e = stranded db e := by
  have hexcluded : ∀ p, p ∈ NativeExclusions.excluded db' e.1 ↔
      p ∈ NativeExclusions.excluded db e.1 :=
    fun p => NativeExclusions.mem_excluded_congr (fun a => h.others (attempt a) nofun nofun)
      (h.others (rejection e.1 p) nofun nofun)
  have hpools : ∀ p, fetch db' (devicePool p) = fetch db (devicePool p) :=
    fun p => h.others _ nofun nofun
  rw [stranded, h.requirementFromParts_eq, stranded]
  refine congrArg (Option.any · _) (funext fun requirement => ?_)
  rw [Bool.not_inj_iff, Bool.eq_iff_iff, hasUnrejectedCandidate_iff, hasUnrejectedCandidate_iff]
  simp only [hpools, h.unrevoked_eq, hexcluded, h.buildSlotCapability_eq]

theorem SameFleet.doomed_eq (h : SameFleet db db') (now : Time) : doomed now db' = doomed now db := by
  funext e
  rw [doomed, h.starvationCutoff_eq, h.stranded_eq, doomed]

end Fleet

/-! ## One sweep -/

/-- The queued rows, in the order of the table. -/
def queuedRows (db : Db) : List (Uuid × GenerationRow) :=
  db.generations.rows.filter fun e => e.2.state = .queued

/-- Rows leave the queue, and none enters it. -/
def Shrinks (db db' : Db) : Prop := db'.tenantId = db.tenantId ∧
    (queuedRows db').Sublist (queuedRows db)

section Step

variable {db db' : Db} {now : Time} {g : Uuid} {row : GenerationRow}

theorem mem_queuedRows : (g, row) ∈ queuedRows db ↔ fetch db (generation g) = some row ∧
    row.state = .queued := by
  rw [queuedRows, List.mem_filter, Table.mem_rows, decide_eq_true_eq]
  rfl

theorem mem_queue : (g, row) ∈ Generations.queue db ↔ fetch db (generation g) = some row ∧
    row.state = .queued := by
  rw [Generations.queue, List.mem_insertionSort]
  exact mem_queuedRows

theorem nodup_queuedRows (db : Db) : ((queuedRows db).map Prod.fst).Nodup :=
  db.generations.rows_nodup_keys.sublist (List.filter_sublist.map _)

theorem nodup_queue (db : Db) : ((Generations.queue db).map Prod.fst).Nodup :=
  ((List.perm_insertionSort _ _).map Prod.fst).nodup_iff.2 (nodup_queuedRows db)

theorem Shrinks.refl (db : Db) : Shrinks db db := ⟨rfl, .refl _⟩

theorem Shrinks.trans {db'' : Db} (h : Shrinks db db') (h' : Shrinks db' db'') : Shrinks db db'' :=
  ⟨h'.1.trans h.1, h'.2.trans h.2⟩

/-- A Generation that expires leaves the queue, and the others keep their order. -/
theorem shrinks_store (hstate : row.state ≠ .queued) :
    Shrinks db (store db (generation g) (some row)) := by
  refine ⟨rfl, ?_⟩
  have hrows : (store db (generation g) (some row)).generations.rows =
      (g, row) :: Table.rows (db.generations.erase g) := rfl
  rw [queuedRows, hrows, List.filter_cons_of_neg (by simpa using hstate), queuedRows]
  exact ((List.kerase_sublist g db.generations.entries).map _).filter _

/-- Artifacts are no part of the queue. -/
theorem shrinks_applyAll_artifacts {ws : List (Write Db)} (h : ∀ w ∈ ws, ∃ i, w.1 = artifact i) :
    Shrinks db (applyAll db ws) := by
  induction ws generalizing db with
  | nil => exact .refl db
  | cons w ws ih =>
    obtain ⟨⟨i, hi⟩, hws⟩ := List.forall_mem_cons.1 h
    obtain ⟨k, r⟩ := w
    obtain rfl : k = artifact i := hi
    exact Shrinks.trans ⟨rfl, .refl _⟩ (ih hws)

theorem expire_ensures_shrinks {db₀ : Db} (h : Shrinks db₀ db) :
    (Generations.expire g now).Ensures ⊤ (fun _ db' => Shrinks db₀ db') db :=
  Prog.ensures_update (fun _ _ _ => ⟨trivial, h.trans (shrinks_store nofun)⟩) fun _ => h

/-- Inputs are deleted without a change of the queue. -/
theorem deleteInputs_ensures_shrinks {db₀ : Db} (h : Shrinks db₀ db) :
    (Artifacts.deleteInputsForGeneration g).Ensures ⊤ (fun _ db' => Shrinks db₀ db') db := by
  refine Prog.ensures_write fun b ws hws => ⟨fun _ => trivial,
    h.trans (shrinks_applyAll_artifacts fun w hw => ?_)⟩
  cases hws
  obtain ⟨e, -, rfl⟩ := List.mem_map.1 hw
  exact ⟨e.1, rfl⟩

/-- A sweep only shrinks the queue. -/
theorem sweep_shrinks [ManifestHash] (now : Time) (db : Db) :
    Shrinks db ((Op.expireStarvedQueue now).apply db) := by
  have hbody : (expireStarvedQueue now).Ensures ⊤ (fun _ db' => Shrinks db db') db := by
    refine Prog.ensures_read (Prog.ensures_read ?_)
    rw [Prog.done_bind]
    split
    · exact .refl db
    refine Prog.ensures_read (Prog.ensures_read ?_)
    rw [Prog.done_bind]
    refine Prog.ensures_bind ((Prog.ensures_forEach (I := Shrinks db) (fun candidate _ db' h => ?_)
      (.refl db)).mono fun _ _ h => h)
    split
    · refine Prog.ensures_bind ((expire_ensures_shrinks h).mono fun expired db'' h' => ?_)
      split
      · exact deleteInputs_ensures_shrinks h'
      · exact h'
    · exact h
  exact Prog.Ensures.commit (hbody.mono fun _ _ h _ _ => h) (.refl db)

variable [ManifestHash]

/-- The sweep leaves the Pools and the settings alone. -/
theorem sweep_sameFleet (now : Time) (db : Db) :
    SameFleet db ((Op.expireStarvedQueue now).apply db) :=
  ⟨(sweep_shrinks now db).1, (sweep_applied now db).others⟩

/-- What the sweep expires stands among the first, and is doomed. -/
theorem exists_overdue_iff : (∃ c ∈ overdue now db, starved db c ∧ c.generationId = g) ↔
    ∃ e ∈ (Generations.queue db).take sweepLimit, doomed now db e ∧ e.1 = g := by
  simp only [overdue, List.mem_filter, Generations.queued, List.mem_filterMap, Option.map_eq_some_iff,
    decide_eq_true_eq]
  constructor
  · rintro ⟨_, ⟨⟨e, he, requirement, hreq, rfl⟩, hold⟩, hstarved, rfl⟩
    refine ⟨e, he, ?_, rfl⟩
    rw [doomed, stranded, hreq]
    exact Bool.and_eq_true_iff.2 ⟨decide_eq_true hold, hstarved⟩
  · rintro ⟨e, he, hdoomed, rfl⟩
    obtain ⟨hold, hstranded⟩ := Bool.and_eq_true_iff.1 hdoomed
    obtain ⟨requirement, hreq, hstarved⟩ := (Option.any_eq_true _ _).1 hstranded
    exact ⟨_, ⟨⟨e, he, requirement, hreq, rfl⟩, of_decide_eq_true hold⟩, hstarved, rfl⟩

/-- A queued row stays queued but where the sweep expires it. -/
theorem mem_queuedRows_swept (h : (g, row) ∈ queuedRows db) :
    (g, row) ∈ queuedRows ((Op.expireStarvedQueue now).apply db) ↔
      ¬ ∃ e ∈ (Generations.queue db).take sweepLimit, doomed now db e ∧ e.1 = g := by
  obtain ⟨hrow, hqueued⟩ := mem_queuedRows.1 h
  rw [← exists_overdue_iff, mem_queuedRows]
  obtain ⟨hsame, hnone⟩ | ⟨hexpires, row', hrow', hexpired⟩ := (sweep_applied now db).generations g
  · refine iff_of_true ⟨hsame.trans hrow, hqueued⟩ ?_
    rintro ⟨c, hc, hstarved, hg⟩
    exact List.not_mem_nil (hnone c hc hstarved hg)
  · refine iff_of_false ?_ (not_not.2 hexpires)
    rintro ⟨hstays, -⟩
    obtain rfl := Option.some_inj.1 (hrow'.symm.trans hstays)
    cases hexpired.symm.trans hqueued

/-- A run of the sweep is a sweep of the queue. -/
theorem queue_swept (now : Time) (db : Db) :
    Generations.queue ((Op.expireStarvedQueue now).apply db) =
    Queue.sweep sweepLimit (doomed now db) (Generations.queue db) := by
  have htotal : Std.Total fun a b : Uuid × GenerationRow => a.2.createdAt ≤ b.2.createdAt :=
    ⟨fun _ _ => Int.le_total _ _⟩
  have htrans : IsTrans (Uuid × GenerationRow) fun a b => a.2.createdAt ≤ b.2.createdAt :=
    ⟨fun _ _ _ => Int.le_trans⟩
  let queue := Generations.queue db
  let stays (e : Uuid × GenerationRow) : Bool :=
    !(queue.take sweepLimit).any fun e' => doomed now db e' && e'.1 = e.1
  have hrows : queuedRows ((Op.expireStarvedQueue now).apply db) = (queuedRows db).filter stays := by
    refine Queue.eq_filter_of_sublist (sweep_shrinks now db).2 (nodup_queuedRows db).of_map
      fun e he => ?_
    rw [mem_queuedRows_swept he, Bool.not_eq_true', Bool.eq_false_iff, Ne, List.any_eq_true]
    simp only [Bool.and_eq_true, decide_eq_true_eq]
    rfl
  have hkeys : ((queue.take sweepLimit ++ queue.drop sweepLimit).map Prod.fst).Nodup := by
    rw [List.take_append_drop]
    exact nodup_queue db
  rw [List.map_append, List.nodup_append'] at hkeys
  have hfirst : (queue.take sweepLimit).filter stays =
      (queue.take sweepLimit).filter fun e => !doomed now db e := by
    refine List.filter_congr fun e he => congrArg (! ·) (Bool.eq_iff_iff.2 ?_)
    rw [List.any_eq_true]
    constructor
    · rintro ⟨e', he', h⟩
      obtain ⟨hdoomed, hkey⟩ := Bool.and_eq_true_iff.1 h
      rwa [List.inj_on_of_nodup_map hkeys.1 he' he (of_decide_eq_true hkey)] at hdoomed
    · exact fun hdoomed => ⟨e, he, Bool.and_eq_true_iff.2 ⟨hdoomed, decide_eq_true rfl⟩⟩
  have hrest : (queue.drop sweepLimit).filter stays = queue.drop sweepLimit := by
    refine List.filter_eq_self.2 fun e he => ?_
    rw [Bool.not_eq_true', Bool.eq_false_iff, Ne, List.any_eq_true]
    rintro ⟨e', he', h⟩
    have hkey : e'.1 = e.1 := of_decide_eq_true (Bool.and_eq_true_iff.1 h).2
    exact hkeys.2.2 (List.mem_map_of_mem he') (hkey ▸ List.mem_map_of_mem he)
  calc Generations.queue ((Op.expireStarvedQueue now).apply db)
      = ((queuedRows db).filter stays).insertionSort fun a b => a.2.createdAt ≤ b.2.createdAt := by
        rw [← hrows]
        rfl
    _ = (queue.take sweepLimit ++ queue.drop sweepLimit).filter stays := by
        rw [List.take_append_drop, ← Queue.filter_insertionSort]
        rfl
    _ = Queue.sweep sweepLimit (doomed now db) queue := by
        rw [List.filter_append, hfirst, hrest, Queue.sweep]

end Step

/-! ## Every sweep -/

section Runs

variable [ManifestHash] {db : Db} {times : ℕ → Time} {now : Time} {g : Uuid} {row : GenerationRow}

theorem sweptBy_sameFleet (times : ℕ → Time) (db : Db) (n : ℕ) :
    SameFleet db (sweptBy times db n) := by
  induction n with
  | zero => exact ⟨rfl, fun _ _ _ => rfl⟩
  | succ n ih => exact ih.trans (sweep_sameFleet _ _)

/-- Sweep after sweep, the queue is swept of what was doomed from the first. -/
theorem queue_sweptBy (times : ℕ → Time) (db : Db) (n : ℕ) : Generations.queue (sweptBy times db n) =
    Queue.swept sweepLimit (fun i => doomed (times i) db) (Generations.queue db) n := by
  induction n with
  | zero => rfl
  | succ n ih => rw [sweptBy, queue_swept, (sweptBy_sameFleet times db n).doomed_eq, ih, Queue.swept]

/-- A queued Generation stays as it is until it expires. -/
theorem queued_or_expired (hrow : fetch db (generation g) = some row) (n : ℕ) :
    fetch (sweptBy times db n) (generation g) = some row ∨
      ∃ row', fetch (sweptBy times db n) (generation g) = some row' ∧ row'.state = .expired := by
  induction n with
  | zero => exact .inl hrow
  | succ n ih =>
    obtain ⟨hsame, -⟩ | ⟨-, hexpired⟩ := (sweep_applied (times n) (sweptBy times db n)).generations g
    · rw [sweptBy, hsame]
      exact ih
    · exact .inr hexpired

/-- A Generation that was queued has expired exactly if it left the queue. -/
theorem expired_iff (hrow : fetch db (generation g) = some row) (hqueued : row.state = .queued)
    (n : ℕ) :
    (∃ row', fetch (sweptBy times db n) (generation g) = some row' ∧ row'.state = .expired) ↔
      (g, row) ∉ Generations.queue (sweptBy times db n) := by
  rw [mem_queue]
  constructor
  · rintro ⟨row', hrow', hexpired⟩ ⟨hstays, -⟩
    obtain rfl := Option.some_inj.1 (hrow'.symm.trans hstays)
    cases hexpired.symm.trans hqueued
  · exact fun hgone => (queued_or_expired hrow n).resolve_left fun hstays => hgone ⟨hstays, hqueued⟩

/-- No Pool can run a Generation whose requirement can be rebuilt: it is stranded. -/
theorem stranded_of_hopeless (hrow : fetch db (generation g) = some row)
    (hhopeless : ∀ p, p ∉ NativeExclusions.excluded db g → ¬ CanRun db p g) :
    stranded db (g, row) = (Generations.requirementFromParts db row).isSome := by
  rw [stranded]
  cases hreq : Generations.requirementFromParts db row with
  | none => rfl
  | some requirement =>
    rw [Option.any_some, Option.isSome_some, Bool.not_eq_true', Bool.eq_false_iff, Ne,
      candidateRemains_iff hrow hreq]
    rintro ⟨p, hp, hrun, -⟩
    exact hhopeless p hp hrun

/-- A Generation that a ready Pool can run is not stranded. -/
theorem stranded_eq_false {p : Uuid} (hrow : fetch db (generation g) = some row)
    (hp : p ∉ NativeExclusions.excluded db g) (hrun : CanRun db p g) (hready : Workers.isReady db p) :
    stranded db (g, row) = false := by
  rw [stranded, Option.any_eq_false]
  intro requirement hreq
  rw [(candidateRemains_iff hrow hreq).2 ⟨p, hp, hrun, hready⟩]
  rfl

omit [ManifestHash] in
/-- What stands before a Generation in the queue is older than it. -/
theorem exists_queue_eq (hrow : fetch db (generation g) = some row) (hqueued : row.state = .queued) :
    ∃ after, Generations.queue db = (Generations.queue db).takeWhile (·.1 ≠ g) ++ (g, row) :: after ∧
      (g, row) ∉ after ∧
      (∀ e ∈ (Generations.queue db).takeWhile (·.1 ≠ g), e.2.createdAt ≤ row.createdAt) ∧
      ∀ e ∈ after, row.createdAt ≤ e.2.createdAt := by
  have htotal : Std.Total fun a b : Uuid × GenerationRow => a.2.createdAt ≤ b.2.createdAt :=
    ⟨fun _ _ => Int.le_total _ _⟩
  have htrans : IsTrans (Uuid × GenerationRow) fun a b => a.2.createdAt ≤ b.2.createdAt :=
    ⟨fun _ _ _ => Int.le_trans⟩
  have hsorted : (Generations.queue db).Pairwise fun a b => a.2.createdAt ≤ b.2.createdAt :=
    List.pairwise_insertionSort _ _
  have hkeys := nodup_queue db
  obtain ⟨before, after, hsplit⟩ := List.append_of_mem (mem_queue.2 ⟨hrow, hqueued⟩)
  rw [hsplit] at hsorted hkeys ⊢
  rw [List.map_append, List.map_cons, List.nodup_append', List.nodup_cons] at hkeys
  have hbefore : ∀ e ∈ before, decide (e.1 ≠ g) := fun e he => decide_eq_true fun heq =>
    hkeys.2.2 (List.mem_map_of_mem he) (heq ▸ List.mem_cons_self)
  have htake : (before ++ (g, row) :: after).takeWhile (·.1 ≠ g) = before := by
    rw [List.takeWhile_append_of_pos hbefore, List.takeWhile_cons_of_neg (by simp), List.append_nil]
  obtain ⟨-, hrest, hcross⟩ := List.pairwise_append.1 hsorted
  rw [htake]
  exact ⟨after, rfl, fun h => hkeys.2.1.1 (List.mem_map_of_mem h),
    fun e he => hcross e he _ List.mem_cons_self, (List.pairwise_cons.1 hrest).1⟩

/-- Once a Generation is overdue, so is all that is older, and stays so. -/
theorem doomed_of_older (hclock : ∀ n, now ≤ times n)
    (hold : row.createdAt ≤ starvationCutoff now db) (n : ℕ) {e : Uuid × GenerationRow}
    (he : e.2.createdAt ≤ row.createdAt) :
    doomed (times n) db e = stranded db e := by
  have hcutoff : starvationCutoff now db ≤ starvationCutoff (times n) db :=
    Int.sub_le_sub_right (hclock n) _
  rw [doomed, decide_eq_true (he.trans (hold.trans hcutoff)), Bool.true_and]

/-- Behind older Generations that stay and fill a sweep, an overdue one stays too. -/
theorem stays_behind_crowd (hclock : ∀ n, now ≤ times n) (hrow : fetch db (generation g) = some row)
    (hqueued : row.state = .queued) (hold : row.createdAt ≤ starvationCutoff now db)
    (hcrowd : sweepLimit ≤
      ((Generations.queue db).takeWhile (·.1 ≠ g)).countP fun e => !stranded db e) (n : ℕ) :
    (g, row) ∈ Generations.queue (sweptBy times db n) := by
  obtain ⟨after, hqueue, -, holder, -⟩ := exists_queue_eq hrow hqueued
  rw [queue_sweptBy, hqueue]
  exact @Queue.mem_swept_of_stuck _ _ (fun i => doomed (times i) db) (stranded db) _ after _
    (fun i e he => doomed_of_older hclock hold i (holder e he)) hcrowd n

/-- An overdue Generation that no Pool can run expires at last exactly where its requirement
    can be rebuilt, and the older Generations that no sweep expires do not fill a sweep. -/
theorem starved_expires_iff (hclock : ∀ n, now ≤ times n) (hrow : fetch db (generation g) = some row)
    (hqueued : row.state = .queued) (hold : row.createdAt ≤ starvationCutoff now db)
    (hhopeless : ∀ p, p ∉ NativeExclusions.excluded db g → ¬ CanRun db p g) :
    (∃ n row', fetch (sweptBy times db n) (generation g) = some row' ∧ row'.state = .expired) ↔
      (Generations.requirementFromParts db row).isSome ∧
        ((Generations.queue db).takeWhile (·.1 ≠ g)).countP (fun e => !stranded db e) <
          sweepLimit := by
  have hself (n : ℕ) : doomed (times n) db (g, row) =
      (Generations.requirementFromParts db row).isSome :=
    (doomed_of_older hclock hold n le_rfl).trans (stranded_of_hopeless hrow hhopeless)
  rw [exists_congr fun n => expired_iff hrow hqueued n]
  constructor
  · rintro ⟨n, hgone⟩
    refine ⟨Bool.not_eq_false _ ▸ fun hnone => hgone ?_, not_le.1 fun hcrowd => hgone ?_⟩
    · rw [queue_sweptBy]
      exact Queue.mem_swept (mem_queue.2 ⟨hrow, hqueued⟩) (fun i => (hself i).trans hnone) n
    · exact stays_behind_crowd hclock hrow hqueued hold hcrowd n
  · rintro ⟨hsome, hroom⟩
    obtain ⟨after, hqueue, hafter, holder, -⟩ := exists_queue_eq hrow hqueued
    obtain ⟨n, hgone⟩ :=
      @Queue.exists_notMem_swept _ _ (fun i => doomed (times i) db) (stranded db) _ after _
      (fun i e he => doomed_of_older hclock hold i (holder e he))
        (fun i => (hself i).trans hsome) hafter hroom
    refine ⟨n, ?_⟩
    rw [queue_sweptBy, hqueue]
    exact hgone

end Runs

/-! ## A hidden Generation -/

namespace Sample

/-- The installation with so many requests that its Pools can run. -/
def busy : ℕ → Db
  | 0 => installed
  | n + 1 => @Op.apply manifestHash (.submit (imageRequest []) (100 + n) false (fun _ => false) n n)
    (busy n)

/-- Two hundred requests that the Pools can run, and then one that no Pool can. -/
def hidden : Db :=
  @Op.apply manifestHash (.submit (imageRequest unknownLoras) 31 false (fun _ => false) 1000 1000)
    (busy 200)

/-- Three requests that the Pools can run, and one that no Pool can. -/
def hopeless (now : Time) : Db := store (busy 3) (generation 31) (some (waiting unknownLoras now))

theorem reaches_busy (n : ℕ) : @Reaches manifestHash (busy n) := by
  induction n with
  | zero => exact @reachesBy_run manifestHash _ 1 _ (Machine.allowed_of_forall
    (fun _ _ => trivial) _ _)
  | succ n ih => exact .step ih ⟨_, trivial, rfl⟩

theorem crowd_busy {n : ℕ} (hn : n ≤ 1000) : Crowd [] n (busy n) := by
  obtain ⟨-, -, hloras, -, -⟩ := fetch_installed
  induction n with
  | zero => exact crowd_installed _
  | succ n ih => exact (ih (by omega)).submit (by omega) hloras

/-- The two hundred requests fill a sweep. -/
theorem crowd_fills_sweep {db : Db} (hdb : Offers db)
    (h : ∀ i : ℕ, i < 200 → fetch db (generation (100 + i)) = some (waiting [] i))
    (hrow : fetch db (generation 31) = some (waiting unknownLoras 1000)) :
    sweepLimit ≤ ((Generations.queue db).takeWhile (·.1 ≠ 31)).countP fun e =>
      !@stranded manifestHash db e := by
  let _ := manifestHash
  obtain ⟨hpool, hattempts, hrejections, hruns, -⟩ := offer_installed
  rw [← hdb.others _ fun g hg => by cases hg] at hpool
  obtain ⟨pool, hp, hready⟩ := (Option.any_eq_true _ _).1 hpool
  have hready : Workers.isReady db 21 := by
    rw [Workers.isReady, hp]
    exact (Bool.and_eq_true_iff.1 hready).1
  obtain ⟨after, hqueue, -, -, hafter⟩ := exists_queue_eq hrow rfl
  let waiters : List (Uuid × GenerationRow) :=
    (List.range 200).map fun i : ℕ => (100 + i, waiting [] i)
  have hnodup : waiters.Nodup :=
    List.nodup_range.map fun i j hij => by simpa using (Prod.mk.inj hij).1
  have hsub : waiters ⊆
      ((Generations.queue db).takeWhile (·.1 ≠ 31)).filter fun e => !stranded db e := by
    intro e he
    obtain ⟨i, hi, rfl⟩ := List.mem_map.1 he
    have hi : i < 200 := List.mem_range.1 hi
    have hmem : (100 + i, waiting [] i) ∈ Generations.queue db := mem_queue.2 ⟨h i hi, rfl⟩
    have hrun : CanRun db 21 (100 + i) := (hdb.canRun_iff (h i hi)).2 (runs_waiting [] i ▸ hruns)
    have hout := not_excluded_of_empty hattempts hrejections hdb.others (100 + i) 21
    refine List.mem_filter.2 ⟨?_, by rw [stranded_eq_false (h i hi) hout hrun hready]; rfl⟩
    -- it is older than the last one, so it stands before it
    rw [hqueue] at hmem
    rcases List.mem_append.1 hmem with hmem | hmem
    · exact hmem
    rcases List.mem_cons.1 hmem with heq | hmem
    · exact absurd (Prod.mk.inj heq).1 (by omega)
    · have hle : (1000 : ℤ) ≤ i := hafter _ hmem
      omega
  have hlength := (List.subperm_of_subset hnodup hsub).length_le
  rw [List.length_map, List.length_range, ← List.countP_eq_length_filter] at hlength
  exact hlength

theorem offers_hopeless (now : Time) : Offers (hopeless now) :=
  (@crowd_busy 3 (by decide)).offers.store 31 _

theorem fetch_hopeless (now : Time) :
    fetch (hopeless now) (generation 31) = some (waiting unknownLoras now) :=
  Database.fetch_store_self ..

/-- Three runnable Generations are ahead of a hopeless one. -/
theorem hopeless_facts : let _ := manifestHash
    (1000 ≤ starvationCutoff 20000000000 (hopeless 1000)) ∧
    (∀ e ∈ (hopeless 1000).devicePools.rows, ¬ CanRun (hopeless 1000) e.1 31) ∧
    (Generations.requirementFromParts (hopeless 1000) (waiting unknownLoras 1000)).isSome ∧
    ((Generations.queue (hopeless 1000)).takeWhile (·.1 ≠ 31)).map Prod.fst = [100, 101, 102] ∧
    ((Generations.queue (hopeless 1000)).takeWhile (·.1 ≠ 31)).countP
      (fun e => !stranded (hopeless 1000) e) < sweepLimit := by
  decide +kernel

end Sample

/-- Behind three that the Pools can run, the request that no Pool can run expires. -/
theorem starved_expires_iff_hopeless :
    ∃ n row', fetch (@sweptBy Sample.manifestHash (fun _ => 20000000000)
    (Sample.hopeless 1000) n) (generation 31) = some row' ∧ row'.state = .expired := by
  let _ := Sample.manifestHash
  obtain ⟨hold, hpools, hreq, -, hfew⟩ := Sample.hopeless_facts
  exact (starved_expires_iff (fun _ => le_refl (20000000000 : Time))
    (Sample.fetch_hopeless 1000) rfl hold
    fun p _ => not_canRun_of_rows hpools p).2 ⟨hreq, hfew⟩

/-- Two hundred older Generations that the Pools can run, and that wait, hide one that no Pool
    can: it never expires. -/
theorem hidden_never_expires : let _ := Sample.manifestHash
    Reaches Sample.hidden ∧ ∃ row, fetch Sample.hidden (generation 31) = some row ∧
      row.state = .queued ∧
      row.createdAt < starvationCutoff 20000000001 Sample.hidden ∧
      (∃ requirement, Generations.requirementFromParts Sample.hidden row = some requirement) ∧
      (∀ p, ¬ CanRun Sample.hidden p 31) ∧
      ∀ times : ℕ → Time, (∀ n, 20000000001 ≤ times n) → ∀ n,
        fetch (sweptBy times Sample.hidden n) (generation 31) = some row := by
  intro _
  have hcrowd := @Sample.crowd_busy 200 (by decide)
  have hnew : fetch (Sample.busy 200) (generation 31) = none := by
    rw [hcrowd.generations, if_neg (by decide)]
  have happly : Sample.hidden =
      store (Sample.busy 200) (generation 31) (some (Sample.waiting Sample.unknownLoras 1000)) :=
    Sample.submit_apply hcrowd.offers
      (by rw [hcrowd.count]; decide) Sample.fetch_installed.2.2.2.1 hnew 1000
  refine ⟨.step (Sample.reaches_busy 200) ⟨_, trivial, rfl⟩, ?_⟩
  rw [happly]
  clear happly
  generalize Sample.busy 200 = db at hcrowd
  have hoffers := hcrowd.offers.store 31 (Sample.waiting Sample.unknownLoras 1000)
  have hrow : fetch (store db (generation 31) (some (Sample.waiting Sample.unknownLoras 1000)))
      (generation 31) =
      some (Sample.waiting Sample.unknownLoras 1000) := Database.fetch_store_self ..
  have hwaiting : ∀ i : ℕ, i < 200 →
      fetch (store db (generation 31) (some (Sample.waiting Sample.unknownLoras 1000)))
      (generation (100 + i)) = some (Sample.waiting [] i) := by
    intro i hi
    have hne : generation (100 + i) ≠ generation 31 := fun heq => by
      have heq : (100 + i : ℕ) = 31 := generation.inj heq
      omega
    rw [Db.fetch_store_ne _ _ hne, hcrowd.generations, if_pos (by omega), Nat.add_sub_cancel_left]
  generalize store db (generation 31) (some (Sample.waiting Sample.unknownLoras 1000)) = db' at *
  obtain ⟨hold, hpools, hreq, -⟩ := Sample.hopeless_facts
  have hhopeless := Sample.offers_hopeless 1000
  have hfleet : SameFleet (Sample.hopeless 1000) db' :=
    ⟨hoffers.tenantId.trans hhopeless.tenantId.symm,
    fun k hg _ => (hoffers.others k hg).trans (hhopeless.others k hg).symm⟩
  have hold : (Sample.waiting Sample.unknownLoras 1000).createdAt <
      starvationCutoff 20000000001 db' := by
    rw [hfleet.starvationCutoff_eq]
    have hold : (1000 : ℤ) ≤ starvationCutoff 20000000000 (Sample.hopeless 1000) := hold
    change (1000 : ℤ) < starvationCutoff 20000000001 (Sample.hopeless 1000)
    rw [starvationCutoff] at hold ⊢
    omega
  refine ⟨_, hrow, rfl, hold, Option.isSome_iff_exists.1 ?_, fun p hrun => ?_,
    fun times hclock n => ?_⟩
  · rw [hfleet.requirementFromParts_eq]
    exact hreq
  · exact not_canRun_of_rows hpools p
      (hfleet.canRun (hrow.trans (Sample.fetch_hopeless 1000).symm) hrun)
  · exact (mem_queue.1 (stays_behind_crowd hclock hrow rfl hold.le
      (Sample.crowd_fills_sweep hoffers hwaiting hrow) n)).1

end Gpq
