import Gpq.Lib.ReadCommitted
import Gpq.Lifecycle.Invariants
import Gpq.Lifecycle.Refinement

/-!
# Interleaved settlements

The transactions that lease, settle, cancel, accept, reject, acknowledge and expire, run
statement by statement under READ COMMITTED (`Gpq.Lib.ReadCommitted`). What they keep
is the lifecycle's invariant, with every active Generation executing; what they rely on
is that a Generation is never taken back from a cancellation request or from its end
(`settlements`).

A settlement reads the Generation's state without locking it. If a cancellation commits
between this read and the requeue, the requeue matches nothing, and the Generation is
left cancelling without an Attempt. Every other order of statements is sound: the locks
of an Attempt and of its Generation leave the others nothing to change.
-/

namespace Gpq

open Function Sql DbKey Prog

/-- Whether a labelled statement runs in time: a requeue before the cancellation of its
    Generation is requested, a cancellation request not while it waits. -/
def Mark.inTime : Mark → Db → Bool
  | requeue g, db => (fetch db (generation g)).map GenerationRow.state ≠ some .cancelling
  | requestCancelRunning g, db => (fetch db (generation g)).map GenerationRow.state ≠ some .queued

/-- Whether the statement is a requeue. -/
def Mark.isRequeue : Mark → Bool
  | requeue _ => true
  | requestCancelRunning _ => false

/-- How a commit may change a row: a Generation stays, and is at no earlier stage; a
    rejection stays. -/
def StageRely : (k : DbKey) → Option (Db.Row k) → Option (Db.Row k) → Prop
  | .generation _, o, o' => ∀ r, o = some r → ∃ r', o' = some r' ∧ r.state.stage ≤ r'.state.stage
  | .rejection .., o, o' => o.isSome → o'.isSome
  | _, _, _ => True

/-- What the lock of a Generation guards: its exclusions. -/
def ExclusionGuard : DbKey → Db → Db → Prop
  | .generation g, db, db' => Life.Guards g (life db) (life db')
  | _, _, _ => True

/-- A step of the lifecycle that every interleaving keeps to; `timely` says that no requeue
    comes too late. -/
inductive Settlement (timely : Prop) (l l' : DbLife) : Prop
  | quiet (h : l' = l)
  | core (h : Life.Core l l')
  | late (a : Uuid) (h : Life.AckLate a l l')
  | strand (h : Life.Strand l l') (hlate : ¬ timely)

/-- Stages only rise, and rejections stay, from the first state to the last. -/
theorem stageRely_trans (k : DbKey) (o₁ o₂ o₃ : Option (Db.Row k)) (h : StageRely k o₁ o₂)
    (h' : StageRely k o₂ o₃) : StageRely k o₁ o₃ := by
  cases k with
  | generation g =>
    intro r hr
    obtain ⟨r₂, hr₂, hle⟩ := h r hr
    obtain ⟨r₃, hr₃, hle'⟩ := h' r₂ hr₂
    exact ⟨r₃, hr₃, hle.trans hle'⟩
  | rejection g p => exact fun hr => h' (h hr)
  | _ => trivial

/-- What a Generation is excluded from, seen through writes that leave it at no earlier
    stage. -/
theorem guards_applyAll {g : Uuid} {db db' : Db} (W : List (Write Db))
    (h : Life.Guards g (life db) (life db'))
    (hrely : StageRely (generation g) (fetch db' (generation g))
      (fetch (applyAll db' W) (generation g))) :
    Life.Guards g (life (applyAll db W)) (life (applyAll db' W)) := by
  intro hstage
  -- a row is either written, to the same end, or as the others left it
  have hcases : ∀ k, fetch (applyAll db' W) k = fetch (applyAll db W) k ∨
      fetch (applyAll db' W) k = fetch db' k ∧ fetch (applyAll db W) k = fetch db k := by
    intro k
    by_cases hk : ∃ w ∈ W, w.1 = k
    · exact .inl (fetch_applyAll_of_mem db db' hk)
    · have hnot : ∀ w ∈ W, w.1 ≠ k := fun w hw he => hk ⟨w, hw, he⟩
      exact .inr ⟨fetch_applyAll_of_notMem db' hnot, fetch_applyAll_of_notMem db hnot⟩
  obtain ⟨hatt, hrej⟩ := h fun r hr => by
    obtain ⟨row, hg, rfl⟩ := Option.map_eq_some_iff.1 hr
    obtain ⟨row', hg', hle⟩ := hrely row hg
    have hzero : row'.state.stage = 0 := hstage row'.life (life_gen_of_fetch hg')
    exact Nat.le_zero.1 (hzero ▸ hle)
  refine ⟨fun a r ha hg hx => ?_, fun p hp => ?_⟩
  · rcases hcases (attempt a) with he | ⟨he', he⟩
    · rwa [life_att_congr he] at ha
    · rw [life_att_congr he]
      rw [life_att_congr he'] at ha
      exact hatt a r ha hg hx
  · rcases hcases (rejection g p) with he | ⟨he', he⟩
    · rwa [life_rejected_congr he] at hp
    · rw [life_rejected_congr he]
      rw [life_rejected_congr he'] at hp
      exact hrej p hp

/-- The discipline of the interleaved transactions, where `owner` says which Generation
    an Attempt's identifier is drawn for, and `timely` which labelled statements run in
    time. -/
def settlements (owner : Uuid → Uuid) (timely : Mark → Prop) : Discipline Db where
  inv db := (life db).Sound ∧ ((∀ g, timely (.requeue g)) → (life db).ActiveBusy) ∧
    ∀ a r, fetch db (attempt a) = some r → r.generationId = owner a
  rely := StageRely
  guards := ExclusionGuard
  moves db db' := Relation.ReflTransGen (Settlement (∀ g, timely (.requeue g))) (life db) (life db')
  may m db := timely m → m.inTime db
  rely_refl k o := by
    cases k with
    | generation g => exact fun r hr => ⟨r, hr, le_rfl⟩
    | rejection g p => exact id
    | _ => trivial
  rely_trans := stageRely_trans
  guards_refl k db := by
    cases k with
    | generation g => exact Life.guards_congr rfl rfl
    | _ => trivial
  guards_trans k db₁ db₂ db₃ hrely h h' := by
    cases k with
    | generation g =>
      intro hstage
      obtain ⟨hatt, hrej⟩ := h fun r hr => by
        obtain ⟨row, hg, rfl⟩ := Option.map_eq_some_iff.1 hr
        obtain ⟨row', hg', hle⟩ := hrely row hg
        have hzero : row'.state.stage = 0 := hstage row'.life (life_gen_of_fetch hg')
        exact Nat.le_zero.1 (hzero ▸ hle)
      obtain ⟨hatt', hrej'⟩ := h' hstage
      exact ⟨fun a r ha hg hx => hatt a r (hatt' a r ha hg hx) hg hx, fun p hp => hrej p (hrej' p hp)⟩
    | _ => trivial
  guards_applyAll k db db' W h hrow hrely := by
    cases k with
    | generation g => exact guards_applyAll W h hrely
    | _ => trivial
  moves_refl _ := .refl
  moves_trans _ _ _ := .trans

section Discipline

variable {owner : Uuid → Uuid} {timely : Mark → Prop} {db db' : Db} {H : List DbKey}
  {W : List (Write Db)} {l l' : DbLife} {t : Prop}

/-- A settlement keeps the Slots sound. -/
theorem Settlement.sound (h : Settlement t l l') (hl : l.Sound) : l'.Sound := by
  cases h with
  | quiet h => exact h ▸ hl
  | core h => exact h.sound hl
  | late a h => exact h.sound hl
  | strand h => exact h.sound hl

/-- A settlement in time keeps the Slots of active Attempts busy. -/
theorem Settlement.activeBusy (h : Settlement t l l') (ht : t) (hl : l.ActiveBusy) :
    l'.ActiveBusy := by
  cases h with
  | quiet h => exact h ▸ hl
  | core h => exact h.activeBusy hl
  | late a h => exact h.activeBusy hl
  | strand h hlate => exact absurd ht hlate

/-- A settlement only advances Generations. -/
theorem Settlement.advances (h : Settlement t l l') : l.Advances l' := by
  cases h with
  | quiet h => exact h ▸ Life.advances_refl _
  | core h => exact h.advances
  | late a h => exact h.advances
  | strand h => exact h.advances

/-- A settlement takes no rejection back. -/
theorem Settlement.rejected_stays (h : Settlement t l l') {g p : Uuid} (hr : l.rejected g p) :
    l'.rejected g p := by
  cases h with
  | quiet h => exact h ▸ hr
  | core h => exact h.rejected_stays hr
  | late a h => exact h.others.2.1 ▸ hr
  | strand h =>
    obtain ⟨⟩ := h
    exact hr

/-- A settlement forgets no lease that was spared. -/
theorem Settlement.remembers (h : Settlement t l l') (hs : l.Spared) : l.Remembers l' := by
  cases h with
  | quiet h => exact h ▸ Life.remembers_refl _
  | core h => exact h.remembers hs
  | late a h => exact Life.remembers_congr h.others.1 h.others.2.1
  | strand h => exact h.remembers hs

/-- A settlement that leaves a Generation alone keeps what is known of it. -/
theorem Settlement.guards (h : Settlement t l l') (hs : l.Sound) {g : Uuid}
    (hgen : l'.gen g = l.gen g) : Life.Guards g l l' := by
  cases h with
  | quiet h => exact h ▸ Life.guards_congr rfl rfl
  | core h => exact h.guards hs.atMostOne hs.spared hgen
  | late a h => exact Life.guards_congr h.others.1 h.others.2.1
  | strand h => exact h.guards

/-- What the lifecycle says of the rows is what others rely on. -/
theorem Settlement.rely (h : Settlement t (life db) (life db')) (k : DbKey) :
    StageRely k (fetch db k) (fetch db' k) := by
  cases k with
  | generation g =>
    intro r hr
    obtain ⟨r', hr', hle⟩ := h.advances g r.life (life_gen_of_fetch hr)
    obtain ⟨row, hrow, rfl⟩ := Option.map_eq_some_iff.1 hr'
    exact ⟨row, hrow, hle⟩
  | rejection g p => exact fun hr => h.rejected_stays hr
  | _ => trivial

/-- A settlement keeps the invariant, provided that every Attempt stays with its Generation. -/
theorem inv_of_settlement (hstep : Settlement (∀ g, timely (.requeue g)) (life db) (life db'))
    (h : (settlements owner timely).inv db)
    (howner : ∀ a r, fetch db' (attempt a) = some r → r.generationId = owner a) :
    (settlements owner timely).inv db' :=
  ⟨hstep.sound h.1, fun ht => hstep.activeBusy ht (h.2.1 ht), howner⟩

/-- A step of the lifecycle that makes no Attempt another's, by writes to held rows. -/
theorem commit_of_settlement (h : (settlements owner timely).inv db) (hW : ∀ w ∈ W, w.1 ∈ H)
    (hstep : Settlement (∀ g, timely (.requeue g)) (life db) (life (applyAll db W)))
    (howner : ∀ a r, fetch (applyAll db W) (attempt a) = some r → r.generationId = owner a) :
    (settlements owner timely).Commit H db (applyAll db W) where
  inv := inv_of_settlement hstep h howner
  rely := hstep.rely
  guards k hk := by
    cases k with
    | generation g =>
      refine hstep.guards h.1 (congrArg (Option.map GenerationRow.life) ?_)
      exact fetch_applyAll_of_notMem db fun w hw he => hk (he ▸ hW w hw)
    | _ => trivial
  moves := .single hstep

/-- Writes that make a step of the lifecycle, and no Attempt another's. -/
theorem kept_of_settlement (hW : ∀ w ∈ W, w.1 ∈ H)
    (h : ∀ t, (settlements owner timely).Env H db t →
      Settlement (∀ g, timely (.requeue g)) (life t) (life (applyAll t W)) ∧
        ∀ a r, fetch (applyAll t W) (attempt a) = some r → r.generationId = owner a) :
    (settlements owner timely).Kept H W db :=
  fun t henv => commit_of_settlement henv.inv hW (h t henv).1 (h t henv).2

/-- The Attempts after an Attempt was rewritten for its own Generation. -/
theorem owned_store {a : Uuid} {r : Option AttemptRow}
    (h : ∀ a r, fetch db (attempt a) = some r → r.generationId = owner a)
    (hr : ∀ r', r = some r' → r'.generationId = owner a) :
    ∀ b s, fetch (store db (attempt a) r) (attempt b) = some s → s.generationId = owner b := by
  intro b s hs
  by_cases hb : b = a
  · subst hb
    rw [Database.fetch_store_self] at hs
    exact hr s hs
  · rw [Db.fetch_store_ne _ _ (by simpa using hb)] at hs
    exact h b s hs

/-! ## Statements that the lifecycle does not see -/

/-- Writes to tables that the lifecycle does not look at. -/
theorem sound_write_quiet {α : Type} {f : Db → Except DbError (α × List (Write Db))}
    (h : ∀ db b ws, f db = .ok (b, ws) → ∀ w ∈ ws, Observed w.1 = false) :
    Sound (settlements owner timely) (.exec (.write f)) := by
  refine fun H s _ => safe_write fun s' b ws henv hws s'' henv' _ => ?_
  refine kept_of_settlement (fun w hw => List.mem_append_right _ (List.mem_map_of_mem hw))
    fun t ht => ⟨.quiet (life_applyAll_of_not_observed (h _ b ws hws)), ?_⟩
  intro a r hr
  refine ht.inv.2.2 a r ((fetch_applyAll_of_notMem t fun w hw hwa => ?_).symm.trans hr)
  have := h _ b ws hws w hw
  rw [hwa] at this
  cases this

/-- Writes to Attempts that leave what the lifecycle sees of them. -/
theorem sound_write_same {α : Type} {f : Db → Except DbError (α × List (Write Db))}
    (h : ∀ db b ws, f db = .ok (b, ws) → ∀ w ∈ ws, ∃ a r r', w = ⟨attempt a, some r'⟩ ∧
      fetch db (attempt a) = some r ∧ r'.life = r.life) :
    Sound (settlements owner timely) (.exec (.write f)) := by
  refine fun H s _ => safe_write fun s' b ws henv hws s'' henv' _ => ?_
  have hcov : ∀ w ∈ ws, w.1 ∈ H ++ ws.map Sigma.fst := fun w hw =>
    List.mem_append_right _ (List.mem_map_of_mem hw)
  refine kept_of_settlement hcov fun t ht => ?_
  -- the rows are held, so they are written over as they were found
  have hrow : ∀ w ∈ ws, ∃ a r r', w = ⟨attempt a, some r'⟩ ∧ fetch t (attempt a) = some r ∧
      r'.life = r.life := by
    intro w hw
    obtain ⟨a, r, r', rfl, hr, hlife⟩ := h s' b ws hws w hw
    exact ⟨a, r, r', rfl, ((ht.held _ (hcov _ hw)).trans (henv'.held _ (hcov _ hw))).trans hr, hlife⟩
  rw [List.nil_append]
  refine ⟨.quiet (life_applyAll rfl fun w hw db hdb => ?_), fun a x hx => ?_⟩
  · obtain ⟨a, r, r', rfl, hr, hlife⟩ := hrow w hw
    rw [← hdb]
    exact life_store_attempt_same (by rw [hdb, life_att_of_fetch hr]) hlife
  · rcases fetch_applyAll_cases t ws (attempt a) with he | hw
    · exact ht.inv.2.2 a x (he.symm.trans hx)
    · rw [hx] at hw
      obtain ⟨a', r, r', he, hr, hlife⟩ := hrow _ hw
      cases he
      exact (congrArg AttLife.generation hlife).trans (ht.inv.2.2 a r hr)

/-- To request a cancellation changes no Attempt's stage. -/
theorem requestCancel_sound (id : Uuid) (now : Time) :
    Sound (settlements owner timely) (Attempts.requestCancel id now) := by
  refine sound_update fun s r hs hr _ => ?_
  refine commit_of_settlement (W := [⟨attempt id, some _⟩]) hs (by simp)
    (.quiet (life_store_attempt_same (life_att_of_fetch hr) rfl)) ?_
  refine owned_store hs.2.2 fun r' hr' => ?_
  cases hr'
  exact hs.2.2 id r hr

/-- Inputs are not part of any life. -/
theorem deleteInputsForGeneration_sound (id : Uuid) :
    Sound (settlements owner timely) (Artifacts.deleteInputsForGeneration id) := by
  refine sound_write_quiet fun db b ws hws w hw => ?_
  cases hws
  obtain ⟨e, -, rfl⟩ := List.mem_map.1 hw
  rfl

/-- Nor is an Artifact that is inserted. -/
theorem insertArtifact_sound (id : Uuid) (row : Except DbError ArtifactRow) :
    Sound (settlements owner timely) (.exec (Artifacts.insert id row)) := by
  refine sound_write_quiet fun db b ws hws w hw => ?_
  obtain ⟨r, rfl, -⟩ := Artifacts.insertion_eq_ok hws
  rw [List.mem_singleton.1 hw]
  rfl

/-- A handler keeps what its body keeps. -/
theorem authenticated_commits {α : Type} {w : AuthenticatedWorker} {refused : α}
    {body : Body (Verdict α)} (h : Commits (settlements owner timely) body) :
    Commits (settlements owner timely) (authenticated w refused body) := by
  refine .bind (.bind (sound_lock _ _) fun _ => .done _) fun ok => ?_
  cases ok with
  | false => exact .done _
  | true => exact h

/-- A guarded transition that is a core step wherever its guard matches. -/
theorem transition_sound {id : Uuid} {source : GenerationState → Bool}
    {f : GenerationRow → GenerationRow}
    (h : ∀ l : DbLife, ∀ g : GenerationRow, l.gen id = some g.life → source g.state →
      Life.Core l { l with gen := update l.gen id (some (f g).life) }) :
    Sound (settlements owner timely) (.exec (Generations.transition id source f)) := by
  refine sound_update fun s g hs hg hsource => ?_
  refine commit_of_settlement (W := [⟨generation id, some (f g)⟩]) hs (by simp) (.core ?_)
    fun a r hr => hs.2.2 a r (by simpa using hr)
  rw [applyAll_cons, applyAll_nil, life_store_generation]
  exact h (life s) g (life_gen_of_fetch hg) hsource

end Discipline

/-! ## Settlements -/

section Settlements

variable {owner : Uuid → Uuid} {timely : Mark → Prop} {s t : Db} {H : List DbKey}

/-- What a settlement may do to the Generation `g`, given the rows it holds; `inTime` says
    that no requeue comes too late. -/
inductive Ends (inTime : Prop) (H : List DbKey) (s : Db) (g : Uuid) : List (Write Db) → Prop
  /-- It writes the Generation, which it holds. -/
  | write (r r' : GenerationRow) (hH : generation g ∈ H) (hr : fetch s (generation g) = some r)
      (h : Settles r.state r'.state)
      (hretry : r.state = .running → r'.state = .queued → r.attemptCount < maxAttempts)
      (hr' : r'.life = { r.life with state := r'.state }) :
      Ends inTime H s g [⟨generation g, some r'⟩]
  /-- It leaves a Generation that is cancelling or has ended; only a late requeue leaves a
      cancelling one. -/
  | skip (r : GenerationRow) (hr : fetch s (generation g) = some r) (h : 1 ≤ r.state.stage)
      (hterm : inTime → r.state.isTerminal) : Ends inTime H s g []

/-- A Generation at that stage is cancelling or over. -/
theorem GenerationState.cancelling_or_isTerminal {s : GenerationState} (h : 1 ≤ s.stage) :
    s = .cancelling ∨ s.isTerminal := by
  revert h
  cases s <;> decide

/-- A transaction has put a live Attempt into another state and released its Slot, and
    holds both rows. -/
structure Settling (H : List DbKey) (s : Db) (id : Uuid) (r r' : AttemptRow) (q : DevicePoolRow) :
    Prop where
  row_held : attempt id ∈ H
  row : fetch s (attempt id) = some r
  live : r.state.isLive
  settled : r'.life = { r.life with state := r'.state, exhausted := r'.life.exhausted }
  slot_held : devicePool r.poolId ∈ H
  slot : fetch s (devicePool r.poolId) = some q

/-- The settled Attempt and its Slot. -/
def settledWrites (id : Uuid) (r r' : AttemptRow) (q : DevicePoolRow) : List (Write Db) :=
  [⟨attempt id, some r'⟩, ⟨devicePool r.poolId, some q.release⟩]

/-- The Pool of an Attempt exists. -/
theorem pool_of_attempt {id : Uuid} {r : AttemptRow} (h : (settlements owner timely).inv s)
    (hr : fetch s (attempt id) = some r) : ∃ q, fetch s (devicePool r.poolId) = some q := by
  obtain ⟨-, q, hq⟩ := h.1.wellReferenced id r.life (life_att_of_fetch hr)
  obtain ⟨row, hrow, -⟩ := Option.map_eq_some_iff.1 hq
  exact ⟨row, hrow⟩

section Settling

variable {id : Uuid} {r r' : AttemptRow} {q : DevicePoolRow}

/-- What is being settled stays as it is while others go on: its rows are locked. -/
theorem Settling.env (h : Settling H s id r r' q) (henv : (settlements owner timely).Env H s t) :
    Settling H t id r r' q :=
  { h with
    row := (henv.held _ h.row_held).trans h.row
    slot := (henv.held _ h.slot_held).trans h.slot }

theorem Settling.lock (h : Settling H s id r r' q) (k : DbKey) : Settling (H ++ [k]) s id r r' q :=
  { h with
    row_held := List.mem_append_left _ h.row_held
    slot_held := List.mem_append_left _ h.slot_held }

/-- The settlement's own writes are those of a settlement run alone. -/
theorem Settling.writes_eq (h : Settling H s id r r' q) : applyAll s (settledWrites id r r' q) =
    releasedSlot (store s (attempt id) (some r')) r.poolId := by
  have hq : fetch (store s (attempt id) (some r')) (devicePool r.poolId) = some q := by
    simpa using h.slot
  rw [releasedSlot, hq]
  rfl

/-- Every row that a settlement writes is locked. -/
theorem Settling.covered (h : Settling H s id r r' q) (w : Write Db)
    (hw : w ∈ settledWrites id r r' q) : w.1 ∈ H := by
  rcases List.mem_cons.1 hw with rfl | hw
  · exact h.row_held
  · rw [List.mem_singleton.1 hw]
    exact h.slot_held

/-- The settled Attempt is still its Generation's. -/
theorem Settling.owned (h : Settling H s id r r' q) (hs : (settlements owner timely).inv s) :
    ∀ a x, fetch (applyAll s (settledWrites id r r' q)) (attempt a) = some x →
      x.generationId = owner a := by
  rw [h.writes_eq]
  intro a x hx
  rw [fetch_releasedSlot_attempt] at hx
  refine owned_store hs.2.2 (fun x hx => ?_) a x hx
  cases hx
  rw [← hs.2.2 id r h.row]
  exact congrArg AttLife.generation h.settled

/-- A settled Attempt, its released Slot, and what the settlement does to its
    Generation can be committed. -/
theorem Settling.kept {W : List (Write Db)} (h : Settling H s id r r' q)
    (hterm : r'.state.isTerminal) (hns : r'.state ≠ .succeeded)
    (hW : Ends (∀ g, timely (.requeue g)) H s r.generationId W) :
    (settlements owner timely).Kept H (settledWrites id r r' q ++ W) s := by
  refine kept_of_settlement (fun w hw => ?_) fun t ht => ?_
  · rcases List.mem_append.1 hw with hw | hw
    · exact h.covered w hw
    · cases hW with
      | write g g' hH => rwa [List.mem_singleton.1 hw]
      | skip => cases hw
  have ht' := h.env ht
  have howner := ht'.owned ht.inv
  rw [applyAll_append]
  rw [ht'.writes_eq] at howner ⊢
  cases hW with
  | write g g' hH hg hs hretry hg' =>
    have hgt : fetch t (generation r.generationId) = some g := (ht.held _ hH).trans hg
    refine ⟨.core (settle_core ht'.row h.live hterm hns h.settled hgt hs hretry hg' ?_),
      fun a x hx => howner a x ?_⟩
    · exact life_store_generation ..
    · simpa using hx
  | skip g hg hstage hend =>
    obtain ⟨g₁, hgt, hle⟩ := ht.rely (generation r.generationId) g hg
    rcases GenerationState.cancelling_or_isTerminal (hstage.trans hle) with hc | hterm₁
    · -- the Generation was cancelled after it was read as running
      refine ⟨.strand ?_ fun hin => ?_, howner⟩
      · have hstep := Life.Strand.mk id r.life r'.state r'.life.exhausted g₁.life
          (life_att_of_fetch ht'.row) h.live hterm hns (life_gen_of_fetch hgt) hc
        rw [← h.settled] at hstep
        rw [applyAll_nil, life_releasedSlot, life_store_attempt]
        exact hstep
      · have hterm₁ := GenerationState.isTerminal_of_stage (hend hin) hle
        rw [hc] at hterm₁
        cases hterm₁
    have hidle : ¬ g₁.state.isActive := by
      revert hterm₁
      cases g₁.state <;> decide
    have hretry : g₁.state = .running → g₁.state = .queued → g₁.attemptCount < maxAttempts :=
      fun hrun hq => by simp [hrun] at hq
    refine ⟨.core (settle_core ht'.row h.live hterm hns h.settled hgt (.none hidle) hretry rfl ?_),
      howner⟩
    have hself : update (life t).gen r.generationId (some g₁.life) = (life t).gen :=
      update_eq_self_iff.2 (life_gen_of_fetch hgt).symm
    simp [hself]

/-- A result of a live Attempt, with the rows of the Attempt, its Pool and its
    Generation held, can be committed. -/
theorem Settling.accepted (h : Settling H s id r r' q)
    (hs : r'.life = { r.life with state := .succeeded }) {g : GenerationRow}
    (hH : generation r.generationId ∈ H) (hg : fetch s (generation r.generationId) = some g)
    (hacc : g.acceptedAttemptId = none)
    (hactive : g.state.isActive) (now : Time) : (settlements owner timely).Kept H
      (settledWrites id r r' q ++ [⟨generation r.generationId, some (g.acceptedWith id now)⟩]) s := by
  refine kept_of_settlement (fun w hw => ?_) fun t ht => ?_
  · rcases List.mem_append.1 hw with hw | hw
    · exact h.covered w hw
    · rwa [List.mem_singleton.1 hw]
  have ht' := h.env ht
  have howner := ht'.owned ht.inv
  rw [applyAll_append]
  rw [ht'.writes_eq] at howner ⊢
  have hgt : fetch t (generation r.generationId) = some g := (ht.held _ hH).trans hg
  refine ⟨.core ?_, fun a x hx => howner a x (by simpa using hx)⟩
  have hstep := Life.Core.accept id r.life g.life (life_att_of_fetch ht'.row) h.live
    (life_gen_of_fetch hgt) hacc hactive
  rw [← hs] at hstep
  rw [applyAll_cons, applyAll_nil, life_store_generation, life_releasedSlot, life_store_attempt]
  exact hstep

/-- A live Attempt that is held is the latest of its Generation, whatever others commit. -/
theorem Settling.number (h : Settling H s id r r' q) (hs : (settlements owner timely).inv s)
    {g : GenerationRow} (hg : fetch s (generation r.generationId) = some g) :
    r.attemptNumber = g.attemptCount :=
  hs.1.current _ g.life id r.life (life_gen_of_fetch hg) (life_att_of_fetch h.row) rfl h.live

/-- The Generation of a live Attempt that is held is not queued. -/
theorem Settling.not_queued (h : Settling H s id r r' q) (hs : (settlements owner timely).inv s) :
    ∃ g, fetch s (generation r.generationId) = some g ∧ g.state ≠ .queued := by
  have hatt := life_att_of_fetch h.row
  obtain ⟨⟨g, hg⟩, -⟩ := hs.1.wellReferenced id r.life hatt
  obtain ⟨row, hrow, rfl⟩ := Option.map_eq_some_iff.1 hg
  exact ⟨row, hrow, fun hq => hs.1.atMostOne.2 _ _ id hg hq ⟨r.life, hatt, rfl, h.live⟩⟩

/-- The last statement of a settlement, where it matches the Generation. -/
theorem Settling.wrote (h : Settling H s id r r' q) (hterm : r'.state.isTerminal)
    (hns : r'.state ≠ .succeeded) {g g' : GenerationRow}
    (hg : fetch (applyAll s (settledWrites id r r' q)) (generation r.generationId) = some g)
    (hs : Settles g.state g'.state)
    (hretry : g.state = .running → g'.state = .queued → g.attemptCount < maxAttempts)
    (hg' : g'.life = { g.life with state := g'.state }) :
    (settlements owner timely).Kept (H ++ [generation r.generationId])
      (settledWrites id r r' q ++ [⟨generation r.generationId, some g'⟩]) s :=
  (h.lock _).kept hterm hns (.write g g' (by simp) (by simpa [settledWrites] using hg) hs hretry hg')

/-- The last statement of a settlement, where it matches no Generation: this one is
    cancelling or has ended. -/
theorem Settling.skipped (h : Settling H s id r r' q) (hterm : r'.state.isTerminal)
    (hns : r'.state ≠ .succeeded) (hs : (settlements owner timely).inv s)
    {guard : GenerationRow → Bool}
    (hnone : (fetch (applyAll s (settledWrites id r r' q)) (generation r.generationId)).filter guard =
      none)
    (hend : ∀ g, fetch s (generation r.generationId) = some g → g.state ≠ .queued → guard g = false →
      1 ≤ g.state.stage ∧ ((∀ g, timely (.requeue g)) → g.state.isTerminal)) :
    (settlements owner timely).Kept H (settledWrites id r r' q) s := by
  obtain ⟨g, hg, hq⟩ := h.not_queued hs
  have hguard : guard g = false := by simpa [settledWrites, hg] using hnone
  obtain ⟨hstage, hterm'⟩ := hend g hg hq hguard
  rw [← List.append_nil (settledWrites id r r' q)]
  exact h.kept hterm hns (.skip g hg hstage hterm')

/-- A settlement that goes on to release the Slot holds both rows. -/
theorem Settling.release {α : Type} {k : Bool → Body α}
    {Q : α → List DbKey → List (Write Db) → Db → Prop} (hH : attempt id ∈ H)
    (hr : fetch s (attempt id) = some r) (hl : r.state.isLive)
    (hr' : r'.life = { r.life with state := r'.state, exhausted := r'.life.exhausted })
    (h : ∀ t q, (settlements owner timely).Env H s t →
      Settling (H ++ [devicePool r.poolId]) t id r r' q →
      (k true).Safe (settlements owner timely) Q (H ++ [devicePool r.poolId])
        (settledWrites id r r' q) t) :
    (step (updatePool r.poolId (fun _ => true) DevicePoolRow.release) k).Safe
      (settlements owner timely) Q H
      [⟨attempt id, some r'⟩] s := by
  refine safe_update (fun t q henv hq _ => ?_) fun t henv hnone => ?_
  · have hqt : fetch t (devicePool r.poolId) = some q := by simpa using hq
    exact h t q henv ⟨by simp [hH], (henv.held _ hH).trans hr, hl, hr', by simp, hqt⟩
  · -- the Attempt refers to its Pool, so the release finds it
    have hrt : fetch t (attempt id) = some r := (henv.held _ hH).trans hr
    obtain ⟨q, hq⟩ := pool_of_attempt henv.inv hrt
    simp [hq] at hnone

/-- What is left of a settlement can be committed. -/
abbrev Committable (owner : Uuid → Uuid) (timely : Mark → Prop) {α : Type} (_ : α) (H : List DbKey)
    (W : List (Write Db)) (s : Db) : Prop :=
  True → (settlements owner timely).Kept H W s

/-- The last statement of a settlement: a transition that ends the Generation, or that finds it
    ended. -/
theorem Settling.transitions {α : Type} {k : Bool → Body α} {source : GenerationState → Bool}
    {f : GenerationRow → GenerationRow} (h : Settling H s id r r' q) (hterm : r'.state.isTerminal)
    (hns : r'.state ≠ .succeeded) (hk : ∀ b, ∃ a, k b = done a)
    (hwrote : ∀ g : GenerationRow, source g.state →
      Settles g.state (f g).state ∧ (f g).state ≠ .queued ∧
      (f g).life = { g.life with state := (f g).state })
    (hskipped : ∀ t g, (settlements owner timely).Env H s t →
      fetch t (generation r.generationId) = some g → g.state ≠ .queued → source g.state = false →
      g.state.isTerminal) :
    (step (Generations.transition r.generationId source f) k).Safe (settlements owner timely)
      (Committable owner timely) H (settledWrites id r r' q) s := by
  refine safe_update (fun s₁ g henv₁ hg hs => ?_) fun s₁ henv₁ hnone => ?_
  · obtain ⟨a, ha⟩ := hk true
    obtain ⟨hsettles, hne, hlife⟩ := hwrote g hs
    rw [ha]
    exact fun t henv _ =>
      ((h.env henv₁).wrote hterm hns hg hsettles (fun _ hq => absurd hq hne) hlife).env henv
  · obtain ⟨a, ha⟩ := hk false
    rw [ha]
    refine fun t henv _ =>
      ((h.env henv₁).skipped hterm hns henv₁.inv hnone fun g hg hq hs => ?_).env henv
    have hended := hskipped s₁ g henv₁ hg hq hs
    exact ⟨GenerationState.stage_le_of_isTerminal .cancelling hended, fun _ => hended⟩

/-- A Generation that was cancelling is cancelled, or has ended since. -/
theorem Settling.cancels {α : Type} {k : Bool → Body α} (h : Settling H s id r r' q)
    (hterm : r'.state.isTerminal) (hns : r'.state ≠ .succeeded) (hk : ∀ b, ∃ a, k b = done a)
    {g : GenerationRow} (hg : fetch s (generation r.generationId) = some g)
    (hstage : GenerationState.cancelling.stage ≤ g.state.stage) (now : Time) :
    ((Generations.finishCancelled r.generationId now).bind k).Safe (settlements owner timely)
      (Committable owner timely) H (settledWrites id r r' q) s := by
  refine h.transitions hterm hns hk (fun g hs => ?_) fun t g' henv hg' _ hs => ?_
  · rw [of_decide_eq_true hs]
    exact ⟨.cancel, by rintro ⟨⟩, rfl⟩
  · obtain ⟨g₁, hg₁, hle⟩ := henv.rely (generation r.generationId) g hg
    obtain rfl : g' = g₁ := Option.some_inj.1 (hg'.symm.trans hg₁)
    have hle := hstage.trans hle
    revert hle hs
    cases g'.state <;> decide

/-- A Generation fails, or has ended since. -/
theorem Settling.fails {α : Type} {k : Bool → Body α} (h : Settling H s id r r' q)
    (hterm : r'.state.isTerminal) (hns : r'.state ≠ .succeeded) (hk : ∀ b, ∃ a, k b = done a)
    (kind : FailureKind) (message : String) (now : Time) :
    ((Generations.fail r.generationId kind message now).bind k).Safe (settlements owner timely)
      (Committable owner timely) H (settledWrites id r r' q) s := by
  refine safe_require (h.transitions hterm hns hk (fun g hs => ?_) fun t g _ _ _ hs => ?_)
  · refine ⟨.fail ?_, by rintro ⟨⟩, rfl⟩
    revert hs
    cases g.state <;> decide
  · revert hs
    cases g.state <;> decide

/-- A Generation with Attempts left goes back to the queue; one that does not is cancelling or has
    ended, and the former only where the requeue comes too late. -/
theorem Settling.requeues {α : Type} {k : Bool → Body α} (h : Settling H s id r r' q)
    (hterm : r'.state.isTerminal) (hns : r'.state ≠ .succeeded) (hk : ∀ b, ∃ a, k b = done a)
    (hretry : r.attemptNumber < maxAttempts) :
    ((Generations.requeue r.generationId).bind k).Safe (settlements owner timely)
      (Committable owner timely) H (settledWrites id r r' q) s := by
  refine safe_labelled_update (fun s₁ g henv₁ hg hs => ?_) fun s₁ henv₁ hmay hnone => ?_
  · obtain ⟨a, ha⟩ := hk true
    rw [done_bind, ha]
    have h₁ := h.env henv₁
    refine fun t henv _ => (h₁.wrote hterm hns hg ?_ (fun _ _ => ?_) ?_).env henv
    · rw [of_decide_eq_true hs]
      exact .requeue
    · -- the settled Attempt is held, so it is the latest one still
      rw [← h₁.number henv₁.inv (by simpa [settledWrites] using hg)]
      exact hretry
    · rfl
  · obtain ⟨a, ha⟩ := hk false
    rw [done_bind, ha]
    refine fun t henv _ =>
      ((h.env henv₁).skipped hterm hns henv₁.inv hnone fun g hg hq hs => ?_).env henv
    have hc : timely (.requeue r.generationId) → g.state ≠ .cancelling := fun ht hc => by
      simpa [Mark.inTime, settledWrites, hg, hc] using hmay ht
    refine ⟨?_, fun hin => ?_⟩
    · revert hq hs
      cases g.state <;> decide
    · have hc := hc (hin _)
      revert hc hq hs
      cases g.state <;> decide

end Settling

/-- To end an Attempt without success settles it: its Slot is released, and its Generation is
    cancelled, queued again or failed in the same transaction. -/
theorem finishAndDecide_sound [ManifestHash] (id : Uuid) (w : Option Uuid) (target : AttemptState)
    (failure : Attempts.FailureDetails) (now : Time) (hns : target ≠ .succeeded) :
    Sound (settlements owner timely) (Attempts.finishAndDecide id w target failure now) := by
  intro H s hs
  unfold Attempts.finishAndDecide Attempts.finish Workers.releaseSlot Generations.getOne
    Generations.requirementOf NativeExclusions.excludedPools Workers.poolCapabilities
  simp only [Prog.bind_eq, Prog.exec_bind, Prog.pure_eq]
  refine safe_read fun s₀ henv₀ => ?_
  cases hlive : (fetch (applyAll s₀ []) (attempt id)).filter (Attempts.liveOf w) with
  | none => exact fun _ _ _ => Discipline.kept_nil
  | some r₀ =>
    have hg₀ : r₀.generationId = owner id :=
      henv₀.inv.2.2 id r₀ (Option.filter_eq_some_iff.1 hlive).1
    dsimp only [Option.map_some]
    split
    · exact fun _ _ _ => Discipline.kept_nil
    rename_i hnot
    have hterm : target.isTerminal := by simpa using hnot
    simp only [step_bind]
    -- the Attempt is locked only now, and may have ended since it was read
    refine safe_require (safe_updateReturning (fun s₁ r henv₁ hr hl => ?_)
      fun _ _ _ => fun _ _ _ => Discipline.kept_nil)
    have hr : fetch s₁ (attempt id) = some r := hr
    have hgen : r₀.generationId = r.generationId := hg₀.trans (henv₁.inv.2.2 id r hr).symm
    generalize r₀.generationId = gid at hgen
    subst hgen
    dsimp only
    simp only [step_bind, done_bind, Bool.not_true, Bool.false_eq_true, if_false]
    refine Settling.release (by simp) hr (Bool.and_eq_true_iff.1 hl).1 rfl fun s₂ q henv₂ hset => ?_
    -- its Slot is released; now its Generation is read
    refine safe_tryRead fun s₃ g henv₃ hg => ?_
    have hset₃ := hset.env henv₃
    have hg : fetch s₃ (generation r.generationId) = some g := by
      split at hg
      · rename_i row hrow
        cases hg
        simpa [settledWrites] using hrow
      · cases hg
    split
    · -- a cancellation that was requested wins
      rename_i hc
      exact hset₃.cancels hterm hns (fun _ => ⟨_, rfl⟩) hg (by rw [hc]) now
    · -- the decision needs the requirement, the exclusions and the Pools
      refine safe_read fun s₄ henv₄ => safe_read fun s₅ henv₅ => safe_read fun s₆ henv₆ => ?_
      have hset₆ := ((hset₃.env henv₄).env henv₅).env henv₆
      split
      · refine hset₆.requeues hterm hns (fun _ => ⟨_, rfl⟩) ?_
        rw [hset₃.number henv₃.inv hg]
        exact FailureKind.lt_maxAttempts_of_requeue ‹_›
      · exact hset₆.fails hterm hns (fun _ => ⟨_, rfl⟩) _ _ now

/-- A result is decided over the locked rows of its Attempt and its Generation. -/
theorem acceptResult_sound (id w : Uuid) (now : Time) :
    Sound (settlements owner timely) (Generations.acceptResult id w now) := by
  intro H s hs
  unfold Generations.acceptResult Workers.releaseSlot
  simp only [Prog.bind_eq, Prog.exec_bind, Prog.pure_eq]
  refine safe_lock (fun s₁ r henv₁ hr hw => ?_) fun _ _ _ _ _ => Discipline.kept_nil
  refine safe_lock (fun s₂ g henv₂ hg _ => ?_) fun _ _ _ _ _ => Discipline.kept_nil
  have hr : fetch s₁ (attempt id) = some r := hr
  have hg : fetch s₂ (generation r.generationId) = some g := hg
  dsimp only
  split
  · exact fun _ _ _ => Discipline.kept_nil
  split
  · exact fun _ _ _ => Discipline.kept_nil
  split
  · exact fun _ _ _ => Discipline.kept_nil
  split
  · exact fun _ _ _ => Discipline.kept_nil
  rename_i hlive hnone htrans
  obtain ⟨hlive, -⟩ : r.state.isLive = true ∧ now < r.leaseExpiresAt := by simpa using hlive
  have hactive := GenerationState.isActive_of_canTransitionTo_succeeded (by simpa using htrans)
  have hr₂ : fetch s₂ (attempt id) = some r := (henv₂.held _ (by simp)).trans hr
  refine safe_update_of_held (by simp) hr₂ hw fun s₃ henv₃ => ?_
  refine Settling.release (by simp) ((henv₃.held _ (by simp)).trans hr₂) hlive rfl
    fun s₄ q henv₄ hset => ?_
  have hg₄ : fetch s₄ (generation r.generationId) = some g :=
    ((henv₄.held _ (by simp)).trans (henv₃.held _ (by simp))).trans hg
  refine safe_update_of_held (r := g) (by simp) (by simpa [settledWrites] using hg₄) rfl
    fun s₅ henv₅ t henv _ => ?_
  have hg₅ : fetch s₅ (generation r.generationId) = some g := (henv₅.held _ (by simp)).trans hg₄
  exact (((hset.env henv₅).lock _).accepted rfl (by simp) hg₅
    (by simpa using hnone) hactive now).env henv

/-- An acknowledgement ends the Generation with its Attempt; one for an Attempt that was
    settled before ends the Generation alone. -/
theorem acknowledgeCancel_sound (id w : Uuid) (now : Time) :
    Sound (settlements owner timely) (Attempts.acknowledgeCancel id w now) := by
  intro H s hs
  unfold Attempts.acknowledgeCancel Generations.get Workers.releaseSlot
  simp only [Prog.bind_eq, Prog.exec_bind, Prog.pure_eq]
  refine safe_lock (fun s₁ r henv₁ hr hw => ?_) fun _ _ _ _ _ => Discipline.kept_nil
  have hr : fetch s₁ (attempt id) = some r := hr
  refine safe_read fun s₂ henv₂ => ?_
  have hr₂ : fetch s₂ (attempt id) = some r := (henv₂.held _ (by simp)).trans hr
  split
  · exact fun _ _ _ => Discipline.kept_nil
  split
  · rename_i hlive
    refine safe_write fun s₃ b ws henv₃ hws => ?_
    have hr₃ : fetch s₃ (attempt id) = some r := (henv₃.held _ (by simp)).trans hr₂
    split at hws
    · rename_i x hx hc
      obtain ⟨hx, -⟩ := Option.filter_eq_some_iff.1 hx
      obtain rfl : r = x := Option.some_inj.1 (hr₃.symm.trans hx)
      obtain ⟨g, hg, hc⟩ := Option.map_eq_some_iff.1 hc
      have hg : fetch s₃ (generation r.generationId) = some g := hg
      cases hws
      refine Settling.release (by simp) hr₃ hlive rfl fun s₄ q henv₄ hset => ?_
      obtain ⟨g₄, hg₄, hle⟩ := henv₄.rely (generation r.generationId) g hg
      exact hset.cancels rfl (by rintro ⟨⟩) (fun _ => ⟨_, rfl⟩) hg₄ (hc ▸ hle) now
    · cases hws
      exact fun _ _ _ => Discipline.kept_nil
  · rename_i hlive
    refine safe_update (fun s₃ g henv₃ hg hc t henv _ => ?_) fun _ _ _ _ _ _ => Discipline.kept_nil
    refine Discipline.Kept.env (kept_of_settlement (by simp) fun t ht => ?_) henv
    have hrt : fetch t (attempt id) = some r :=
      ((ht.held _ (by simp)).trans (henv₃.held _ (by simp))).trans hr₂
    have hgt : fetch t (generation r.generationId) = some g := (ht.held _ (by simp)).trans hg
    refine ⟨.late id ?_, fun a x hx => ht.inv.2.2 a x (by simpa using hx)⟩
    have hstep := Life.AckLate.mk r.life g.life (life_att_of_fetch hrt) hlive (life_gen_of_fetch hgt)
      (of_decide_eq_true hc)
    rw [List.nil_append, applyAll_cons, applyAll_nil, life_store_generation]
    exact hstep

/-- The rejection's own row is in the way of nothing that follows. -/
theorem fetch_recorded {g p : Uuid} {b : Bool} {ws : List (Write Db)} {s₀ : Db}
    (hws : NativeExclusions.recorded g p s₀ = .ok (b, ws)) (t : Db) (W : List (Write Db)) {k : DbKey}
    (hk : k ≠ rejection g p) : fetch (applyAll t (ws ++ W)) k = fetch (applyAll t W) k := by
  rw [applyAll_append]
  refine fetch_applyAll_congr W (fetch_applyAll_of_notMem t fun v hv hvk => hk ?_)
  rw [← hvk, NativeExclusions.recorded_eq_ok hws v hv]

/-- The end of a rejection, with the rows of the Attempt, its Pool and its Generation held, can be
    committed. -/
theorem rejection_kept {id : Uuid} {r : AttemptRow} {g : GenerationRow} {q : DevicePoolRow} {b : Bool}
    {ws : List (Write Db)} {s₀ : Db}
    (hws : NativeExclusions.recorded r.generationId r.poolId s₀ = .ok (b, ws))
    (hrejected : (fetch s₀ (rejection r.generationId r.poolId)).isSome →
      (fetch s (rejection r.generationId r.poolId)).isSome)
    (hcovered : ∀ w ∈ ws, w.1 ∈ H) (hatt : attempt id ∈ H) (hgen : generation r.generationId ∈ H)
    (hpool : devicePool r.poolId ∈ H) (hr : fetch s (attempt id) = some r)
    (hleased : r.state = .leased) (hg : fetch s (generation r.generationId) = some g)
    (hrun : g.state = .running)
    (hq : fetch s (devicePool r.poolId) = some q) :
    (settlements owner timely).Kept H (ws ++ [⟨attempt id, none⟩,
      ⟨devicePool r.poolId, some q.release⟩,
      ⟨generation r.generationId, some { g.withState .queued GenerationRow.queued_unsettled with
        attemptCount := g.attemptCount - 1 }⟩]) s := by
  refine kept_of_settlement (fun v hv => ?_) fun t ht => ?_
  · rcases List.mem_append.1 hv with hv | hv
    · exact hcovered v hv
    simp only [List.mem_cons, List.not_mem_nil, or_false] at hv
    rcases hv with rfl | rfl | rfl
    · exact hatt
    · exact hpool
    · exact hgen
  have hrt : fetch t (attempt id) = some r := (ht.held _ hatt).trans hr
  have hgt : fetch t (generation r.generationId) = some g := (ht.held _ hgen).trans hg
  have hqt : fetch t (devicePool r.poolId) = some q := (ht.held _ hpool).trans hq
  have hstep := Life.Core.reject id r.life g.life (life_att_of_fetch hrt) hleased
    (life_gen_of_fetch hgt) hrun
  refine ⟨.core ?_, fun a x hx => ?_⟩
  · have hrec : life (applyAll t ws) = rejecting (life t) r.generationId r.poolId :=
      life_recorded hws fun h => ht.rely (rejection ..) (hrejected h)
    rw [applyAll_append]
    simp only [applyAll_cons, applyAll_nil, life_store_generation, life_store_devicePool,
      life_store_attempt, hrec]
    rw [AttemptRow.life_pool, Life.released, life_pool_of_fetch hqt] at hstep
    exact hstep
  · rw [fetch_recorded hws _ _ (by simp : attempt a ≠ _)] at hx
    exact owned_store (a := id) (r := none) ht.inv.2.2 (fun _ h => by cases h) a x
      (by simpa using hx)

/-- A rejection deletes the leased Attempt and queues its Generation again, with both
    rows locked. -/
theorem rejectLease_sound (id w : Uuid) (now : Time) :
    Sound (settlements owner timely) (Attempts.rejectLease id w now) := by
  intro H s hs
  unfold Attempts.rejectLease Workers.releaseSlot NativeExclusions.recordPreexecutionRejection
  simp only [Prog.bind_eq, Prog.exec_bind, Prog.pure_eq]
  refine safe_lock (fun s₁ r henv₁ hr hw => ?_) fun _ _ _ _ _ => Discipline.kept_nil
  have hr : fetch s₁ (attempt id) = some r := hr
  dsimp only
  split
  · exact fun _ _ _ => Discipline.kept_nil
  refine safe_lock (fun s₂ g henv₂ hg _ => ?_) fun _ _ _ _ _ => Discipline.kept_nil
  have hr₂ : fetch s₂ (attempt id) = some r := (henv₂.held _ (by simp)).trans hr
  have hg : fetch s₂ (generation r.generationId) = some g := hg
  split
  · exact fun _ _ _ => Discipline.kept_nil
  rename_i hrun
  have hrun : g.state = .running := by simpa using hrun
  have hleased : r.state = .leased := by simpa using (Bool.and_eq_true_iff.1 hw).2
  refine safe_write fun s₃ _ ws henv₃ hws => ?_
  refine safe_write fun s₄ _ ds henv₄ hds => ?_
  have hr₄ : fetch s₄ (attempt id) = some r :=
    ((henv₄.held _ (by simp)).trans (henv₃.held _ (by simp))).trans hr₂
  have hg₄ : fetch s₄ (generation r.generationId) = some g :=
    ((henv₄.held _ (by simp)).trans (henv₃.held _ (by simp))).trans hg
  obtain rfl : ds = [⟨attempt id, none⟩] := by
    have hview : fetch (applyAll s₄ ([] ++ ws)) (attempt id) = some r := by
      have := fetch_recorded hws s₄ [] (by simp : attempt id ≠ _)
      rw [List.append_nil] at this
      rw [List.nil_append, this]
      exact hr₄
    simp only [hview, Option.filter_some, hw, if_true] at hds
    split at hds
    · cases hds
    · cases hds
      rfl
  refine safe_update (fun s₅ q henv₅ hq _ => ?_) fun s₅ henv₅ hmiss => ?_
  · have hr₅ : fetch s₅ (attempt id) = some r := (henv₅.held _ (by simp)).trans hr₄
    have hg₅ : fetch s₅ (generation r.generationId) = some g := (henv₅.held _ (by simp)).trans hg₄
    have hq₅ : fetch s₅ (devicePool r.poolId) = some q := by
      rw [List.nil_append, fetch_recorded hws _ _ (by simp : devicePool _ ≠ _)] at hq
      simpa using hq
    refine safe_update_of_held (r := g) (by simp) ?_ (by simpa using hrun) fun s₆ henv₆ t henv _ => ?_
    · rw [List.nil_append, List.append_assoc, fetch_recorded hws _ _ (by simp : generation _ ≠ _)]
      simpa using hg₅
    refine Discipline.Kept.env ?_ henv
    have hrejected : (fetch s₃ (rejection r.generationId r.poolId)).isSome →
        (fetch s₆ (rejection r.generationId r.poolId)).isSome := fun h =>
      henv₆.rely (rejection ..) (henv₅.rely (rejection ..) (henv₄.rely (rejection ..) h))
    simp only [List.nil_append, List.append_assoc, List.cons_append]
    exact rejection_kept hws hrejected (fun v hv => by simp [List.mem_map_of_mem hv]) (by simp)
      (by simp)
      (by simp) ((henv₆.held _ (by simp)).trans hr₅) hleased ((henv₆.held _ (by simp)).trans hg₅) hrun
      ((henv₆.held _ (by simp)).trans hq₅)
  · have hr₅ : fetch s₅ (attempt id) = some r := (henv₅.held _ (by simp)).trans hr₄
    obtain ⟨q, hq⟩ := pool_of_attempt henv₅.inv hr₅
    rw [List.nil_append, fetch_recorded hws _ _ (by simp : devicePool _ ≠ _)] at hmiss
    simp [hq] at hmiss

/-- The end of a lease, with the rows of the Pool, the Generation and the new Attempt held, can be
    committed. -/
theorem lease_kept {g p id : Uuid} {row : GenerationRow} {q : DevicePoolRow} {A : AttemptRow}
    {startedAt : Time} (howner : owner id = g) (hgen : generation g ∈ H) (hatt : attempt id ∈ H)
    (hpool : devicePool p ∈ H)
    (hrow : fetch s (generation g) = some row) (hqueued : row.state = .queued)
    (hid : fetch s (attempt id) = none) (hq : fetch s (devicePool p) = some q)
    (hfree : q.claimedSlots < q.totalSlots) (hmax : row.attemptCount < maxAttempts)
    (hA : A.life = ⟨g, p, .leased, row.attemptCount + 1, false⟩)
    (hx : ∀ t, (settlements owner timely).Env H s t → ¬ (life t).Excluded g p) :
    (settlements owner timely).Kept H [⟨devicePool p, some q.claim⟩, ⟨attempt id, some A⟩,
      ⟨generation g, some (row.counted (row.attemptCount + 1))⟩,
      ⟨generation g, some { (row.counted (row.attemptCount + 1)).withState .running with
        startedAt := some startedAt }⟩] s := by
  refine kept_of_settlement (fun v hv => ?_) fun t ht => ?_
  · simp only [List.mem_cons, List.not_mem_nil, or_false] at hv
    rcases hv with rfl | rfl | rfl | rfl
    · exact hpool
    · exact hatt
    · exact hgen
    · exact hgen
  have hrow_t := (ht.held (generation g) hgen).trans hrow
  have hid_t := (ht.held (attempt id) hatt).trans hid
  have hq_t := (ht.held (devicePool p) hpool).trans hq
  have hstep := Life.Core.assign g id p row.life q.life (life_gen_of_fetch hrow_t) hqueued
    (by simp [life, hid_t]) (life_pool_of_fetch hq_t) hfree hmax (hx t ht)
  refine ⟨.core ?_, fun a x hx => ?_⟩
  · simp only [applyAll_cons, applyAll_nil, life_store_generation, life_store_attempt,
      life_store_devicePool, update_idem, Option.map_some, hA, claim_life hfree]
    exact hstep
  · have hgen : A.generationId = owner id := (congrArg AttLife.generation hA).trans howner.symm
    have hx : fetch (store (store t (devicePool p) (some q.claim)) (attempt id) (some A))
        (attempt a) =
        some x := by simpa using hx
    refine owned_store (fun b y hy => ht.inv.2.2 b y (by simpa using hy)) (fun y hy => ?_) a x hx
    cases hy
    exact hgen

/-- The Pools excluded from a queued Generation grow no further while its row is locked. -/
theorem not_excluded_of_locked {g p : Uuid} {row : GenerationRow}
    (henv : (settlements owner timely).Env H s t) (hlock : generation g ∈ H)
    (hrow : fetch t (generation g) = some row)
    (hqueued : row.state = .queued)
    (hx : p ∉ NativeExclusions.excluded s g) : ¬ (life t).Excluded g p := by
  have hguard : Life.Guards g (life s) (life t) := henv.guards (generation g) hlock
  refine hguard.not_excluded (life_gen_of_fetch hrow) ?_ (mt excluded_life_iff.1 hx)
  rw [GenerationRow.life_state, hqueued]
  rfl

/-- An Attempt that could be inserted is new, and its row is that of a lease. -/
theorem safe_insert {α : Type} {Q : α → List DbKey → List (Write Db) → Db → Prop}
    {W : List (Write Db)} {k : Unit → Prog Db α} {id g w p : Uuid} {n : ℕ} {slotKey : String}
    {leaseExpiry now : Time}
    (h : ∀ s' A, (settlements owner timely).Env H s s' → A.life = ⟨g, p, .leased, n, false⟩ →
      fetch (applyAll s' W) (attempt id) = none →
      (k ()).Safe (settlements owner timely) Q (H ++ [attempt id]) (W ++ [⟨attempt id, some A⟩]) s') :
    (Prog.step (Attempts.insert id g n w p slotKey leaseExpiry now) k).Safe
      (settlements owner timely) Q H W s := by
  unfold Attempts.insert
  refine safe_require (safe_write fun s' _ ws henv hws => ?_)
  split at hws
  case isFalse => cases hws
  split at hws
  case isTrue => cases hws
  rename_i hnew
  split at hws
  case isTrue => cases hws
  cases hws
  have hnone := (Bool.or_eq_false_iff.1 (Bool.eq_false_iff.2 hnew)).1
  exact h s' _ henv rfl (by simpa using hnone)

/-- A lease: the Pool is claimed, the queued Generation locked, and the Attempt inserted
    for it. -/
theorem tryAssign_commits (assignment : SlotAssignment) (id : Uuid) (now : Time) (sent : Bool)
    (howner : owner id = assignment.generationId) :
    Commits (settlements owner timely) (tryAssign assignment id now sent) := by
  intro H s hs
  unfold tryAssign NativeExclusions.excludedPools Workers.claimSlot Attempts.create
    Generations.markRunning Generations.get NativeExclusions.excludedPools
  simp only [Prog.bind_eq, Prog.exec_bind, Prog.pure_eq]
  refine safe_read fun s₀ henv₀ => ?_
  split
  · exact safe_rollback
  refine safe_update (fun s₁ q henv₁ hq hfree => ?_) fun _ _ _ => safe_rollback
  have hq : fetch s₁ (devicePool assignment.poolId) = some q := hq
  simp only [Bool.not_true, Bool.false_eq_true, if_false, step_bind]
  refine safe_lock (fun s₂ row henv₂ hrow _ => ?_) fun _ _ => safe_rollback
  have hrow : fetch s₂ (generation assignment.generationId) = some row := by simpa using hrow
  dsimp only
  split
  · exact safe_rollback
  rename_i hqueued
  have hqueued : row.state = .queued := not_not.1 hqueued
  simp only [step_bind]
  refine safe_read fun s₃ henv₃ => ?_
  split
  · exact safe_rollback
  rename_i hx
  split
  · exact safe_rollback
  rename_i hmax
  simp only [step_bind]
  refine safe_insert fun s₄ A henv₄ hA hnew => ?_
  have hid : fetch s₄ (attempt id) = none := by simpa using hnew
  have hq₄ : fetch s₄ (devicePool assignment.poolId) = some q :=
    (((henv₄.held _ (by simp)).trans (henv₃.held _ (by simp))).trans (henv₂.held _ (by simp))).trans
      hq
  have hrow₄ : fetch s₄ (generation assignment.generationId) = some row :=
    ((henv₄.held _ (by simp)).trans (henv₃.held _ (by simp))).trans hrow
  refine safe_update_of_held (r := row) (by simp) (by simpa using hrow₄) rfl fun s₅ henv₅ => ?_
  simp only [done_bind]
  refine safe_update_of_held (r := row.counted (row.attemptCount + 1)) (by simp) (by simp)
    (decide_eq_true hqueued) fun s₆ henv₆ => ?_
  refine safe_read fun s₇ henv₇ => ?_
  split
  case h_2 => exact safe_rollback
  refine safe_read fun s₈ henv₈ => ?_
  split
  · exact safe_rollback
  split
  case isFalse => exact safe_rollback
  intro s₉ henv₉ _
  have henv := henv₅.trans ((henv₆.weaken (List.subset_append_left _ _)).trans
    (((henv₇.trans henv₈).trans henv₉).weaken
      (List.Subset.trans (List.subset_append_left _ _) (List.subset_append_left _ _))))
  have hrow₉ := (henv.held (generation assignment.generationId) (by simp)).trans hrow₄
  -- the exclusions were read under the Generation's lock, which guards them since
  have hsince := henv₄.trans (henv.weaken (List.subset_append_left _ _))
  simp only [List.nil_append, List.cons_append, List.append_assoc]
  refine lease_kept howner (by simp) (by simp) (by simp) hrow₉ hqueued
    ((henv.held (attempt id) (by simp)).trans hid)
    ((henv.held (devicePool assignment.poolId) (by simp)).trans hq₄) (of_decide_eq_true hfree)
    (Nat.lt_of_succ_le (not_lt.1 hmax)) hA fun t ht => ?_
  exact not_excluded_of_locked (hsince.trans (ht.weaken (by simp))) (by simp)
    ((ht.held (generation assignment.generationId) (by simp)).trans hrow₉) hqueued hx

/-! ## Transactions -/

/-- A cancellation ends a queued Generation, or requests the end of a running one. -/
theorem cancelGeneration_commits (id : Uuid) (now : Time) :
    Commits (settlements owner timely) (cancelGeneration id now) := by
  have hqueued : Sound (settlements owner timely) (Generations.cancelQueued id now) :=
    transition_sound fun _ g hg hs => .endQueued id g.life .cancelled hg (by simpa using hs)
      (.inl rfl)
  have hrunning : Sound (settlements owner timely) (Generations.requestCancelRunning id) :=
    Sound.labelled rfl
      (transition_sound fun _ g hg hs => .cancelRunning id g.life hg (by simpa using hs))
  refine .bind hqueued fun cancelled => ?_
  -- what follows where it was not queued any more
  have hrest : @Commits _ _ (Option GenerationState) (settlements owner timely)
      (cancelRunning id) := by
    rw [cancelRunning, cancelAnswer]
    refine .bind hrunning fun _ => .bind (sound_read _) fun row => ?_
    cases row <;> exact .done _
  cases cancelled with
  | false => exact hrest
  | true => exact .bind (deleteInputsForGeneration_sound id) fun _ => hrest

/-- An accepted result records outputs only. -/
theorem recordAcceptedResult_commits (tenantId w id g : Uuid) (outputs : List AttemptOutput)
    (now : Time) :
    Commits (settlements owner timely) (recordAcceptedResult tenantId w id g outputs now) := by
  refine .bind (Sound.forEach (fun output => ?_) _) fun recorded => ?_
  · unfold recordReportedOutput
    split
    · dsimp only
      split
      · split
        · exact .done _
        · exact .bind (insertArtifact_sound _ _) fun _ => .done _
      · split
        · exact .done _
        · exact .bind (insertArtifact_sound _ _) fun _ => .done _
      · exact .done _
    · exact .done _
  · split
    · exact .done _
    · exact .bind (deleteInputsForGeneration_sound g) fun _ => .done _

/-- An acknowledgement cancels the Generation of its Attempt. -/
theorem cancelAcknowledged_commits (w : AuthenticatedWorker) (id : Uuid) (now : Time) :
    Commits (settlements owner timely) (tryHandleCancelAcknowledged w id now) := by
  refine authenticated_commits (.bind (acknowledgeCancel_sound id _ now) fun out => ?_)
  cases out with
  | none => exact .done _
  | some g => exact .bind (deleteInputsForGeneration_sound g) fun _ => .done _

theorem leaseRejected_commits (w : AuthenticatedWorker) (id : Uuid) (now : Time) :
    Commits (settlements owner timely) (tryHandleLeaseRejected w id now) :=
  authenticated_commits (.bind (rejectLease_sound id _ now) fun _ => .done _)

theorem propagateCancellations_commits (now : Time) :
    Commits (settlements owner timely) (propagateCancellations now) :=
  .bind (sound_read _) fun _ => .bind (Sound.forEach (fun id => requestCancel_sound id now) _)
    fun _ => .done _

/-- A heartbeat renews leases; the stage of no Attempt changes. -/
theorem heartbeat_commits (w : AuthenticatedWorker) (ids : List Uuid) (now clock : Time) :
    Commits (settlements owner timely) (tryHandleHeartbeat w ids now clock) := by
  refine authenticated_commits (.bind ?_ fun _ => .done _)
  unfold Attempts.heartbeat
  split
  · exact .done _
  refine sound_write_same fun db b ws hws v hv => ?_
  cases hws
  obtain ⟨e, he, rfl⟩ := List.mem_map.1 hv
  exact ⟨e.1, e.2, _, rfl, Table.mem_rows.1 (List.mem_of_mem_filter he), rfl⟩

/-- The Generation of a leased Attempt is not queued, so only the Attempt changes. -/
theorem attemptRunning_commits (w : AuthenticatedWorker) (id : Uuid) (now : Time) :
    Commits (settlements owner timely) (tryHandleAttemptRunning w id now) := by
  refine authenticated_commits fun H s hs => ?_
  unfold Attempts.markRunning Attempts.generationIdOf Generations.markRunning
  simp only [Prog.bind_eq, Prog.exec_bind, Prog.pure_eq]
  refine safe_write fun s₁ b ws henv₁ hws => ?_
  rw [applyAll_nil] at hws
  split at hws
  · cases hws
    exact safe_rollback
  rename_i r hr
  obtain ⟨hr, hleased⟩ := Option.filter_eq_some_iff.1 hr
  have hleased : r.state = .leased := by simp at hleased; exact hleased.1.2
  split at hws
  · cases hws
    exact safe_rollback
  obtain ⟨r', hr', rfl, rfl⟩ : ∃ r' : AttemptRow, r'.life = { r.life with state := .running } ∧
      b = true ∧ ws = [⟨attempt id, some r'⟩] := by
    cases hws
    exact ⟨_, rfl, rfl, rfl⟩
  simp only [Bool.not_true, Bool.false_eq_true, if_false, List.nil_append, List.map_cons,
    List.map_nil]
  refine safe_read fun s₂ henv₂ => ?_
  have hr₂ : fetch s₂ (attempt id) = some r := (henv₂.held _ (by simp)).trans hr
  cases hlive : (fetch (applyAll s₂ [⟨attempt id, some r'⟩]) (attempt id)).filter fun r =>
      r.workerId = w.workerId && r.state.isLive && r.leaseExpiresAt > now with
  | none => exact safe_rollback
  | some r'' =>
    obtain rfl : r' = r'' := by simpa using (Option.filter_eq_some_iff.1 hlive).1
    have hid : r'.generationId = r.generationId := congrArg AttLife.generation hr'
    have hgen : ∀ t, (settlements owner timely).inv t → fetch t (attempt id) = some r →
        ∃ g, fetch t (generation r.generationId) = some g ∧ g.state ≠ .queued := by
      intro t ht hrt
      have hatt := life_att_of_fetch hrt
      obtain ⟨⟨g, hg⟩, -⟩ := ht.1.wellReferenced id r.life hatt
      obtain ⟨row, hrow, rfl⟩ := Option.map_eq_some_iff.1 hg
      refine ⟨row, hrow, fun hq => ht.1.atMostOne.2 _ _ id hg hq ⟨r.life, hatt, rfl, ?_⟩⟩
      rw [AttemptRow.life_state, hleased]
      rfl
    dsimp only [Option.map_some]
    refine safe_update (fun s₃ g henv₃ hg hq => ?_) fun s₃ henv₃ _ t₀ ht₀ _ => ?_
    · obtain ⟨g', hg', hne⟩ := hgen s₃ henv₃.inv ((henv₃.held _ (by simp)).trans hr₂)
      rw [hid] at hg
      obtain rfl : g' = g := Option.some_inj.1 (hg'.symm.trans (by simpa using hg))
      exact absurd (of_decide_eq_true hq) hne
    · refine kept_of_settlement (by simp) fun t ht => ?_
      have hrt : fetch t (attempt id) = some r :=
        (((ht.held _ (by simp)).trans (ht₀.held _ (by simp))).trans (henv₃.held _ (by simp))).trans
          hr₂
      obtain ⟨g, hg, hne⟩ := hgen t ht.inv hrt
      refine ⟨.core ?_, owned_store ht.inv.2.2 fun x hx => ?_⟩
      · have hstep := Life.Core.start id r.life (life_att_of_fetch hrt) hleased
        have hwake : update (life t).gen r.generationId (some g.life.wake) = (life t).gen := by
          rw [GenLife.wake, GenerationRow.life_state, if_neg hne]
          exact update_eq_self_iff.2 (life_gen_of_fetch hg).symm
        rw [AttemptRow.life_generation, life_gen_of_fetch hg, Option.map_some, hwake] at hstep
        rw [applyAll_cons, applyAll_nil, life_store_attempt, Option.map_some, hr']
        exact hstep
      · cases hx
        exact hid.trans (ht.inv.2.2 id r hrt)

/-- The inputs of a Generation that failed are deleted. -/
theorem deleteInputsOnFail_sound (out : Option (Uuid × RetryDecision)) :
    Sound (settlements owner timely) (deleteInputsOnFail out) := by
  unfold deleteInputsOnFail
  split
  · exact deleteInputsForGeneration_sound _
  · exact .done _

variable [ManifestHash]

/-- A failure that is reported ends its Attempt. -/
theorem settleAttemptFailure_commits (w : AuthenticatedWorker) (id : Uuid)
    (failure : Attempts.FailureDetails) (now : Time) :
    Commits (settlements owner timely) (settleAttemptFailure w id failure now) := by
  refine authenticated_commits (.bind (finishAndDecide_sound _ _ _ _ _ nofun) fun out => ?_)
  dsimp only
  split
  · exact .bind (deleteInputsForGeneration_sound _) fun _ => .done _
  · exact .done _

/-- A result is accepted, or its Attempt fails where it is malformed. -/
theorem attemptResult_commits (w : AuthenticatedWorker) (id : Uuid) (outputs : List AttemptOutput)
    (now : Time) : Commits (settlements owner timely) (tryHandleAttemptResult w id outputs now) := by
  refine .bind (sound_tryRead _) fun settings => ?_
  dsimp only
  split
  · intro H s hs
    refine safe_bind hs
      ((settleAttemptFailure_commits w id _ now H s hs).mono fun v H' W' s' hs' h => ?_)
    cases v with
    | commit out => exact fun s'' henv _ => (h ⟨out, rfl⟩).env henv
    | rollback out => exact safe_rollback
  · refine authenticated_commits (.bind (acceptResult_sound id _ now) fun out => ?_)
    cases out with
    | accepted g => exact recordAcceptedResult_commits _ _ _ _ _ _
    | _ => exact .done _

/-- Leases that have run out end their Attempts, one by one. -/
theorem expireLeases_commits (now : Time) (skip : Uuid → Bool) :
    Commits (settlements owner timely) (expireLeases now skip) := by
  refine .bind (sound_lockAll _ _) fun expired => .bind (Sound.forEach (fun id => ?_) _)
    fun _ => .done _
  refine .bind (requestCancel_sound id now) fun _ => ?_
  exact .bind (finishAndDecide_sound _ _ _ _ _ nofun) fun out => deleteInputsOnFail_sound out

theorem enforceExecutionDeadlines_commits (now : Time) (skip : Uuid → Bool) :
    Commits (settlements owner timely) (enforceExecutionDeadlines now skip) := by
  refine .bind (sound_lockAll _ _) fun overdue => .bind (Sound.forEach (fun id => ?_) _)
    fun _ => .done _
  exact .bind (finishAndDecide_sound _ _ _ _ _ nofun) fun out => deleteInputsOnFail_sound out

/-- The sweep expires queued Generations, one by one. -/
theorem expireStarvedQueue_commits (now : Time) :
    Commits (settlements owner timely) (expireStarvedQueue now) := by
  refine .bind (sound_read _) fun settings => .bind (sound_read _) fun candidates => ?_
  split
  · exact .done _
  refine .bind (sound_read _) fun capabilities => .bind (sound_read _) fun exclusions => ?_
  refine .bind (Sound.forEach (fun candidate => ?_) _) fun _ => .done _
  split
  · refine .bind (transition_sound fun _ g hg hs =>
      .endQueued candidate.generationId g.life .expired hg (by simpa using hs) (.inr rfl))
        fun expired => ?_
    split
    · exact deleteInputsForGeneration_sound _
    · exact .done _
  · exact .done _

end Settlements

end Gpq
