import Gpq.Lifecycle.Admissions
import Gpq.Lifecycle.Frames

/-!
# Input Artifacts

An admission links the request's inputs to the new Generation and clears their time to
live. From then on (`inputs_owned`):

  * an input of a Generation that is not over does not expire and keeps its content;
  * the transaction that ends a Generation deletes all of its inputs, and nothing else
    deletes one;
  * an admission that fails changes no Artifact.

A settlement ends a Generation and deletes its inputs by two statements. What it does
before the deletion is a change by `lifecycleRel`, and its answer says which Generation it
has ended.
-/

namespace Gpq

open Sql DbKey Prog

/-- An input Artifact of the Generation. -/
def InputOf (g : Uuid) (r : ArtifactRow) : Prop := r.direction = .input ∧ r.generationId = some g

/-- The Generation is there, and not over. -/
def Live (db : Db) (g : Uuid) : Prop := ∃ row, fetch db (generation g) = some row ∧
    ¬ row.state.isTerminal

/-- The Generation is over. -/
def Over (db : Db) (g : Uuid) : Prop := ∃ row, fetch db (generation g) = some row ∧
    row.state.isTerminal

/-- The Artifact does not expire, and its bytes are there if the Remote keeps them. -/
structure ArtifactRow.Secured (r : ArtifactRow) : Prop where
  no_expiry : r.expiresAt = none
  state : r.state = .pending ∨ r.state = .available
  content : r.placement = .remoteLocal →
    r.content.any fun bytes => bytes.length = r.manifest.sizeBytes.toNat

/-- Linked inputs are secured, and belong to a Generation that is not over; such a
    Generation has all the inputs that its parameters name. -/
structure InputsOwned (db : Db) : Prop where
  linked : ∀ a r g, fetch db (artifact a) = some r → InputOf g r → Live db g ∧ r.Secured
  staged : ∀ g row, fetch db (generation g) = some row → ¬ row.state.isTerminal →
    ∀ a ∈ row.parameters.stagingArtifactIds, ∃ r, fetch db (artifact a) = some r ∧ InputOf g r

/-- A linked input stays as it is, unless its Generation ends and it is deleted. -/
def InputsKept (db db' : Db) : Prop :=
  ∀ a r g, fetch db (artifact a) = some r → InputOf g r →
    fetch db' (artifact a) = some r ∧ Live db' g ∨ fetch db' (artifact a) = none ∧ Over db' g

/-- The inputs of the Generation are deleted, and nothing else changes. -/
structure InputsDeleted (g : Uuid) (db db' : Db) : Prop where
  others : ∀ k, (∀ a, k ≠ artifact a) → fetch db' k = fetch db k
  deleted : ∀ a r, fetch db (artifact a) = some r → InputOf g r → fetch db' (artifact a) = none
  kept : ∀ a, (∀ r, fetch db (artifact a) = some r → ¬ InputOf g r) →
    fetch db' (artifact a) = fetch db (artifact a)

/-- Nothing ends, and no Artifact is touched. -/
abbrev quietRel : RowRel Db := lifecycleRel (fun _ => False) .nothing

section Changes

variable {db db₁ db₂ : Db} {g : Uuid} {ends : Uuid → Prop} {touch : Touch}

/-- A Generation that is over stays so. -/
theorem over_of_ages (h : (lifecycleRel ends touch).Of db db₁) (hover : Over db g) : Over db₁ g := by
  obtain ⟨row, hrow, hterm⟩ := hover
  have hages : Ages (ends g) (fetch db (generation g)) (fetch db₁ (generation g)) := h (generation g)
  rw [hrow] at hages
  obtain ⟨row', hrow', -, hstays, -⟩ := hages
  exact ⟨row', hrow', hstays hterm⟩

/-- A Generation that may not end stays live. -/
theorem live_of_ages (h : (lifecycleRel ends touch).Of db db₁) (hg : ¬ ends g) (hlive : Live db g) :
    Live db₁ g := by
  obtain ⟨row, hrow, hterm⟩ := hlive
  have hages : Ages (ends g) (fetch db (generation g)) (fetch db₁ (generation g)) := h (generation g)
  rw [hrow] at hages
  obtain ⟨row', hrow', -, -, hends⟩ := hages
  exact ⟨row', hrow', fun ht => (hends ht).elim hg hterm⟩

/-- A Generation that is not over was not, with the same parameters. -/
theorem was_of_ages (h : (lifecycleRel ends touch).Of db db₁) {row : GenerationRow}
    (hrow : fetch db₁ (generation g) = some row) (hterm : ¬ row.state.isTerminal) :
    ∃ row₀, fetch db (generation g) = some row₀ ∧ row.parameters = row₀.parameters ∧
      ¬ row₀.state.isTerminal := by
  have hages : Ages (ends g) (fetch db (generation g)) (fetch db₁ (generation g)) := h (generation g)
  rw [hrow] at hages
  cases hrow₀ : fetch db (generation g) with
  | none =>
    rw [hrow₀] at hages
    cases hages
  | some row₀ =>
    rw [hrow₀] at hages
    obtain ⟨row', hrow', hparams, hstays, -⟩ := hages
    cases hrow'
    exact ⟨row₀, rfl, hparams, fun ht => hterm (hstays ht)⟩

/-- An input is not touched. -/
theorem input_same (h : (lifecycleRel ends .outputs).Of db db₁) {a : Uuid} {r : ArtifactRow}
    (hinput : r.direction = .input) :
    fetch db₁ (artifact a) = some r ↔ fetch db (artifact a) = some r := by
  have hrel : Touch.outputs.Rel (fetch db (artifact a)) (fetch db₁ (artifact a)) := h (artifact a)
  rcases hrel with he | ⟨hout, hout'⟩
  · rw [he]
  · constructor
    · intro hr
      have := hout' r hr
      rw [hinput] at this
      cases this
    · intro hr
      have := hout r hr
      rw [hinput] at this
      cases this

/-- More Generations may be allowed to end. -/
theorem lifecycleRel_mono {ends' : Uuid → Prop} (hends : ∀ g, ends g → ends' g)
    (h : (lifecycleRel ends touch).Of db db₁) : (lifecycleRel ends' touch).Of db db₁ := by
  intro k
  have hk := h k
  cases k with
  | generation g => exact Ages.mono (hends g) hk
  | artifact a => exact hk
  | tenant => exact hk
  | _ => trivial

/-- Who touches no Artifact touches outputs only. -/
theorem outputs_of_nothing (h : (lifecycleRel ends .nothing).Of db db₁) :
    (lifecycleRel ends .outputs).Of db db₁ := by
  intro k
  have hk := h k
  cases k with
  | generation g => exact hk
  | artifact a => exact .inl hk
  | tenant => exact hk
  | _ => trivial

/-- Nothing ends, and no input is touched. -/
theorem InputsOwned.quiet (h : InputsOwned db)
    (hq : (lifecycleRel (fun _ => False) .outputs).Of db db₁) :
    InputsOwned db₁ ∧ InputsKept db db₁ := by
  refine ⟨⟨fun a r g hr hin => ?_, fun g row hrow hterm a ha => ?_⟩, fun a r g hr hin => .inl ?_⟩
  · obtain ⟨hlive, hsecured⟩ := h.linked a r g ((input_same hq hin.1).1 hr) hin
    exact ⟨live_of_ages hq id hlive, hsecured⟩
  · obtain ⟨row₀, hrow₀, hparams, hterm₀⟩ := was_of_ages hq hrow hterm
    rw [hparams] at ha
    obtain ⟨r, hr, hin⟩ := h.staged g row₀ hrow₀ hterm₀ a ha
    exact ⟨r, (input_same hq hin.1).2 hr, hin⟩
  · exact ⟨(input_same hq hin.1).2 hr, live_of_ages hq id (h.linked a r g hr hin).1⟩

/-- The inputs of a Generation that is over are deleted. -/
theorem InputsOwned.deleted (h : InputsOwned db) (hs : (lifecycleRel (· = g) .outputs).Of db db₁)
    (hover : Over db₁ g) (hd : InputsDeleted g db₁ db₂) : InputsOwned db₂ ∧ InputsKept db db₂ := by
  have hgen : ∀ g', fetch db₂ (generation g') = fetch db₁ (generation g') := fun g' =>
    hd.others _ fun _ => nofun
  have hlive : ∀ g', g' ≠ g → Live db g' → Live db₂ g' := by
    intro g' hne hlive
    obtain ⟨row, hrow, hterm⟩ := live_of_ages hs hne hlive
    exact ⟨row, (hgen g').trans hrow, hterm⟩
  -- an input of another Generation is where it was
  have hother : ∀ a r g', InputOf g' r → g' ≠ g → fetch db (artifact a) = some r →
      fetch db₂ (artifact a) = some r := by
    intro a r g' hin hne hr
    have hr₁ := (input_same hs hin.1).2 hr
    rw [hd.kept a fun r' hr' hin' => ?_, hr₁]
    obtain rfl : r' = r := Option.some_inj.1 (hr'.symm.trans hr₁)
    exact hne (Option.some_inj.1 (hin.2.symm.trans hin'.2))
  have hback : ∀ a r g', fetch db₂ (artifact a) = some r → InputOf g' r →
      g' ≠ g ∧ fetch db (artifact a) = some r := by
    intro a r g' hr hin
    by_cases hof : ∃ r', fetch db₁ (artifact a) = some r' ∧ InputOf g r'
    · obtain ⟨r', hr', hin'⟩ := hof
      cases hr.symm.trans (hd.deleted a r' hr' hin')
    · have hnot : ∀ r', fetch db₁ (artifact a) = some r' → ¬ InputOf g r' := fun r' hr' hin' =>
        hof ⟨r', hr', hin'⟩
      have hr₁ : fetch db₁ (artifact a) = some r := (hd.kept a hnot).symm.trans hr
      refine ⟨?_, (input_same hs hin.1).1 hr₁⟩
      rintro rfl
      exact hnot r hr₁ hin
  refine ⟨⟨fun a r g' hr hin => ?_, fun g' row hrow hterm a ha => ?_⟩, fun a r g' hr hin => ?_⟩
  · obtain ⟨hne, hr₀⟩ := hback a r g' hr hin
    obtain ⟨hlive₀, hsecured⟩ := h.linked a r g' hr₀ hin
    exact ⟨hlive g' hne hlive₀, hsecured⟩
  · rw [hgen g'] at hrow
    have hne : g' ≠ g := by
      rintro rfl
      obtain ⟨row', hrow', hterm'⟩ := hover
      obtain rfl : row' = row := Option.some_inj.1 (hrow'.symm.trans hrow)
      exact hterm hterm'
    obtain ⟨row₀, hrow₀, hparams, hterm₀⟩ := was_of_ages hs hrow hterm
    rw [hparams] at ha
    obtain ⟨r, hr, hin⟩ := h.staged g' row₀ hrow₀ hterm₀ a ha
    exact ⟨r, hother a r g' hin hne hr, hin⟩
  · by_cases hne : g' = g
    · subst hne
      obtain ⟨row, hrow, hterm⟩ := hover
      exact .inr ⟨hd.deleted a r ((input_same hs hin.1).2 hr) hin, row, (hgen g').trans hrow, hterm⟩
    · exact .inl ⟨hother a r g' hin hne hr, hlive g' hne (h.linked a r g' hr hin).1⟩

/-- What several settlements do: they delete only inputs of Generations that are over. -/
structure Settled (db db' : Db) : Prop where
  generations : ∀ g, Ages True (fetch db (generation g)) (fetch db' (generation g))
  inputs : ∀ a, fetch db' (artifact a) = fetch db (artifact a) ∨ fetch db' (artifact a) = none ∧
    ∃ r g, fetch db (artifact a) = some r ∧ InputOf g r ∧ Over db' g

/-- A Generation that is over stays so. -/
theorem Settled.over (h : Settled db db₁) (hover : Over db g) : Over db₁ g := by
  obtain ⟨row, hrow, hterm⟩ := hover
  have hages := h.generations g
  rw [hrow] at hages
  obtain ⟨row', hrow', -, hstays, -⟩ := hages
  exact ⟨row', hrow', hstays hterm⟩

theorem Settled.refl (db : Db) : Settled db db := ⟨fun _ => .refl _ _, fun _ => .inl rfl⟩

/-- Two steps that settle inputs are one. -/
theorem Settled.trans (h : Settled db db₁) (h' : Settled db₁ db₂) : Settled db db₂ := by
  refine ⟨fun g => (h.generations g).trans (h'.generations g), fun a => ?_⟩
  rcases h.inputs a with he | ⟨hnone, r, g, hr, hin, hover⟩
  · rcases h'.inputs a with he' | ⟨hnone', r, g, hr, hin, hover⟩
    · exact .inl (he'.trans he)
    · exact .inr ⟨hnone', r, g, he.symm.trans hr, hin, hover⟩
  · -- an input that is gone stays gone
    refine .inr ⟨?_, r, g, hr, hin, h'.over hover⟩
    rcases h'.inputs a with he' | ⟨hnone', -⟩
    · exact he'.trans hnone
    · exact hnone'

/-- With the invariant at the end, the settlements keep what is linked. -/
theorem Settled.kept (h : Settled db db₁) (howned : InputsOwned db₁) : InputsKept db db₁ := by
  intro a r g hr hin
  rcases h.inputs a with he | ⟨hnone, r', g', hr', hin', hover⟩
  · have hr₁ := he.trans hr
    exact .inl ⟨hr₁, (howned.linked a r g hr₁ hin).1⟩
  · obtain rfl : r' = r := Option.some_inj.1 (hr'.symm.trans hr)
    obtain rfl : g' = g := Option.some_inj.1 (hin'.2.symm.trans hin.2)
    exact .inr ⟨hnone, hover⟩

theorem Settled.of_lifecycle (h : (lifecycleRel ends .nothing).Of db db₁) : Settled db db₁ :=
  ⟨fun g => Ages.mono (fun _ => trivial) (h (generation g)), fun a => .inl (h (artifact a))⟩

/-- The inputs of a Generation that is over may be deleted. -/
theorem Settled.deleted (h : Settled db db₁) (hover : Over db₁ g) (hd : InputsDeleted g db₁ db₂) :
    Settled db db₂ := by
  have hgen : ∀ g', fetch db₂ (generation g') = fetch db₁ (generation g') := fun g' =>
    hd.others _ fun _ => nofun
  refine h.trans ⟨fun g' => hgen g' ▸ .refl _ _, fun a => ?_⟩
  by_cases hof : ∃ r, fetch db₁ (artifact a) = some r ∧ InputOf g r
  · obtain ⟨r, hr, hin⟩ := hof
    obtain ⟨row, hrow, hterm⟩ := hover
    exact .inr ⟨hd.deleted a r hr hin, r, g, hr, hin, row, (hgen g).trans hrow, hterm⟩
  · exact .inl (hd.kept a fun r hr hin => hof ⟨r, hr, hin⟩)

end Changes

/-! ## Settlements -/

section Settlements

variable {α β : Type}

/-- The body deletes the inputs of every Generation that it ends. -/
def CleansUp (p : Body α) : Prop :=
  ∀ db, InputsOwned db → p.Ensures ⊤ (fun _ db' => InputsOwned db' ∧ Settled db db') db

theorem CleansUp.done (a : α) : CleansUp (done a) := fun db h => ⟨h, .refl db⟩

theorem CleansUp.bind {p : Body β} {f : β → Body α} (hp : CleansUp p) (hf : ∀ b, CleansUp (f b)) :
    CleansUp (p.bind f) := by
  intro db h
  refine ensures_bind (Ensures.mono (hp db h) fun b db₁ ⟨h₁, hs⟩ => ?_)
  exact Ensures.mono (hf b db₁ h₁) fun _ db₂ ⟨h₂, hs'⟩ => ⟨h₂, hs.trans hs'⟩

theorem CleansUp.forEach {ι : Type} {f : ι → Body α} (hf : ∀ i, CleansUp (f i)) (is : List ι) :
    CleansUp (Prog.forEach f is) := by
  induction is with
  | nil => exact .done _
  | cons i is ih => exact .bind (hf i) fun a => .bind ih fun as => .done _

/-- A body that ends nothing and touches no Artifact. -/
theorem CleansUp.of_keeps {p : Body α} (h : p.Keeps quietRel) : CleansUp p :=
  fun db hdb => Ensures.mono (h.ensures db) fun _ _ hof =>
    ⟨(hdb.quiet (outputs_of_nothing hof)).1, .of_lifecycle hof⟩

/-- The statement that deletes the inputs. -/
theorem deleteInputs_ensures (g : Uuid) (db : Db) :
    (Artifacts.deleteInputsForGeneration g).Ensures ⊤ (fun _ db' => InputsDeleted g db db') db := by
  refine ensures_write fun _ ws hws => ⟨fun _ => trivial, ?_⟩
  cases hws
  -- the Artifacts that the statement deletes
  let ids := (db.artifacts.rows.filter fun e =>
    e.2.generationId = some g && e.2.direction = .input).map fun e => artifact e.1
  have hmem : ∀ a, artifact a ∈ ids ↔ ∃ r, fetch db (artifact a) = some r ∧ InputOf g r := by
    intro a
    simp only [ids, List.mem_map, List.mem_filter, Prod.exists, Table.mem_rows, Bool.and_eq_true,
      decide_eq_true_eq, DbKey.artifact.injEq]
    constructor
    · rintro ⟨_, r, ⟨hr, hg, hin⟩, rfl⟩
      exact ⟨r, hr, hin, hg⟩
    · rintro ⟨r, hr, hin, hg⟩
      exact ⟨a, r, ⟨hr, hg, hin⟩, rfl⟩
  have hfetch : ∀ k, fetch (applyAll db ((db.artifacts.rows.filter fun e =>
      e.2.generationId = some g && e.2.direction = .input).map fun e => ⟨artifact e.1, none⟩)) k =
      if k ∈ ids then none else fetch db k := by
    intro k
    have hdel := fetch_applyAll_deletions db ids k
    rwa [List.map_map] at hdel
  refine ⟨fun k hk => (hfetch k).trans (if_neg fun hin => ?_), fun a r hr hin => ?_, fun a hnot => ?_⟩
  · obtain ⟨e, -, he⟩ := List.mem_map.1 hin
    exact hk e.1 he.symm
  · exact (hfetch _).trans (if_pos ((hmem a).2 ⟨r, hr, hin⟩))
  · refine (hfetch _).trans (if_neg fun hin => ?_)
    obtain ⟨r, hr, hof⟩ := (hmem a).1 hin
    exact hnot r hr hof

/-- The answer of a settlement says which Generation it has ended. -/
def EndsBy (ended : α → Uuid → Prop) (p : Body α) : Prop :=
  ∀ db, p.Ensures ⊤ (fun out db' => (lifecycleRel (ended out) .nothing).Of db db' ∧
    ∀ g, ended out g → Over db' g) db

/-- A Generation may be ended. -/
theorem ended_store {db : Db} {g : Uuid} {r r' : GenerationRow}
    (hr : fetch db (generation g) = some r) (hparams : r'.parameters = r.parameters)
    (hends : r'.state.isTerminal) :
    (lifecycleRel (· = g) .nothing).Of db (store db (generation g) (some r')) := by
  intro k
  by_cases hk : k = generation g
  · subst hk
    rw [Database.fetch_store_self, hr]
    exact ⟨r', rfl, hparams, fun _ => hends, fun _ => .inl rfl⟩
  · rw [Db.fetch_store_ne db _ hk]
    exact RowRel.refl _ _ _

/-- A move to an end. -/
theorem transition_endsBy {g : Uuid} {s : GenerationState → Bool} {f : GenerationRow → GenerationRow}
    (hf : ∀ r, (f r).parameters = r.parameters) (hends : ∀ r, (f r).state.isTerminal) :
    EndsBy (fun moved g' => moved = true ∧ g' = g) (exec (Generations.transition g s f)) := by
  intro db
  refine ensures_update (fun r hr _ => ⟨trivial, ?_, ?_⟩) fun _ => ⟨RowRel.of_refl db, nofun⟩
  · exact lifecycleRel_mono (fun g' hg' => ⟨rfl, hg'⟩) (ended_store hr (hf r) (hends r))
  · rintro g' ⟨-, rfl⟩
    exact ⟨f r, Database.fetch_store_self .., hends r⟩

/-- A move to an end that fails only for a Generation that is over. -/
theorem transition_over {g : Uuid} {s : GenerationState → Bool} {f : GenerationRow → GenerationRow}
    {db : Db} {row : GenerationRow} (hrow : fetch db (generation g) = some row)
    (hsource : s row.state = false → row.state.isTerminal)
    (hf : ∀ r, (f r).parameters = r.parameters) (hends : ∀ r, (f r).state.isTerminal) :
    (exec (Generations.transition g s f)).Ensures ⊤
      (fun _ db' => (lifecycleRel (· = g) .nothing).Of db db' ∧ Over db' g) db := by
  refine ensures_update (fun r hr _ => ⟨trivial, ended_store hr (hf r) (hends r), f r,
    Database.fetch_store_self .., hends r⟩) fun hmiss => ⟨RowRel.of_refl db, row, hrow, hsource ?_⟩
  rw [hrow, Option.filter_eq_none_iff] at hmiss
  exact Bool.eq_false_iff.2 fun h => by simpa using hmiss row rfl h

/-- An accepted result ends its Generation. -/
theorem acceptResult_endsBy (id w : Uuid) (now : Time) :
    EndsBy (fun out g => out = .accepted g) (Generations.acceptResult id w now) := by
  intro db
  have hsame : ∀ out : Generations.AcceptOutcome, (∀ g, out ≠ .accepted g) →
      (lifecycleRel (fun g => out = .accepted g) .nothing).Of db db ∧
        ∀ g, out = .accepted g → Over db g := fun out hout =>
    ⟨RowRel.of_refl db, fun g hg => absurd hg (hout g)⟩
  refine ensures_lock (fun lease _ _ => ?_) fun _ => ensures_done (hsame _ (by simp))
  rw [done_bind]
  refine ensures_lock (fun row hrow _ => ?_) fun _ => ensures_done (hsame _ (by simp))
  rw [done_bind]
  dsimp only
  split
  · exact ensures_done (hsame _ (by simp))
  split
  · exact ensures_done (hsame _ (by simp))
  split
  · exact ensures_done (hsame _ (by simp))
  split
  · exact ensures_done (hsame _ (by simp))
  -- the Attempt is settled and its Slot released, and then the Generation ends
  refine ensures_bind (Ensures.mono ((updateAttempt_keeps id _ _).ensures db)
    fun _ db₁ (h₁ : quietRel.Of db db₁) => ?_)
  refine ensures_bind (Ensures.mono ((releaseSlot_keeps lease.poolId).ensures db₁)
    fun _ db₂ (h₂ : quietRel.Of db₁ db₂) => ?_)
  have hquiet : quietRel.Of db db₂ := h₁.trans h₂
  obtain ⟨row₂, hrow₂, -⟩ : Ages False (some row) (fetch db₂ (generation lease.generationId)) :=
    hrow ▸ hquiet (generation lease.generationId)
  have haccept := transition_over (s := fun _ => true) (f := fun r => r.acceptedWith id now) hrow₂
    (by simp) (fun _ => rfl) fun _ => rfl
  refine ensures_bind (Ensures.mono haccept fun _ db₃ h => ensures_done ⟨?_, fun g hg => ?_⟩)
  · exact (lifecycleRel_mono (fun _ => False.elim) hquiet).trans
      (lifecycleRel_mono (fun g (hg : g = _) => by rw [hg]) h.1)
  · cases hg
    exact h.2

/-- An acknowledgement that settles ends its Generation. -/
theorem acknowledgeCancel_endsBy (id w : Uuid) (now : Time) :
    EndsBy (fun out g => out = some g) (Attempts.acknowledgeCancel id w now) := by
  intro db
  refine ensures_lock (fun lock _ _ => ?_) fun _ => ensures_done ⟨RowRel.of_refl db, nofun⟩
  rw [done_bind]
  refine ensures_read ?_
  rw [done_bind]
  split
  · exact ensures_done ⟨RowRel.of_refl db, nofun⟩
  -- the Generation ends where the last statement matches
  have hend : ∀ db₁, quietRel.Of db db₁ →
      (do
        let settled ← Generations.finishCancelled lock.generationId now
        return if settled then some lock.generationId else none : Body (Option Uuid)).Ensures ⊤
          (fun out db' => (lifecycleRel (fun g => out = some g) .nothing).Of db db' ∧
            ∀ g, out = some g → Over db' g) db₁ := by
    intro db₁ h₁
    have hfinish := transition_endsBy (g := lock.generationId) (s := (· = .cancelling))
      (f := fun r => r.terminated .cancelled now) (fun _ => rfl) (fun _ => rfl) db₁
    refine ensures_bind
      (Ensures.mono hfinish fun settled db₂ ⟨h₂, hover⟩ => ensures_done ⟨?_, fun g hg => ?_⟩)
    · refine (lifecycleRel_mono (fun _ => False.elim) h₁).trans (lifecycleRel_mono ?_ h₂)
      rintro g ⟨rfl, rfl⟩
      rfl
    · cases settled with
      | false => cases hg
      | true =>
        cases hg
        exact hover _ ⟨rfl, rfl⟩
  dsimp only
  split
  · refine ensures_write fun p ws hws => ⟨fun _ => trivial, ?_⟩
    have hsettle : quietRel.Of db (applyAll db ws) := by
      refine RowRel.of_applyAll fun v hv => ?_
      split at hws
      · cases hws
        rw [List.mem_singleton.1 hv]
        trivial
      · cases hws
        cases hv
    cases p with
    | none => exact ensures_done ⟨lifecycleRel_mono (fun _ => False.elim) hsettle, nofun⟩
    | some p =>
      rw [done_bind]
      refine ensures_bind (Ensures.mono ((releaseSlot_keeps p).ensures _)
        fun _ db₂ (h₂ : quietRel.Of _ db₂) => ?_)
      exact hend db₂ (hsettle.trans h₂)
  · exact hend db (RowRel.of_refl db)

variable [ManifestHash]

/-- A settlement of an Attempt ends its Generation where the decision is to fail. -/
theorem finishAndDecide_endsBy (id : Uuid) (w : Option Uuid) (target : AttemptState)
    (failure : Attempts.FailureDetails) (now : Time) :
    EndsBy (fun out g => out = some (g, .fail))
      (Attempts.finishAndDecide id w target failure now) := by
  intro db
  refine ensures_read ?_
  rw [done_bind]
  cases ((fetch db (attempt id)).filter (Attempts.liveOf w)).map AttemptRow.generationId with
  | none => exact ensures_done ⟨RowRel.of_refl db, nofun⟩
  | some g =>
    refine ensures_bind (Ensures.mono ((finish_keeps id w target (some failure) now).ensures db)
      fun settled db₁ (h₁ : quietRel.Of db db₁) => ?_)
    have hquiet : ∀ ends : Uuid → Prop, (lifecycleRel ends .nothing).Of db db₁ := fun _ =>
      lifecycleRel_mono (fun _ => False.elim) h₁
    split
    · exact ensures_done ⟨hquiet _, nofun⟩
    refine ensures_tryRead fun row hrow => ?_
    rw [done_bind]
    split at hrow
    · cases hrow
      rename_i hrow
      -- what the end of this Generation adds to what was done before
      have hended : ∀ db₂, (lifecycleRel (· = g) .nothing).Of db₁ db₂ ∧ Over db₂ g →
          (lifecycleRel (fun g' => some (g, RetryDecision.fail) = some (g', .fail)) .nothing).Of
            db db₂ ∧
            ∀ g', some (g, RetryDecision.fail) = some (g', .fail) → Over db₂ g' := by
        rintro db₂ ⟨h₂, hover⟩
        refine ⟨(hquiet _).trans (lifecycleRel_mono (fun g' (hg' : g' = g) => by rw [hg']) h₂),
          fun g' hg' => ?_⟩
        cases hg'
        exact hover
      split
      · rename_i hcancelling
        refine ensures_bind (Ensures.mono (transition_over hrow ?_ (fun _ => rfl) fun _ => rfl)
          fun _ db₂ h₂ => hended db₂ h₂)
        simp [hcancelling]
      refine ensures_read (ensures_read (ensures_read ?_))
      dsimp only [done_bind]
      split <;> rename_i hdecision <;> rw [hdecision]
      · refine ensures_bind (Ensures.mono ((requeue_keeps g).ensures db₁)
          fun _ db₂ (h₂ : quietRel.Of db₁ db₂) => ?_)
        exact ensures_done ⟨(hquiet _).trans (lifecycleRel_mono (fun _ => False.elim) h₂), nofun⟩
      · refine ensures_bind (ensures_require fun _ => Ensures.mono (transition_over hrow ?_
          (fun _ => rfl)
          fun _ => rfl) fun _ db₂ h₂ => hended db₂ h₂)
        cases row.state <;> decide
    · cases hrow

end Settlements

/-! ## Deletions -/

section Deletions

variable {α β : Type} {ended : Uuid → Prop} {db db₁ : Db} {g : Uuid}

/-- What follows the end of the Generations `ended` deletes their inputs. -/
def CleansAfter (ended : Uuid → Prop) (q : Body β) : Prop :=
  ∀ db db₁, InputsOwned db → (lifecycleRel ended .nothing).Of db db₁ → (∀ g, ended g → Over db₁ g) →
    q.Ensures ⊤ (fun _ db' => InputsOwned db' ∧ Settled db db') db₁

/-- Nothing has ended. -/
theorem CleansAfter.none {q : Body β} (hnone : ∀ g, ¬ ended g) (hq : CleansUp q) :
    CleansAfter ended q := by
  intro db db₁ hdb h _
  have hquiet : quietRel.Of db db₁ := lifecycleRel_mono hnone h
  exact Ensures.mono (hq db₁ (hdb.quiet (outputs_of_nothing hquiet)).1) fun _ db₂ ⟨h₂, hs⟩ =>
    ⟨h₂, (Settled.of_lifecycle h).trans hs⟩

/-- One Generation has ended, and its inputs are deleted next. -/
theorem CleansAfter.one {q : Unit → Body β} (hg : ended g) (hone : ∀ g', ended g' → g' = g)
    (hq : ∀ u, CleansUp (q u)) :
    CleansAfter ended ((Artifacts.deleteInputsForGeneration g).bind q) := by
  intro db db₁ hdb h hover
  have hs : (lifecycleRel (· = g) .nothing).Of db db₁ := lifecycleRel_mono hone h
  refine ensures_bind (Ensures.mono (deleteInputs_ensures g db₁) fun u db₂ hd => ?_)
  have hsettled : Settled db db₂ := (Settled.of_lifecycle h).deleted (hover g hg) hd
  exact Ensures.mono (hq u db₂ (hdb.deleted (outputs_of_nothing hs) (hover g hg) hd).1)
    fun _ db₃ ⟨h₃, hs₃⟩ => ⟨h₃, hsettled.trans hs₃⟩

/-- A body that ends Generations, and what deletes their inputs. -/
theorem EndsBy.cleansUp {ended : α → Uuid → Prop} {p : Body α} {f : α → Body β} (hp : EndsBy ended p)
    (hf : ∀ out, CleansAfter (ended out) (f out)) : CleansUp (p.bind f) := fun db hdb =>
  ensures_bind (Ensures.mono (hp db) fun out db₁ ⟨h₁, hover⟩ => hf out db db₁ hdb h₁ hover)

/-- The inputs of a Generation that failed are deleted, and no others. -/
theorem deleteInputsOnFail_cleansAfter (out : Option (Uuid × RetryDecision)) :
    CleansAfter (fun g => out = some (g, .fail)) (deleteInputsOnFail out) := by
  cases out with
  | none => exact .none nofun (.done _)
  | some out =>
    obtain ⟨g, decision⟩ := out
    cases decision with
    | requeue => exact .none nofun (.done _)
    | fail => exact .one (q := Prog.done) rfl (fun g' hg' => by cases hg'; rfl) .done

/-! ## Transactions -/

/-- A Worker that is refused changes nothing. -/
theorem authenticated_cleansUp {w : AuthenticatedWorker} {refused : α} {body : Body (Verdict α)}
    (h : CleansUp body) : CleansUp (authenticated w refused body) := by
  refine .bind (.of_keeps (.bind (keeps_lock _ _) fun _ => keeps_done _)) fun ok => ?_
  split
  · exact .done _
  · exact h

/-- A cancellation that ends its Generation deletes its inputs in the same transaction. -/
theorem cancelGeneration_cleansUp (g : Uuid) (now : Time) : CleansUp (cancelGeneration g now) := by
  -- to request a cancellation ends nothing
  have hrest : CleansUp (cancelRunning g) := by
    rw [cancelRunning, cancelAnswer]
    refine .bind (.of_keeps (requestCancelRunning_keeps g)) fun _ =>
      .bind (.of_keeps (keeps_read _)) fun row => ?_
    split
    · exact .done _
    · exact .done _
  refine EndsBy.cleansUp (transition_endsBy (fun _ => rfl) fun _ => rfl) fun cancelled => ?_
  dsimp only
  split
  · rename_i hcancelled
    exact .one ⟨hcancelled, rfl⟩ (fun g' hg' => hg'.2) fun _ => hrest
  · rename_i hcancelled
    exact .none (fun g' hg' => hcancelled hg'.1) hrest

/-- So does one that is acknowledged. -/
theorem cancelAcknowledged_cleansUp (w : AuthenticatedWorker) (a : Uuid) (now : Time) :
    CleansUp (tryHandleCancelAcknowledged w a now) := by
  refine authenticated_cleansUp
    (EndsBy.cleansUp (acknowledgeCancel_endsBy a w.workerId now) fun out => ?_)
  cases out with
  | none => exact .none nofun (.done _)
  | some g => exact .one rfl (fun g' hg' => by cases hg'; rfl) fun _ => .done _

variable [ManifestHash]

/-- So does a failure, unless the Generation is queued again. -/
theorem settleAttemptFailure_cleansUp (w : AuthenticatedWorker) (a : Uuid)
    (failure : Attempts.FailureDetails) (now : Time) :
    CleansUp (settleAttemptFailure w a failure now) := by
  refine authenticated_cleansUp (EndsBy.cleansUp (finishAndDecide_endsBy _ _ _ _ _) fun out => ?_)
  dsimp only
  split
  · exact .one rfl (fun g' hg' => by cases hg'; rfl) fun _ => .done _
  · rename_i hnot
    exact .none (fun g hg => hnot g hg) (.done _)

theorem expireLeases_cleansUp (now : Time) (skip : Uuid → Bool) :
    CleansUp (expireLeases now skip) := by
  refine .bind (.of_keeps (keeps_lockAll _ _)) fun expired => .bind (.forEach (fun a => ?_) _)
    fun _ => .done _
  exact .bind (.of_keeps (requestCancel_keeps a now)) fun _ =>
    EndsBy.cleansUp (finishAndDecide_endsBy _ _ _ _ _) deleteInputsOnFail_cleansAfter

theorem enforceExecutionDeadlines_cleansUp (now : Time) (skip : Uuid → Bool) :
    CleansUp (enforceExecutionDeadlines now skip) := by
  refine .bind (.of_keeps (keeps_lockAll _ _)) fun overdue => .bind (.forEach (fun a => ?_) _)
    fun _ => .done _
  exact EndsBy.cleansUp (finishAndDecide_endsBy _ _ _ _ _) deleteInputsOnFail_cleansAfter

/-- So does the sweep, for each Generation that it expires. -/
theorem expireStarvedQueue_cleansUp (now : Time) : CleansUp (expireStarvedQueue now) := by
  refine .bind (.of_keeps (keeps_read _)) fun settings => .bind (.of_keeps (keeps_read _))
    fun candidates => ?_
  split
  · exact .done _
  refine .bind (.of_keeps (keeps_read _)) fun capabilities =>
    .bind (.of_keeps (keeps_read _)) fun exclusions =>
    .bind (.forEach (fun candidate => ?_) _) fun _ => .done _
  split
  · refine EndsBy.cleansUp (transition_endsBy (fun _ => rfl) fun _ => rfl) fun expired => ?_
    split
    · rename_i hexpired
      exact .one (q := Prog.done) ⟨hexpired, rfl⟩ (fun g' hg' => hg'.2) .done
    · rename_i hexpired
      exact .none (fun g' hg' => hexpired hg'.1) (.done _)
  · exact .done _

end Deletions

end Gpq
