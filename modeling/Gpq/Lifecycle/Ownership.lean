import Gpq.Lifecycle.Inputs

/-!
# Ownership of inputs

Every operation keeps `InputsOwned`, and what it leaves of the linked inputs is `InputsKept`
(`Op.owned`, one lemma for each kind of operation). Besides the settlements, these are

  * operations that spare linked inputs (`sparingRel`): they change no Generation, and of
    the Artifacts only outputs and unclaimed inputs;
  * admissions, which claim every input of the new Generation or none (`Linked`).
-/

namespace Gpq

open Sql DbKey Prog

/-! ## Operations that spare linked inputs -/

/-- What belongs to the same Generation and Attempt. -/
structure Continues (r r' : ArtifactRow) : Prop where
  direction : r'.direction = r.direction
  generation : r'.generationId = r.generationId
  attempt : r'.attemptId = r.attemptId
  token : r'.deliveryToken = r.deliveryToken

/-- An input that no Generation has claimed. -/
def Unclaimed (r : ArtifactRow) : Prop := r.direction = .input ∧ r.generationId = none

/-- How an Artifact changes that is no secured input of a Generation: it moves, or is new and
    unclaimed. -/
def Loose (o o' : Option ArtifactRow) : Prop :=
  o' = o ∨ (∀ r ∈ o, ∀ g, InputOf g r → ¬ r.Secured) ∧ ∀ r' ∈ o', (∃ r ∈ o, Continues r r') ∨
    Unclaimed r'

theorem Continues.trans {r₁ r₂ r₃ : ArtifactRow} (h : Continues r₁ r₂) (h' : Continues r₂ r₃) :
    Continues r₁ r₃ :=
  ⟨h'.direction.trans h.direction, h'.generation.trans h.generation, h'.attempt.trans h.attempt,
    h'.token.trans h.token⟩

theorem Continues.unclaimed {r r' : ArtifactRow} (h : Continues r r') (hr : Unclaimed r) :
    Unclaimed r' :=
  ⟨h.direction.trans hr.1, h.generation.trans hr.2⟩

/-- What is an input of a Generation was one before. -/
theorem Loose.inputOf {o o' : Option ArtifactRow} {r' : ArtifactRow} {g : Uuid}
    (h : ∀ r' ∈ o', (∃ r ∈ o, Continues r r') ∨ Unclaimed r') (hr' : r' ∈ o') (hin : InputOf g r') :
    ∃ r ∈ o, InputOf g r := by
  rcases h r' hr' with ⟨r, hr, hc⟩ | hun
  · exact ⟨r, hr, hc.direction.symm.trans hin.1, hc.generation.symm.trans hin.2⟩
  · cases hun.2.symm.trans hin.2

/-- How a row may change where linked inputs are spared. -/
def SparingRel : (k : DbKey) → Option (Db.Row k) → Option (Db.Row k) → Prop
  | .generation _, o, o' => o' = o
  | .artifact _, o, o' => Loose o o'
  | _, _, _ => True

/-- The changes of an operation that spares linked inputs. -/
def sparingRel : RowRel Db where
  rel := SparingRel
  refl k o := by
    cases k with
    | generation g => rfl
    | artifact a => exact .inl rfl
    | _ => trivial
  trans k o₁ o₂ o₃ h h' := by
    cases k with
    | generation g => exact Eq.trans h' h
    | artifact a =>
      rcases h with rfl | ⟨hloose, hback⟩
      · exact h'
      refine .inr ⟨hloose, fun r hr => ?_⟩
      rcases h' with rfl | ⟨-, hback'⟩
      · exact hback r hr
      rcases hback' r hr with ⟨r₂, hr₂, hc⟩ | hun
      · rcases hback r₂ hr₂ with ⟨r₁, hr₁, hc'⟩ | hun
        · exact .inl ⟨r₁, hr₁, hc'.trans hc⟩
        · exact .inr (hc.unclaimed hun)
      · exact .inr hun
    | _ => trivial

/-- What spares inputs keeps each with its Generation. -/
theorem InputsOwned.spared {db db' : Db} (h : InputsOwned db) (hs : sparingRel.Of db db') :
    InputsOwned db' ∧ InputsKept db db' := by
  have hgen : ∀ g, fetch db' (generation g) = fetch db (generation g) := fun g => hs (generation g)
  have hlive : ∀ {g}, Live db g →
      Live db' g := fun ⟨row, hrow, hterm⟩ => ⟨row, (hgen _).trans hrow, hterm⟩
  -- an input with an owner was secured, and is not loose
  have hkept : ∀ a r g, fetch db (artifact a) = some r → InputOf g r →
      fetch db' (artifact a) = some r := by
    intro a r g hr hin
    rcases hs (artifact a) with he | ⟨hloose, -⟩
    · exact he.trans hr
    · exact absurd (h.linked a r g hr hin).2 (hloose r hr g hin)
  refine ⟨⟨fun a r g hr hin => ?_, fun g row hrow hterm a ha => ?_⟩, fun a r g hr hin => .inl ?_⟩
  · have hr₀ : fetch db (artifact a) = some r := by
      rcases hs (artifact a) with he | ⟨hloose, hback⟩
      · exact he.symm.trans hr
      · obtain ⟨r₀, hr₀, hin₀⟩ := Loose.inputOf hback hr hin
        exact absurd (h.linked a r₀ g hr₀ hin₀).2 (hloose r₀ hr₀ g hin₀)
    obtain ⟨hl, hsecured⟩ := h.linked a r g hr₀ hin
    exact ⟨hlive hl, hsecured⟩
  · obtain ⟨r, hr, hin⟩ := h.staged g row ((hgen g).symm.trans hrow) hterm a ha
    exact ⟨r, hkept a r g hr hin, hin⟩
  · exact ⟨hkept a r g hr hin, hlive (h.linked a r g hr hin).1⟩

/-! ## Other tables -/

/-- Whether a table describes a Tenant's installation: its settings, Workers, Pools and models. -/
def IsCatalogue : DbKey → Bool
  | .tenant | .worker _ | .modelVersion _ | .modelAlias _ | .devicePool _ | .rejection _ _ => true
  | _ => false

/-- Nothing is asked of the rows that describe the installation, and Attempts may go with
    their Pool. -/
structure Catalogued (R : RowRel Db) : Prop where
  row : ∀ k o o', IsCatalogue k → R.rel k o o'
  cascade : ∀ a o, R.rel (attempt a) o none

/-- What is said of inputs is said of Artifacts and Generations only. -/
theorem sparingRel_catalogued : Catalogued sparingRel where
  row k _ _ hk := by
    cases k with
    | generation | artifact => cases hk
    | _ => trivial
  cascade _ _ := trivial

section Elsewhere

variable {α : Type} {R : RowRel Db}

theorem committed_keeps {p : Body α} (h : p.Keeps R) : (committed p).Keeps R :=
  .bind h fun _ => keeps_done _

variable (hR : Catalogued R)
include hR

/-- Writes to the tables of a Tenant's installation. -/
theorem elsewhere_write {f : Db → Except DbError (α × List (Write Db))}
    (h : ∀ db b ws, f db = .ok (b, ws) → ∀ w ∈ ws, IsCatalogue w.1) :
    (exec (.write f)).Keeps R := keeps_write fun db b ws hws w hw => hR.row _ _ _ (h db b ws hws w hw)

theorem deleteTenant_keeps (now : Time) : (deleteTenant now).Keeps R := by
  have hupdate : (exec (@Stmt.update Db _ tenant (fun r => r.deletedAt.isNone) fun r =>
      { r with deletedAt := some now })).Keeps R := keeps_update fun _ _ => hR.row _ _ _ rfl
  exact hupdate.bind fun _ => keeps_done _

theorem updateSettings_keeps (settings : TenantSettings) :
    (updateSettings settings).Keeps R := by
  have hupdate : (exec (@Stmt.update Db _ tenant (fun _ => true) fun r => { r with settings })).Keeps
      R := keeps_update fun _ _ => hR.row _ _ _ rfl
  exact (hupdate.require _ _).require _ _

theorem revokeWorker_keeps (id : Uuid) (now : Time) : (Workers.revokeWorker id now).Keeps R := by
  have hupdate : (exec (@Stmt.update Db _ (worker id) (fun r => r.revokedAt.isNone) fun r =>
      { r with revokedAt := some now })).Keeps R := keeps_update fun _ _ => hR.row _ _ _ rfl
  exact hupdate

theorem setModelAlias_keeps (aliasName : String) (version : ContentHash) :
    (Catalog.setModelAlias aliasName version).Keeps R := by
  refine .bind (keeps_read _) fun known => ?_
  split
  · exact keeps_done _
  refine .bind (.require (elsewhere_write hR fun db b ws hws w hw => ?_) _ _) fun _ => keeps_done _
  cases hws
  rw [List.mem_singleton.1 hw]
  rfl

theorem deleteModelAlias_keeps (aliasName : String) :
    (Catalog.deleteModelAlias aliasName).Keeps R := by
  refine .bind (.require (elsewhere_write hR fun db b ws hws w hw => ?_) _ _) fun _ => keeps_done _
  split at hws
  · cases hws
    rw [List.mem_singleton.1 hw]
    rfl
  · cases hws
    cases hw

/-- To enroll a Worker writes its row only. -/
theorem enroll_keeps (id : Uuid) (name : String) (credentialHash : Bytes) :
    (Workers.enroll id name credentialHash).Keeps R := by
  refine .require (elsewhere_write hR fun db b ws hws w hw => ?_) _ _
  have hw : ∃ id, w.1 = worker id := by
    split at hws
    · split at hws
      · cases hws
      · cases hws
        rw [List.mem_singleton.1 hw]
        exact ⟨_, rfl⟩
    · split at hws
      · cases hws
      · cases hws
        rw [List.mem_singleton.1 hw]
        exact ⟨_, rfl⟩
  obtain ⟨id, hid⟩ := hw
  rw [hid]
  rfl

/-- Pools are deleted with their Attempts, and written. -/
theorem upsertPools_keeps (w : Uuid) (pools : List (Uuid × Workers.PoolUpsert)) :
    (Workers.upsertPools w pools).Keeps R := by
  refine .bind (.require (keeps_write fun db b ws hws v hv => ?_) _ _) fun _ =>
    .bind (.forEach (fun p => .require (elsewhere_write hR fun db b ws hws v hv => ?_) _ _) pools)
      fun _ => keeps_done _
  · dsimp only at hws
    split at hws
    · cases hws
    cases hws
    simp only [List.mem_append, List.mem_map] at hv
    rcases hv with (⟨_, -, rfl⟩ | ⟨_, -, rfl⟩) | ⟨_, -, rfl⟩
    · exact hR.row _ _ _ rfl
    · exact hR.cascade _ _
    · exact hR.row _ _ _ rfl
  · -- the Pool that is written
    obtain ⟨q, r, rfl⟩ : ∃ (q : Uuid) (r : DevicePoolRow), ws = [⟨devicePool q, some r⟩] := by
      simp only [Bind.bind, Except.bind, Pure.pure, Except.pure, throw, throwThe,
        MonadExceptOf.throw] at hws
      repeat' split at hws
      all_goals cases hws
      all_goals exact ⟨_, _, rfl⟩
    rw [List.mem_singleton.1 hv]
    rfl

variable [ManifestHash]

/-- A capability report writes models and Pools. -/
theorem capabilityReport_keeps (w : AuthenticatedWorker) (pools : List (Uuid × PoolAdvertisement)) :
    (tryHandleCapabilityReport w pools).Keeps R := by
  refine .bind (.bind (keeps_lock _ _) fun _ => keeps_done _) fun ok => ?_
  split
  · exact keeps_done _
  refine .bind (.bind (.forEach (fun v => elsewhere_write hR fun db b ws hws x hx => ?_) _) fun _ =>
    keeps_done _) fun _ => .bind (upsertPools_keeps hR _ _) fun _ => keeps_done _
  split at hws
  · cases hws
    cases hx
  · cases hws
    rw [List.mem_singleton.1 hx]
    rfl

end Elsewhere

section Sparing

variable {α : Type}

/-- An update of an Artifact that is no secured input. -/
theorem sparing_update {a : Uuid} {guard : ArtifactRow → Bool} {f : ArtifactRow → ArtifactRow}
    (hguard : ∀ r g, guard r → InputOf g r → ¬ r.Secured) (hf : ∀ r, Continues r (f r)) :
    (exec (updateArtifact a guard f)).Keeps sparingRel := by
  refine keeps_update fun r hr => .inr ⟨fun r' hr' g hin => ?_, fun r' hr' => ?_⟩
  · cases hr'
    exact hguard r g hr hin
  · cases hr'
    exact .inl ⟨r, rfl, hf r⟩

/-- What was claimed has no expiry, so it does not expire. -/
theorem expireArtifacts_keeps (now : Time) : (expireArtifacts now).Keeps sparingRel := by
  refine .bind (keeps_write fun db b ws hws w hw => ?_) fun _ => keeps_done _
  cases hws
  obtain ⟨⟨a, r⟩, he, rfl⟩ := List.mem_map.1 hw
  obtain ⟨hr, hdue⟩ := List.mem_filter.1 he
  have hr : fetch db (artifact a) = some r := Table.mem_rows.1 hr
  refine .inr ⟨fun r' hr' g hin hsecured => ?_, fun r' hr' => ?_⟩
  · obtain rfl : r' = r := Option.some_inj.1 (hr'.symm.trans hr)
    simp [hsecured.no_expiry] at hdue
  · cases hr'
    exact .inl ⟨r, hr, rfl, rfl, rfl, rfl⟩

/-- An input that is created belongs to nobody yet. -/
theorem createInput_keeps (id : Uuid) (manifest : ArtifactManifest) (placement : ArtifactPlacement)
    (objectKey : Option String) (now : Time) :
    (Artifacts.createInput id manifest placement objectKey now).Keeps sparingRel := by
  refine keeps_write fun db b ws hws w hw => ?_
  obtain ⟨r, rfl, hnew, hrow⟩ := Artifacts.insertion_eq_ok hws
  rw [List.mem_singleton.1 hw]
  have hun : Unclaimed r := by
    unfold Artifacts.inputRow at hrow
    split at hrow
    · cases hrow
    split at hrow
    · cases hrow
    split at hrow
    · cases hrow
      exact ⟨rfl, rfl⟩
    · cases hrow
  refine .inr ⟨fun r' hr' => ?_, fun r' hr' => .inr ?_⟩
  · cases hnew.symm.trans hr'
  · cases hr'
    exact hun

/-- Content is only stored for an input with an expiry, which is not claimed. -/
theorem setRemoteLocalContent_keeps (id : Uuid) (bytes : Bytes) (now clock : Time) :
    (Artifacts.setRemoteLocalContent id bytes now clock).Keeps sparingRel := by
  refine .bind (sparing_update (fun r g hr _ hsecured => ?_) fun _ => ⟨rfl, rfl, rfl, rfl⟩)
    fun stored => .bind (keeps_read _) fun row => ?_
  · simp [hsecured.no_expiry] at hr
  · cases stored <;> cases row <;> exact keeps_done _

theorem beginDelivery_keeps (id : Uuid) (clock : Time) :
    (Artifacts.beginDelivery id clock).Keeps sparingRel := by
  refine sparing_update (fun r g hr _ hsecured => ?_) fun _ => ⟨rfl, rfl, rfl, rfl⟩
  simp [hsecured.no_expiry] at hr

/-- An offset is only persisted for a delivering output. -/
theorem commitOffset_keeps (id : Uuid) (offset : UInt64) :
    (Artifacts.commitOffset id offset).Keeps sparingRel := by
  have hupdate : (exec (updateArtifact id
      (fun r => r.state = .delivering && r.committedOffset < offset.toNat) fun r =>
        { r with committedOffset := offset.toNat })).Keeps sparingRel := by
    refine sparing_update (fun r g hr _ hsecured => ?_) fun _ => ⟨rfl, rfl, rfl, rfl⟩
    rcases hsecured.state with h | h
    · simp [h] at hr
    · simp [h] at hr
  exact hupdate.require _ _

/-- An output moves along its state machine. -/
theorem setState_ensures {db : Db} {id : Uuid} (target : ArtifactState) (now : Time)
    (hout : ∀ r, fetch db (artifact id) = some r → r.direction = .output) :
    (Artifacts.setState id target now).Ensures ⊤ (fun _ db' => sparingRel.Of db db') db := by
  refine ensures_read ?_
  rw [done_bind]
  split
  · rename_i row hrow
    split
    · exact ensures_done (RowRel.of_refl db)
    refine ensures_update (fun r hr _ => ⟨trivial, ?_⟩) fun _ => ensures_done (RowRel.of_refl db)
    have hdir := hout r hr
    have hrel : ∀ r' : ArtifactRow, Continues r r' →
        sparingRel.Of db (store db (artifact id) (some r')) := by
      intro r' hc k
      by_cases hk : k = artifact id
      · subst hk
        rw [Database.fetch_store_self, hr]
        refine .inr ⟨fun r₁ hr₁ g hin => ?_, fun r₁ hr₁ => .inl ⟨r, rfl, ?_⟩⟩
        · cases hr₁
          cases hdir.symm.trans hin.1
        · cases hr₁
          exact hc
      · rw [Db.fetch_store_ne db _ hk]
        exact RowRel.refl _ _ _
    refine ensures_read ?_
    rw [done_bind]
    split
    · exact ensures_done (hrel _ ⟨rfl, rfl, rfl, rfl⟩)
    · exact ensures_done (hrel _ ⟨rfl, rfl, rfl, rfl⟩)
  · exact ensures_done (RowRel.of_refl db)

end Sparing

/-! ## Admissions -/

section Admissions

/-- An Artifact that a Generation has claimed. -/
def ArtifactRow.claimed (r : ArtifactRow) (id : Uuid) : ArtifactRow :=
  { r with generationId := some id, expiresAt := none }

/-- An input that is claimed is secured, with its content. -/
theorem ArtifactRow.secured_claimed {r : ArtifactRow} {clock : Time} (id : Uuid)
    (h : Artifacts.claimable r clock) : InputOf id (r.claimed id) ∧ (r.claimed id).Secured := by
  simp only [Artifacts.claimable, Bool.and_eq_true, decide_eq_true_eq] at h
  obtain ⟨⟨⟨hin, -⟩, -⟩, hplacement⟩ := h
  -- its state by its placement, and its content where the Remote has it
  refine ⟨⟨hin, rfl⟩, rfl, ?_, fun hlocal => ?_⟩
  · cases hp : r.placement <;> simp only [hp, Bool.and_eq_true, decide_eq_true_eq] at hplacement
    · exact .inl hplacement
    · exact .inr hplacement
    · exact .inr hplacement.1
  · have hp : r.placement = .remoteLocal := hlocal
    simp only [hp, Bool.and_eq_true] at hplacement
    exact hplacement.2

/-- The Generation has claimed the Artifacts, all of which were unclaimed; no other Artifact
    has changed, and no Generation. -/
structure Linked (id : Uuid) (ids : List Uuid) (clock : Time) (db db' : Db) : Prop where
  generations : ∀ g, fetch db' (generation g) = fetch db (generation g)
  others : ∀ a, a ∉ ids → fetch db' (artifact a) = fetch db (artifact a)
  claimed : ∀ a ∈ ids, ∃ r, fetch db (artifact a) = some r ∧ Artifacts.claimable r clock ∧
    fetch db' (artifact a) = some (r.claimed id)

/-- Idempotency keys may be written besides. -/
theorem Linked.writes {id : Uuid} {ids : List Uuid} {clock : Time} {db db' : Db}
    (h : Linked id ids clock db db') {ws : List (Write Db)}
    (hws : ∀ w ∈ ws, ∃ key, w.1 = idempotencyKey key) :
    Linked id ids clock db (applyAll db' ws) := by
  have hsame : ∀ k, (∀ key, k ≠ idempotencyKey key) → fetch (applyAll db' ws) k = fetch db' k := by
    intro k hk
    refine fetch_applyAll_of_notMem db' fun w hw he => ?_
    obtain ⟨key, hkey⟩ := hws w hw
    exact hk key (he.symm.trans hkey)
  refine ⟨fun g => ?_, fun a ha => ?_, fun a ha => ?_⟩
  · exact (hsame (generation g) fun _ => nofun).trans (h.generations g)
  · exact (hsame (artifact a) fun _ => nofun).trans (h.others a ha)
  · rw [hsame (artifact a) fun _ => nofun]
    exact h.claimed a ha

/-- The statement that claims the inputs claims all of them where it says so. -/
theorem linkInputArtifacts_ensures (id : Uuid) (ids : List Uuid) (clock : Time) (db : Db) :
    (Artifacts.linkInputArtifacts id ids clock).Ensures ⊤
      (fun linked db' => linked = ids.length → Linked id ids clock db db') db := by
  refine ensures_write fun linked ws hws => ⟨fun _ => trivial, fun hlinked => ?_⟩
  cases hws
  let rows := db.artifacts.rows.filter fun e => e.1 ∈ ids && Artifacts.claimable e.2 clock
  have hmem : ∀ a r, (a, r) ∈ rows ↔ fetch db (artifact a) = some r ∧ a ∈ ids ∧
      Artifacts.claimable r clock := by
    intro a r
    simp only [rows, List.mem_filter, Table.mem_rows, Bool.and_eq_true, decide_eq_true_eq]
    rfl
  -- as many as are named, and all different: none is left out
  have hperm : (rows.map Prod.fst).Perm ids := by
    have hnodup : (rows.map Prod.fst).Nodup :=
      db.artifacts.rows_nodup_keys.sublist (List.filter_sublist.map _)
    have hsub : rows.map Prod.fst ⊆ ids := by
      intro a ha
      obtain ⟨⟨b, r⟩, hb, rfl⟩ := List.mem_map.1 ha
      exact ((hmem b r).1 hb).2.1
    refine (List.subperm_of_subset hnodup hsub).perm_of_length_le ?_
    rw [List.length_map, hlinked]
  refine ⟨fun g => fetch_applyAll_of_notMem db fun w hw he => ?_,
    fun a ha => fetch_applyAll_of_notMem db fun w hw he => ?_, fun a ha => ?_⟩
  · obtain ⟨e, -, rfl⟩ := List.mem_map.1 hw
    cases he
  · obtain ⟨⟨b, r⟩, hb, rfl⟩ := List.mem_map.1 hw
    obtain rfl : b = a := DbKey.artifact.inj he
    exact ha ((hmem b r).1 hb).2.1
  · obtain ⟨⟨b, r⟩, hb, rfl⟩ := List.mem_map.1 (hperm.mem_iff.2 ha)
    obtain ⟨hr, -, hclaim⟩ := (hmem b r).1 hb
    refine ⟨r, hr, hclaim, ?_⟩
    refine fetch_applyAll_of_unique db (List.mem_map.2 ⟨(b, r), hb, rfl⟩) fun r' hr' => ?_
    obtain ⟨⟨b', r₁⟩, hb', heq⟩ := List.mem_map.1 hr'
    obtain ⟨hkey, hrow⟩ := Sigma.mk.inj heq
    obtain rfl : b' = b := DbKey.artifact.inj hkey
    obtain rfl : r₁ = r := Option.some_inj.1 (((hmem b' r₁).1 hb').1.symm.trans hr)
    exact (eq_of_heq hrow).symm

/-- The new Generation, with the inputs that it has claimed. -/
theorem InputsOwned.admitted {db db' : Db} {id : Uuid} {row : GenerationRow} {clock : Time}
    (h : InputsOwned db) (hnew : fetch db (generation id) = none) (hqueued : row.state = .queued)
    (hlink : Linked id row.parameters.stagingArtifactIds clock
      (store db (generation id) (some row)) db') :
    InputsOwned db' ∧ InputsKept db db' := by
  have hart : ∀ a, fetch (store db (generation id) (some row)) (artifact a) = fetch db (artifact a) :=
    fun a => Db.fetch_store_ne db _ (by exact nofun)
  have hgen : ∀ g, g ≠ id → fetch db' (generation g) = fetch db (generation g) := fun g hg =>
    (hlink.generations g).trans (Db.fetch_store_ne db _ fun he => hg (generation.inj he))
  have hself : fetch db' (generation id) = some row :=
    (hlink.generations id).trans (Database.fetch_store_self ..)
  have hlive : ∀ {g}, Live db g → Live db' g := by
    rintro g ⟨row', hrow', hterm⟩
    refine ⟨row', (hgen g ?_).trans hrow', hterm⟩
    rintro rfl
    cases hnew.symm.trans hrow'
  have hselfLive : Live db' id := ⟨row, hself, by rw [hqueued]; decide⟩
  -- what was linked is not claimed again
  have hkept : ∀ a r g, fetch db (artifact a) = some r → InputOf g r →
      fetch db' (artifact a) = some r := by
    intro a r g hr hin
    rw [hlink.others a fun hmem => ?_, hart, hr]
    obtain ⟨r', hr', hclaim, -⟩ := hlink.claimed a hmem
    obtain rfl : r' = r := Option.some_inj.1 (((hart a).symm.trans hr').symm.trans hr)
    simp [Artifacts.claimable, hin.2] at hclaim
  refine ⟨⟨fun a r g hr hin => ?_, fun g row' hrow' hterm a ha => ?_⟩, fun a r g hr hin => .inl ?_⟩
  · by_cases ha : a ∈ row.parameters.stagingArtifactIds
    · obtain ⟨r₀, -, hclaim, hr₀⟩ := hlink.claimed a ha
      obtain rfl : r₀.claimed id = r := Option.some_inj.1 (hr₀.symm.trans hr)
      obtain rfl : id = g := Option.some_inj.1 hin.2
      exact ⟨hselfLive, (ArtifactRow.secured_claimed id hclaim).2⟩
    · have hr₀ : fetch db (artifact a) = some r := by
        rw [← hart a, ← hlink.others a ha, hr]
      obtain ⟨hl, hsecured⟩ := h.linked a r g hr₀ hin
      exact ⟨hlive hl, hsecured⟩
  · by_cases hg : g = id
    · subst hg
      obtain rfl : row' = row := Option.some_inj.1 (hrow'.symm.trans hself)
      obtain ⟨r, -, hclaim, hr⟩ := hlink.claimed a ha
      exact ⟨_, hr, (ArtifactRow.secured_claimed g hclaim).1⟩
    · obtain ⟨r, hr, hin⟩ := h.staged g row' ((hgen g hg).symm.trans hrow') hterm a ha
      exact ⟨r, hkept a r g hr hin, hin⟩
  · exact ⟨hkept a r g hr hin, hlive (h.linked a r g hr hin).1⟩

/-- The new Generation is there, and has claimed its inputs. -/
def Claims (id : Uuid) (db db' : Db) : Prop :=
  ∃ (row : GenerationRow) (clock : Time), fetch db (generation id) = none ∧ row.state = .queued ∧
    Linked id row.parameters.stagingArtifactIds clock (store db (generation id) (some row)) db'

/-- An admission links the inputs of its parameters to the new Generation, or is dropped. -/
theorem admitNew_linked {request : AdmissionRequest} {new : NewGeneration} (clock : Time) {db : Db}
    (hparams : new.parameters = request.parameters) : (admitNew request new clock).Ensures ⊤
      (fun v db' => ∀ a, v = .commit a → (∃ g, a = .ok g) ∧ ∃ row : GenerationRow,
        fetch db (generation new.id) = none ∧ row.state = .queued ∧
        row.parameters = request.parameters ∧
        Linked new.id row.parameters.stagingArtifactIds clock
          (store db (generation new.id) (some row)) db') db := by
  refine ensures_bind (ensures_require fun _ => ensures_write fun _ ws hws => ⟨fun _ => trivial, ?_⟩)
  obtain ⟨hnew, row, rfl, hqueued, -, -, -, hrow⟩ := Generations.insertion_eq_ok hws
  rw [hparams] at hrow
  have hrest : ∀ (linked : ℕ) db₁, (linked = request.parameters.stagingArtifactIds.length →
      Linked new.id request.parameters.stagingArtifactIds clock
        (store db (generation new.id) (some row)) db₁) →
      Ensures ⊤ (admitLinked request new linked) (fun v db' =>
        ∀ a, v = .commit a → (∃ g, a = .ok g) ∧ ∃ row : GenerationRow,
          fetch db (generation new.id) = none ∧ row.state = .queued ∧
          row.parameters = request.parameters ∧
          Linked new.id row.parameters.stagingArtifactIds clock
            (store db (generation new.id) (some row)) db') db₁ := by
    intro linked db₁ hlink
    rw [admitLinked]
    split
    · exact ensures_done (by simp)
    rename_i hlinked
    have hlink := hlink (not_not.1 hlinked)
    rw [← hrow] at hlink
    dsimp only
    split
    · refine ensures_bind
        (ensures_require fun _ => ensures_write fun _ ws hws => ⟨fun _ => trivial, ?_⟩)
      refine ensures_done fun a ha => ⟨?_, row, hnew, hqueued, hrow,
        hlink.writes fun w hw => ?_⟩
      · cases ha
        exact ⟨_, rfl⟩
      split at hws
      · cases hws
      · cases hws
        exact ⟨_, congrArg Sigma.fst (List.mem_singleton.1 hw)⟩
    · refine ensures_done fun a ha => ⟨?_, row, hnew, hqueued, hrow, hlink⟩
      cases ha
      exact ⟨_, rfl⟩
  dsimp only
  split
  · rename_i hempty
    refine hrest 0 _ fun _ => ?_
    rw [List.isEmpty_iff.1 hempty]
    exact ⟨fun _ => rfl, fun _ _ => rfl, by simp⟩
  · exact ensures_bind (Ensures.mono (linkInputArtifacts_ensures _ _ _ _) hrest)

/-- An admission claims all inputs, or is dropped. -/
theorem admitNew_claims {request : AdmissionRequest} {new : NewGeneration} (clock : Time) {db : Db}
    (hparams : new.parameters = request.parameters) : (admitNew request new clock).Ensures ⊤
      (fun v db' => ∀ a, v = .commit a → (∃ g, a = .ok g) ∧ Claims new.id db db') db :=
  Ensures.mono (admitNew_linked clock hparams) fun _ _ h a ha => by
    obtain ⟨hreply, row, hnew, hqueued, -, hlink⟩ := h a ha
    exact ⟨hreply, row, clock, hnew, hqueued, hlink⟩

/-- At first there are no inputs. -/
theorem InputsOwned.initial (tenantId : Uuid) : InputsOwned (.initial tenantId) := by
  have hempty : (∀ a, fetch (Db.initial tenantId) (artifact a) = none) ∧
      ∀ g, fetch (Db.initial tenantId) (generation g) = none := ⟨fun _ => rfl, fun _ => rfl⟩
  refine ⟨fun a r g hr => ?_, fun g row hrow => ?_⟩
  · cases (hempty.1 a).symm.trans hr
  · cases (hempty.2 g).symm.trans hrow

theorem InputsOwned.kept_self {db : Db} (h : InputsOwned db) : InputsKept db db :=
  fun a r g hr hin => .inl ⟨hr, (h.linked a r g hr hin).1⟩

/-- An admission that commits has claimed all inputs of its Generation. -/
theorem admitFresh_claims (request : AdmissionRequest) (id : Uuid) (uploaded : Uuid → Bool)
    (now clock : Time) (db : Db) : (admitFresh request id uploaded now clock).Ensures ⊤
      (fun v db' => ∀ a, v = .commit a → (∃ g, a = .ok g) ∧ Claims id db db') db := by
  refine ensures_read ?_
  rw [done_bind]
  split
  · refine ensures_read ?_
    rw [done_bind]
    split
    · exact ensures_done nofun
    refine ensures_require fun _ => ensures_read ?_
    rw [done_bind]
    split
    · split
      · exact ensures_done nofun
      refine ensures_bind (Ensures.mono (checkInputs_ensures _ _ _ db) fun inputs db' hdb' => ?_)
      subst hdb'
      split
      · exact ensures_done nofun
      · exact ensures_done nofun
      · exact admitNew_claims clock rfl
    · exact ensures_done nofun
  · exact ensures_done nofun

/-- An admission that commits claims its inputs, or changes nothing. -/
theorem admitGeneration_claims (request : AdmissionRequest) (id : Uuid) (available : Bool)
    (uploaded : Uuid → Bool) (now clock : Time) (db : Db) :
    (admitGeneration request id available uploaded now clock).Ensures ⊤
      (fun v db' => ∀ a, v = .commit a → (∃ g, a = .ok g) ∧ (db' = db ∨ Claims id db db')) db := by
  have hfresh : (admitFresh request id uploaded now clock).Ensures ⊤
      (fun v db' => ∀ a, v = .commit a → (∃ g, a = .ok g) ∧ (db' = db ∨ Claims id db db')) db :=
    Ensures.mono (admitFresh_claims request id uploaded now clock db) fun _ _ h a ha =>
      (h a ha).imp_right .inr
  unfold admitGeneration
  split
  · exact ensures_done nofun
  split
  · exact ensures_done nofun
  split
  · exact hfresh
  rename_i key digest _
  refine ensures_bind (Ensures.mono (replayIdempotent_ensures key digest db) ?_)
  rintro r db' ⟨rfl, -⟩
  cases r with
  | error e => exact ensures_done nofun
  | ok replayed =>
    cases replayed with
    | none => exact hfresh
    | some existing =>
      refine ensures_done fun a ha => ⟨?_, .inl rfl⟩
      cases ha
      exact ⟨existing, rfl⟩

end Admissions

/-! ## All operations -/

/-- Whether the operation spares inputs: the Remote sets the state of an Artifact by itself only
    for a download, and what is not an output is not found there. -/
def Op.sparesInputs : Op → Db → Prop
  | setArtifactState id _ _, db => ∀ r, fetch db (artifact id) = some r → r.direction = .output
  | _, _ => True

section Operations

variable {α : Type} {db : Db}

/-- What a transaction that commits leaves. -/
theorem owned_of_ensures {p : Body (Verdict α)} (h : InputsOwned db)
    (hp : p.Ensures ⊤ (fun v db' => ∀ a, v = .commit a → InputsOwned db' ∧ InputsKept db db') db) :
    InputsOwned (p.commit db) ∧ InputsKept db (p.commit db) := hp.commit ⟨h, h.kept_self⟩

theorem owned_of_spares {p : Body (Verdict α)} (h : InputsOwned db) (hp : p.Keeps sparingRel) :
    InputsOwned (p.commit db) ∧ InputsKept db (p.commit db) :=
  owned_of_ensures h (Ensures.mono (hp.ensures db) fun _ _ hs _ _ => h.spared hs)

theorem owned_of_quiet {p : Body (Verdict α)} (h : InputsOwned db) (hp : p.Keeps quietRel) :
    InputsOwned (p.commit db) ∧ InputsKept db (p.commit db) :=
  owned_of_ensures h (Ensures.mono (hp.ensures db) fun _ _ hs _ _ => h.quiet (outputs_of_nothing hs))

theorem owned_of_cleansUp {p : Body (Verdict α)} (h : InputsOwned db) (hp : CleansUp p) :
    InputsOwned (p.commit db) ∧ InputsKept db (p.commit db) :=
  owned_of_ensures h (Ensures.mono (hp db h) fun _ _ ⟨h', hs⟩ _ _ => ⟨h', hs.kept h'⟩)

variable [ManifestHash]

/-- An accepted result deletes the inputs after it has recorded the outputs. -/
theorem attemptResult_owned (w : AuthenticatedWorker) (a : Uuid) (outputs : List AttemptOutput)
    (now : Time) (h : InputsOwned db) : (tryHandleAttemptResult w a outputs now).Ensures ⊤
      (fun v db' => ∀ r, v = .commit r → InputsOwned db' ∧ InputsKept db db') db := by
  refine ensures_tryRead fun loaded _ => ?_
  rw [done_bind]
  dsimp only
  split
  · refine ensures_bind
      (Ensures.mono (settleAttemptFailure_cleansUp w a _ now db h) fun v db' ⟨h', hs⟩ => ?_)
    split
    · exact ensures_done fun _ _ => ⟨h', hs.kept h'⟩
    · exact ensures_done nofun
  refine authenticated_ensures nofun fun _ => ensures_bind
    (Ensures.mono (acceptResult_endsBy a w.workerId now db) fun out db₁ ⟨h₁, hover⟩ => ?_)
  have hnone : (∀ g, out ≠ .accepted g) → InputsOwned db₁ ∧ InputsKept db db₁ := fun hout =>
    h.quiet (outputs_of_nothing (lifecycleRel_mono (fun g hg => hout g hg) h₁))
  cases out with
  | accepted g =>
    have hover : Over db₁ g := hover g rfl
    have hended : (lifecycleRel (· = g) .outputs).Of db db₁ :=
      outputs_of_nothing (lifecycleRel_mono (fun g' hg' => by cases hg'; rfl) h₁)
    refine ensures_bind (Ensures.mono ((Keeps.forEach (fun output => @recordReportedOutput_keeps
      (fun _ => False) .outputs Touch.outputs_recordsOutputs loaded.1 w.workerId a g output now)
      outputs).ensures db₁) fun recorded db₂ h₂ => ?_)
    split
    · exact ensures_done nofun
    refine ensures_bind
      (Ensures.mono (deleteInputs_ensures g db₂) fun _ db₃ hd => ensures_done fun _ _ => ?_)
    exact h.deleted (hended.trans (lifecycleRel_mono (fun _ => False.elim) h₂))
      (over_of_ages h₂ hover) hd
  | acceptedReplay => exact ensures_done fun _ _ => hnone nofun
  | staleLease => exact ensures_done fun _ _ => hnone nofun
  | alreadyAccepted => exact ensures_done fun _ _ => hnone nofun
  | terminal => exact ensures_done fun _ _ => hnone nofun

/-- Every operation keeps the inputs owned. -/
theorem Op.owned (op : Op) (hop : op.sparesInputs db) (h : InputsOwned db) :
    InputsOwned (op.apply db) ∧ InputsKept db (op.apply db) := by
  cases op with
  | deleteTenant now =>
    exact owned_of_spares h (deleteTenant_keeps sparingRel_catalogued now)
  | updateSettings settings =>
    exact owned_of_spares h (committed_keeps (updateSettings_keeps sparingRel_catalogued settings))
  | enroll id name credentialHash =>
    exact owned_of_spares h (committed_keeps (enroll_keeps sparingRel_catalogued ..))
  | revokeWorker id now =>
    exact owned_of_spares h (committed_keeps (revokeWorker_keeps sparingRel_catalogued id now))
  | setModelAlias aliasName version =>
    exact owned_of_spares h (setModelAlias_keeps sparingRel_catalogued ..)
  | deleteModelAlias aliasName =>
    exact owned_of_spares h (deleteModelAlias_keeps sparingRel_catalogued ..)
  | createInput id manifest placement objectKey now =>
    exact owned_of_spares h (committed_keeps (createInput_keeps ..))
  | setRemoteLocalContent id bytes now clock =>
    exact owned_of_spares h (committed_keeps (setRemoteLocalContent_keeps ..))
  | beginDelivery id clock => exact owned_of_spares h (committed_keeps (beginDelivery_keeps ..))
  | commitOffset id offset => exact owned_of_spares h (committed_keeps (commitOffset_keeps ..))
  | setArtifactState id target now =>
    exact owned_of_ensures h (ensures_bind (Ensures.mono (setState_ensures target now hop)
      fun _ _ hs => ensures_done fun _ _ => h.spared hs))
  | submit request id available uploaded now clock =>
    refine owned_of_ensures h (Ensures.mono
      (admitGeneration_claims request id available uploaded now clock db)
      fun _ db' hv a ha => ?_)
    obtain ⟨-, rfl | ⟨row, clock, hnew, hqueued, hlink⟩⟩ := hv a ha
    · exact ⟨h, h.kept_self⟩
    · exact h.admitted hnew hqueued hlink
  | tryAssign assignment a now sent => exact owned_of_quiet h (tryAssign_keeps ..)
  | cancelGeneration g now => exact owned_of_cleansUp h (cancelGeneration_cleansUp g now)
  | capabilityReport w pools =>
    exact owned_of_spares h (capabilityReport_keeps sparingRel_catalogued w pools)
  | heartbeat w ids now clock => exact owned_of_quiet h (tryHandleHeartbeat_keeps ..)
  | attemptRunning w a now => exact owned_of_quiet h (attemptRunning_keeps ..)
  | attemptProgress w a progress now => exact owned_of_quiet h (attemptProgress_keeps ..)
  | attemptResult w a outputs now => exact owned_of_ensures h (attemptResult_owned w a outputs now h)
  | attemptFailed w a failure now =>
    exact owned_of_cleansUp h (settleAttemptFailure_cleansUp w a failure now)
  | leaseRejected w a now => exact owned_of_quiet h (leaseRejected_keeps ..)
  | cancelAcknowledged w a now => exact owned_of_cleansUp h (cancelAcknowledged_cleansUp w a now)
  | expireLeases now skip => exact owned_of_cleansUp h (expireLeases_cleansUp now skip)
  | enforceExecutionDeadlines now skip =>
    exact owned_of_cleansUp h (enforceExecutionDeadlines_cleansUp now skip)
  | propagateCancellations now => exact owned_of_quiet h (propagateCancellations_keeps now)
  | expireStarvedQueue now => exact owned_of_cleansUp h (expireStarvedQueue_cleansUp now)
  | expireArtifacts now => exact owned_of_spares h (expireArtifacts_keeps now)

/-- In every reachable database each linked input belongs to one Generation that is not over,
    does not expire and has its content, and a Generation that is not over has all its inputs.
    An operation keeps linked inputs, but deletes those of a Generation that it ends; a
    refused admission changes nothing. -/
theorem inputs_owned (hdb : ReachesBy Op.sparesInputs db) :
    InputsOwned db ∧
    (∀ op : Op, op.sparesInputs db → InputsKept db (op.apply db) ∧ ∀ g, Live db g →
      Over (op.apply db) g →
      ∀ a r, fetch (op.apply db) (artifact a) = some r → ¬ InputOf g r) ∧
    ∀ request id available uploaded now clock,
      (∀ g db', (admitGeneration request id available uploaded now clock).run db ≠
        .ok (.commit (.ok g), db')) →
      (Op.submit request id available uploaded now clock).apply db = db := by
  have howned : InputsOwned db := by
    refine Machine.Reachable.invariant (I := InputsOwned) ?_ ?_ hdb
    · rintro _ ⟨tenantId, rfl⟩
      exact .initial tenantId
    · rintro db _ _ h ⟨op, hop, rfl⟩
      exact (op.owned hop h).1
  refine ⟨howned, fun op hop => ⟨(op.owned hop howned).2, ?_⟩,
    fun request id available uploaded now clock hno => ?_⟩
  · rintro g - ⟨row, hrow, hterm⟩ a r hr hin
    obtain ⟨⟨row', hrow', hterm'⟩, -⟩ := (op.owned hop howned).1.linked a r g hr hin
    obtain rfl : row' = row := Option.some_inj.1 (hrow'.symm.trans hrow)
    exact hterm' hterm
  · change (admitGeneration request id available uploaded now clock).commit db = db
    rw [Prog.commit]
    split
    · rename_i a db' hrun
      obtain ⟨⟨g, rfl⟩, -⟩ :=
        (admitGeneration_claims request id available uploaded now clock db).of_run
        hrun a rfl
      exact absurd hrun (hno g db')
    · rfl

end Operations

namespace Sample

/-- A reference image of three bytes. -/
def reference : ArtifactManifest := ⟨3, 0, .image, "image/png"⟩

/-- An upload, and a request that refers to it. -/
def referring : List Op := [
  .createInput 71 reference .remoteLocal none 0,
  .setRemoteLocalContent 71 [1, 2, 3] 0 0,
  .submit { request with parameters := .image {
    prompt := "a fox"
    negativePrompt := ""
    width := 1024
    height := 1024
    steps := none
    cfgScale := none
    references := [71]
    loras := []
    sigmas := none } } 33 false (fun _ => false) 0 0]

end Sample

/-- The uploaded image belongs to the Generation that refers to it. -/
theorem inputs_owned_referenced : let db := Sample.after Sample.referring
    (fetch db (artifact 71)).any
      (fun r : ArtifactRow => r.direction = .input && r.generationId = some 33) ∧
      InputsOwned db := by
  let _ := Sample.manifestHash
  refine ⟨by decide +kernel, (inputs_owned (Machine.reachable_run (.init ⟨1, rfl⟩) _ ?_)).1⟩
  exact ⟨trivial, trivial, trivial, trivial, trivial, trivial, trivial, trivial, trivial, trivial⟩

end Gpq
