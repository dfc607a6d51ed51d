import Gpq.Lib.Occurrences
import Gpq.Lib.Traverse
import Gpq.Lifecycle.Fetches
import Gpq.Lifecycle.Ownership
import Gpq.Worker.Infer

/-!
# Staged inputs

The inputs of a Generation are collected three times: at its admission, by the Worker that runs
it and by the inference child. The three agree, and so nothing is missing or superfluous where
the lease lists what the admission linked.

* `firstOccurrences_staging`: every referenced input once, in the order of first use;
* `admitNew_links`: what an admission links;
* `fetchInputs_of_lists`: a lease that lists what was linked passes the checks of the Worker;
* `inputs_agree`: the sets agree, and every reference is resolved.
-/

namespace Gpq

open Sql DbKey Occurrences Traverse

/-- The inputs that a Generation conditions on, in order and with repetitions. -/
def conditioning : GenerationParameters → List Uuid
  | .image image => image.references
  | .video video => video.firstFrame.toList ++ video.lastFrame.toList

/-- What is staged for transfer is every referenced input once, in the order of first use. -/
theorem firstOccurrences_staging (parameters : GenerationParameters) :
    FirstOccurrences (conditioning parameters) parameters.stagingArtifactIds := by
  have hcollect : parameters.stagingArtifactIds = (conditioning parameters).foldl collect [] := by
    obtain image | video := parameters
    · rfl
    · obtain ⟨prompt, negativePrompt, width, height, frames, firstFrame, lastFrame⟩ := video
      rcases firstFrame with _ | first <;> rcases lastFrame with _ | last
      · rfl
      · rfl
      · rfl
      · -- a last frame that is the first one is staged once
        simp only [GenerationParameters.stagingArtifactIds, conditioning, Option.toList_some,
          List.cons_append,
          List.nil_append, List.foldl_cons, List.foldl_nil, collect, List.not_mem_nil, if_false,
          List.mem_singleton]
  rw [hcollect]
  exact firstOccurrences_collect _

/-! ## The three sets -/

/-- The inputs that parameters refer to. -/
theorem mem_referencedInputs {parameters : GenerationParameters} {id : Uuid} :
    id ∈ referencedInputs parameters ↔ id ∈ conditioning parameters := by
  obtain image | video := parameters
  · exact List.mem_toFinset
  · rw [referencedInputs, conditioning, Finset.mem_union, List.mem_append, Option.mem_toFinset,
      Option.mem_toFinset, Option.mem_toList, Option.mem_toList]
    exact Iff.rfl

theorem referencedInputs_eq (parameters : GenerationParameters) :
    referencedInputs parameters = parameters.stagingArtifactIds.toFinset := by
  ext id
  rw [mem_referencedInputs, List.mem_toFinset, (firstOccurrences_staging parameters).mem_iff]

/-- The Worker and its child collect the same inputs. -/
theorem requiredInputs_eq (parameters : GenerationParameters) :
    requiredInputs parameters = referencedInputs parameters := by
  obtain image | video := parameters <;> rfl

/-- An admission links exactly the inputs that are to be staged, where none is linked to the new
    Generation before. -/
theorem admitNew_links {request : AdmissionRequest} {new : NewGeneration} {clock : Time} {db db' : Db}
    {reply : Except AdmissionError Uuid} (hparams : new.parameters = request.parameters)
    (hfresh : ∀ a r, fetch db (artifact a) = some r → r.generationId ≠ some new.id)
    (hrun : (admitNew request new clock).run db = .ok (.commit reply, db')) (a : Uuid) :
    (∃ r, fetch db' (artifact a) = some r ∧ InputOf new.id r) ↔
    a ∈ request.parameters.stagingArtifactIds := by
  obtain ⟨-, row, -, -, hrow, hlink⟩ := (admitNew_linked clock hparams).of_run hrun reply rfl
  rw [hrow] at hlink
  constructor
  · rintro ⟨r, hr, hin⟩
    by_contra hnot
    rw [hlink.others a hnot, Db.fetch_store_ne db _ (by exact nofun)] at hr
    exact hfresh a r hr hin.2
  · intro ha
    obtain ⟨r, -, hclaim, hr⟩ := hlink.claimed a ha
    exact ⟨_, hr, (ArtifactRow.secured_claimed new.id hclaim).1⟩

/-! ## The Worker -/

section Worker

variable [Sha256] [UuidText] {ctx : ExecutionContext} {inputs inputs' : InputArtifacts}
    {leaseInput : LeaseInput}
  {lease : List LeaseInput}

/-- The lease lists exactly these inputs. -/
def Lists (ids : List Uuid) (lease : List LeaseInput) : Prop :=
  ∀ id, id ∈ ids ↔ ∃ leaseInput ∈ lease, UuidText.parse leaseInput.artifactId = .ok id

/-- Every input of the lease is downloaded with the manifest that is meant for its Artifact. -/
def Fetched (ctx : ExecutionContext) (manifests : Uuid → ArtifactManifest) : Prop :=
  ∀ leaseInput ∈ ctx.inputs, ∃ id, UuidText.parse leaseInput.artifactId = .ok id ∧
    manifestFromProto leaseInput.manifest = .ok (manifests id) ∧
    ∃ bytes, downloadInput leaseInput (manifests id) (ctx.download id) = .ok bytes

/-- What the step for one input of the lease needs, and leaves. -/
theorem fetchInput_eq_ok_iff : fetchInput ctx inputs leaseInput = .ok inputs' ↔
    ∃ id manifest, UuidText.parse leaseInput.artifactId = .ok id ∧
      manifestFromProto leaseInput.manifest = .ok manifest ∧
      ((∃ previous, inputs.lookup id = some previous ∧ previous.manifest = manifest ∧
        inputs' = inputs) ∨
        inputs.lookup id = none ∧
        (∃ bytes, downloadInput leaseInput manifest (ctx.download id) = .ok bytes) ∧
          inputs' = inputs.insert id ⟨ctx.attemptDir ++ "/input-" ++ displayUuid id, manifest⟩) := by
  unfold fetchInput
  simp only [bind, Except.bind, throw, throwThe, MonadExceptOf.throw, pure, Except.pure]
  cases hparse : UuidText.parse leaseInput.artifactId with
  | error e =>
    refine iff_of_false nofun ?_
    rintro ⟨id, manifest, h, -⟩
    cases h
  | ok id =>
    cases hmanifest : manifestFromProto leaseInput.manifest with
    | error e =>
      refine iff_of_false nofun ?_
      rintro ⟨id, manifest, -, h, -⟩
      cases h
    | ok manifest =>
      simp only [Except.mapError, Except.ok.injEq, exists_eq_left', exists_and_left]
      cases hlookup : inputs.lookup id with
      | some previous =>
        simp only [Option.some.injEq, exists_eq_left', reduceCtorEq, false_and, or_false]
        split
        · rename_i hconflict
          exact iff_of_false nofun fun h => hconflict h.1
        · rename_i hsame
          rw [Except.ok.injEq]
          exact ⟨fun h => ⟨not_not.1 hsame, h.symm⟩, fun h => h.2.symm⟩
      | none =>
        cases hdownload : downloadInput leaseInput manifest (ctx.download id) with
        | error e => simp
        | ok bytes => simp [eq_comm]

/-- One more input is there. -/
theorem mem_of_fetchInput (h : fetchInput ctx inputs leaseInput = .ok inputs') (id : Uuid) :
    id ∈ inputs' ↔ id ∈ inputs ∨ UuidText.parse leaseInput.artifactId = .ok id := by
  obtain ⟨artifactId, manifest, hparse, -, hthere | ⟨-, -, rfl⟩⟩ := fetchInput_eq_ok_iff.1 h
  · obtain ⟨previous, hlookup, -, rfl⟩ := hthere
    have hmem : artifactId ∈ inputs' := AList.lookup_isSome.1 (hlookup ▸ rfl)
    rw [hparse, Except.ok.injEq]
    exact ⟨Or.inl, fun h => h.elim (fun h => h) fun heq => heq ▸ hmem⟩
  · rw [hparse, Except.ok.injEq, AList.mem_insert, or_comm, eq_comm]

/-- After the loop, the inputs of the lease are there. -/
theorem mem_of_foldlM (h : lease.foldlM (fetchInput ctx) inputs = .ok inputs') (id : Uuid) :
    id ∈ inputs' ↔ id ∈ inputs ∨
      ∃ leaseInput ∈ lease, UuidText.parse leaseInput.artifactId = .ok id := by
  induction lease generalizing inputs with
  | nil =>
    cases h
    simp
  | cons leaseInput lease ih =>
    rw [List.foldlM_cons] at h
    cases hstep : fetchInput ctx inputs leaseInput with
    | error e =>
      rw [hstep] at h
      cases h
    | ok next =>
      rw [hstep] at h
      rw [ih h, mem_of_fetchInput hstep]
      simp [or_assoc]

/-- Where every input can be downloaded, the loop goes through. -/
theorem foldlM_of_fetched {manifests : Uuid → ArtifactManifest} (hfetched : Fetched ctx manifests)
    (hlease : ∀ leaseInput ∈ lease, leaseInput ∈ ctx.inputs)
    (hinputs : ∀ id input, inputs.lookup id = some input → input.manifest = manifests id) :
    ∃ inputs', lease.foldlM (fetchInput ctx) inputs = .ok inputs' := by
  induction lease generalizing inputs with
  | nil => exact ⟨inputs, rfl⟩
  | cons leaseInput lease ih =>
    obtain ⟨id, hparse, hmanifest, hdownload⟩ :=
      hfetched leaseInput (hlease leaseInput List.mem_cons_self)
    have hrest := fun leaseInput h => hlease leaseInput (List.mem_cons_of_mem _ h)
    rw [List.foldlM_cons]
    cases hlookup : inputs.lookup id with
    | some previous =>
      have hstep : fetchInput ctx inputs leaseInput = .ok inputs :=
        fetchInput_eq_ok_iff.2 ⟨id, _, hparse, hmanifest,
          .inl ⟨previous, hlookup, hinputs id previous hlookup, rfl⟩⟩
      rw [hstep]
      exact ih hrest hinputs
    | none =>
      have hstep := fetchInput_eq_ok_iff.2 ⟨id, _, hparse, hmanifest, .inr ⟨hlookup, hdownload, rfl⟩⟩
      rw [hstep]
      refine ih hrest fun other input hother => ?_
      by_cases heq : other = id
      · subst heq
        rw [AList.lookup_insert] at hother
        cases hother
        rfl
      · rw [AList.lookup_insert_ne heq] at hother
        exact hinputs other input hother

/-- A lease that lists what was linked passes the checks: nothing is absent or unreferenced. -/
theorem fetchInputs_of_lists (hlists : Lists ctx.parameters.stagingArtifactIds ctx.inputs) :
    fetchInputs ctx = ctx.inputs.foldlM (fetchInput ctx) ∅ := by
  rw [fetchInputs]
  cases hloop : ctx.inputs.foldlM (fetchInput ctx) ∅ with
  | error e => rfl
  | ok inputs =>
    have hmem : ∀ id, id ∈ inputs ↔ id ∈ referencedInputs ctx.parameters := by
      intro id
      rw [mem_of_foldlM hloop, ← hlists id, referencedInputs_eq, List.mem_toFinset]
      simp
    have hpresent : ¬ ∃ artifact ∈ referencedInputs ctx.parameters, artifact ∉ inputs := by
      rintro ⟨id, hid, hnot⟩
      exact hnot ((hmem id).2 hid)
    have hreferenced : ¬ (inputs.keys.any (· ∉ referencedInputs ctx.parameters)) = true := by
      rw [List.any_eq_true]
      rintro ⟨id, hid, hnot⟩
      exact of_decide_eq_true hnot ((hmem id).1 hid)
    simp only [bind, Except.bind]
    rw [if_neg hpresent]
    simp only [pure, Except.pure]
    rw [if_neg hreferenced]

end Worker

/-! ## The inference child -/

section Child

variable {inputs : InputArtifacts} {staged : StagedInputs} {parameters : GenerationParameters}

/-- Every input is staged at its own path. -/
theorem lookup_stagedInputs (inputs : InputArtifacts) (id : Uuid) :
    (stagedInputs inputs).lookup id = (inputs.lookup id).map InputArtifact.path := by
  obtain ⟨entries, hnodup⟩ := inputs
  change (entries.map fun e => (⟨e.1, e.2.path⟩ : Σ _ : Uuid, String)).dlookup id =
    (entries.dlookup id).map InputArtifact.path
  clear hnodup
  induction entries with
  | nil => rfl
  | cons e entries ih =>
    obtain ⟨other, input⟩ := e
    rw [List.map_cons]
    by_cases heq : id = other
    · subst heq
      rw [List.dlookup_cons_eq, List.dlookup_cons_eq, Option.map_some]
    · rw [List.dlookup_cons_ne _ _ heq, List.dlookup_cons_ne _ _ heq, ih]

theorem mem_stagedInputs {id : Uuid} : id ∈ stagedInputs inputs ↔ id ∈ inputs := by
  rw [← AList.lookup_isSome, ← AList.lookup_isSome, lookup_stagedInputs, Option.isSome_map]

/-- All checks pass exactly if each does. -/
theorem forM_ok_iff {α ε : Type} {f : α → Except ε Unit} {l : List α} :
    l.forM f = .ok () ↔ ∀ a ∈ l, f a = .ok () := by
  induction l with
  | nil => exact iff_of_true rfl (List.forall_mem_nil _)
  | cons a l ih =>
    rw [List.forall_mem_cons, ← ih]
    change (do f a; l.forM f) = .ok () ↔ _
    cases hfirst : f a with
    | error e => exact iff_of_false (fun h => by cases h) fun h => by cases h.1
    | ok => exact ⟨fun h => ⟨rfl, h⟩, And.right⟩

/-- The child accepts inputs that are the required ones, each a file where it was put, and no
    others. -/
theorem validateStagedInputs_ok_iff {stagedFile : String → Except String Unit} :
    validateStagedInputs stagedFile parameters staged = .ok () ↔
      (∀ id, id ∈ staged ↔ id ∈ requiredInputs parameters) ∧
        ∀ id path, staged.lookup id = some path → stagedFile path = .ok () := by
  rw [validateStagedInputs]
  by_cases hpresent : ∀ artifact ∈ requiredInputs parameters, artifact ∈ staged
  · by_cases hreferenced : staged.keys.all (· ∈ requiredInputs parameters) = true
    · rw [if_neg (not_not.2 hpresent), if_neg (not_not.2 hreferenced)]
      have hmem : ∀ id, id ∈ staged ↔ id ∈ requiredInputs parameters := fun id =>
        ⟨fun hid => of_decide_eq_true (List.all_eq_true.1 hreferenced id hid), hpresent id⟩
      rw [iff_true_intro hmem, true_and]
      refine forM_ok_iff.trans ⟨fun h id path hpath => ?_, fun h id _ => ?_⟩
      · have hkey : id ∈ staged.keys := AList.lookup_isSome.1 (hpath ▸ rfl)
        have hfile := h id ((List.mem_insertionSort _).2 hkey)
        rw [hpath] at hfile
        exact hfile
      · cases hlookup : staged.lookup id with
        | none => rfl
        | some path => exact h id path hlookup
    · rw [if_neg (not_not.2 hpresent), if_pos hreferenced]
      refine iff_of_false (fun h => by cases h) fun h => hreferenced ?_
      exact List.all_eq_true.2 fun id hid => decide_eq_true ((h.1 id).1 hid)
  · rw [if_pos hpresent]
    exact iff_of_false (fun h => by cases h) fun h => hpresent fun id hid => (h.1 id).2 hid

/-- A staged input is resolved to its path. -/
theorem resolveImage_ok {requireFile : String → Except String Unit} {id : Uuid}
    (hfiles : ∀ id path, staged.lookup id = some path → requireFile path = .ok ())
    (hid : id ∈ staged) :
    ∃ path, resolveImage requireFile staged id = .ok path := by
  obtain ⟨path, hpath⟩ := Option.isSome_iff_exists.1 (AList.lookup_isSome.2 hid)
  refine ⟨path, ?_⟩
  rw [resolveImage, hpath]
  dsimp only
  rw [hfiles id path hpath]
  rfl

/-- Every reference of the native request is resolved where it is staged. -/
theorem resolveInputs_ok {requireFile : String → Except String Unit}
    (hfiles : ∀ id path, staged.lookup id = some path → requireFile path = .ok ())
    (hmem : ∀ id ∈ conditioning parameters, id ∈ staged) :
    ∃ native, resolveInputs requireFile staged parameters = .ok native := by
  have hresolve := fun id hid => resolveImage_ok hfiles (hmem id hid)
  obtain image | video := parameters
  · obtain ⟨paths, hpaths⟩ := mapM_ok hresolve
    refine ⟨.references paths, ?_⟩
    rw [resolveInputs, resolveImages,
      show image.references = conditioning (.image image) from rfl, hpaths]
    rfl
  · obtain ⟨firstFrame, hfirst⟩ :=
      option_mapM_ok (f := resolveImage requireFile staged) (o := video.firstFrame)
      fun id hid => hresolve id (List.mem_append_left _ (Option.mem_toList.2 hid))
    obtain ⟨lastFrame, hlast⟩ :=
      option_mapM_ok (f := resolveImage requireFile staged) (o := video.lastFrame)
      fun id hid => hresolve id (List.mem_append_right _ (Option.mem_toList.2 hid))
    refine ⟨.frames firstFrame lastFrame, ?_⟩
    rw [resolveInputs, hfirst, hlast]
    rfl

end Child

/-- The inputs that an admission links, that the Worker derives and that its child requires are the
    same: every referenced input once, in the order of first use. The child accepts staged files
    where they are those of that set, and only then. So where the lease lists what was linked, no
    check finds an input absent or unreferenced; where all of it is fetched, the child accepts it
    and resolves every reference. -/
theorem inputs_agree [Sha256] [UuidText] (parameters : GenerationParameters) :
    FirstOccurrences (conditioning parameters) parameters.stagingArtifactIds ∧
    referencedInputs parameters = parameters.stagingArtifactIds.toFinset ∧
    requiredInputs parameters = parameters.stagingArtifactIds.toFinset ∧
    (∀ (request : AdmissionRequest) (new : NewGeneration) (clock : Time) (db db' : Db)
      (reply : Except AdmissionError Uuid), request.parameters = parameters →
      new.parameters = parameters →
      (∀ a r, fetch db (artifact a) = some r → r.generationId ≠ some new.id) →
      (admitNew request new clock).run db = .ok (.commit reply, db') →
      ∀ a, (∃ r, fetch db' (artifact a) = some r ∧ InputOf new.id r) ↔
        a ∈ parameters.stagingArtifactIds) ∧
    (∀ (stagedFile : String → Except String Unit) (staged : StagedInputs),
      validateStagedInputs stagedFile parameters staged = .ok () ↔
        (∀ id, id ∈ staged ↔ id ∈ parameters.stagingArtifactIds) ∧
          ∀ id path, staged.lookup id = some path → stagedFile path = .ok ()) ∧
    ∀ ctx : ExecutionContext, ctx.parameters = parameters →
    Lists parameters.stagingArtifactIds ctx.inputs →
      fetchInputs ctx = ctx.inputs.foldlM (fetchInput ctx) ∅ ∧
      (∀ manifests, Fetched ctx manifests → ∃ inputs, fetchInputs ctx = .ok inputs) ∧
      ∀ inputs, fetchInputs ctx = .ok inputs → ∀ isFile : String → Except String Unit,
        (∀ id path, (stagedInputs inputs).lookup id = some path → isFile path = .ok ()) →
        validateStagedInputs isFile parameters (stagedInputs inputs) = .ok () ∧
        ∃ native, resolveInputs isFile (stagedInputs inputs) parameters = .ok native := by
  have hstaging := firstOccurrences_staging parameters
  have hreferenced := referencedInputs_eq parameters
  have hrequired := (requiredInputs_eq parameters).trans hreferenced
  have hvalidate (stagedFile : String → Except String Unit) (staged : StagedInputs) :
      validateStagedInputs stagedFile parameters staged = .ok () ↔
        (∀ id, id ∈ staged ↔ id ∈ parameters.stagingArtifactIds) ∧
          ∀ id path, staged.lookup id = some path → stagedFile path = .ok () := by
    rw [validateStagedInputs_ok_iff, hrequired]
    simp only [List.mem_toFinset]
  refine ⟨hstaging, hreferenced, hrequired, ?_, hvalidate, ?_⟩
  · rintro request new clock db db' reply rfl hnew hfresh hrun
    exact admitNew_links hnew hfresh hrun
  · rintro ctx rfl hlists
    have hfetch := fetchInputs_of_lists hlists
    refine ⟨hfetch, fun manifests hfetched => ?_, fun inputs hinputs isFile hfiles => ?_⟩
    · rw [hfetch]
      exact foldlM_of_fetched hfetched (fun _ h => h) nofun
    · rw [hfetch] at hinputs
      have hmem : ∀ id, id ∈ stagedInputs inputs ↔ id ∈ ctx.parameters.stagingArtifactIds := by
        intro id
        rw [mem_stagedInputs, mem_of_foldlM hinputs, hlists id]
        simp
      refine ⟨(hvalidate isFile _).2 ⟨hmem, hfiles⟩, resolveInputs_ok hfiles fun id hid => ?_⟩
      rw [hmem, hstaging.mem_iff]
      exact hid

namespace Sample

/-- The texts of two identifiers. -/
@[reducible] def uuidTexts : UuidText where
  parse s :=
    if s = displayUuid 5 then .ok 5 else if s = displayUuid 7 then .ok 7
    else .error "invalid character"

/-- An edit that refers to one of its two inputs twice. -/
def execution : ExecutionContext where
  inputs := [leasedInput 5, leasedInput 7]
  parameters := .image ⟨"a fox", "", 1024, 1024, none, none, [5, 5, 7], [], none⟩
  attemptDir := "attempts/41"
  download _ := { stream := .ok [.ok ⟨0, [1], true⟩] }

end Sample

/-- A repeated reference is listed, fetched and staged once. -/
theorem inputs_agree_repeated :
    ∃ inputs, @fetchInputs Sample.oneByte Sample.uuidTexts Sample.execution = .ok inputs ∧
    validateStagedInputs (fun _ => .ok ()) Sample.execution.parameters (stagedInputs inputs) =
      .ok () := by
  let _ := Sample.oneByte
  let _ := Sample.uuidTexts
  obtain ⟨-, -, -, -, -, hworker⟩ := inputs_agree Sample.execution.parameters
  have hparse : UuidText.parse (displayUuid 5) = .ok 5 ∧ UuidText.parse (displayUuid 7) = .ok 7 :=
    ⟨by decide +kernel, by decide +kernel⟩
  have hlists : Lists Sample.execution.parameters.stagingArtifactIds Sample.execution.inputs := by
    intro id
    change id ∈ [5, 7] ↔ ∃ leaseInput ∈ [Sample.leasedInput 5, Sample.leasedInput 7], _
    simp only [List.mem_cons, List.not_mem_nil, or_false, exists_eq_or_imp, exists_eq_left,
      Sample.leasedInput, hparse, Except.ok.injEq, eq_comm]
  have hfetched : Fetched Sample.execution fun _ => Sample.onePixel := by
    intro leaseInput hinput
    rcases List.mem_cons.1 hinput with rfl | hinput
    · exact ⟨5, hparse.1, by decide +kernel, [1], by decide +kernel⟩
    · obtain rfl := List.mem_singleton.1 hinput
      exact ⟨7, hparse.2, by decide +kernel, [1], by decide +kernel⟩
  obtain ⟨-, hfetch, hstaged⟩ := hworker Sample.execution rfl hlists
  obtain ⟨inputs, hinputs⟩ := hfetch _ hfetched
  exact ⟨inputs, hinputs, (hstaged inputs hinputs _ fun _ _ _ => rfl).1⟩

end Gpq
