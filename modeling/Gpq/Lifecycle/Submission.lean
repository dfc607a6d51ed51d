import Gpq.Lib.Calls
import Gpq.Remote.System

/-!
# Idempotent submission

`Submit` carries an idempotency key. The replay of a known key is decided before the
Generation is inserted, so two first submissions may both find the key unused; the
insertion of the key, which is unique, then decides (`submit_idempotent`):

  * the calls that succeed with one key all answer the same Generation, and create no
    other;
  * a call with another digest than the one that a key was recorded with fails;
  * a call that fails leaves the database as it was.
-/

namespace Gpq

open Sql DbKey Prog

/-- A `Submit` call: the request, the identifier that its Generation gets, and what the
    call learns from outside. -/
structure Submission where
  request : AdmissionRequest
  id : Uuid
  objectStoreAvailable : Bool
  uploaded : Uuid → Bool
  now : Time
  clock : Time

/-- The statements of a call. -/
def Submission.body (t : Submission) : Transaction Db :=
  ⟨_, admitGeneration t.request t.id t.objectStoreAvailable t.uploaded t.now t.clock⟩

/-- The interleavings of `Submit` calls on the connections `ι`, from any database. -/
def Submissions (ι : Type) [Fintype ι] [DecidableEq ι] :
    Traced Db ι Submission → Prop :=
  Machine.Reachable Traced.idle (Machine.Fires (Traced.next Submission.body) fun _ _ => True)

/-- The call succeeds and answers the Generation. -/
def Succeeds (e : Call Db Submission) (g : Uuid) : Prop :=
  e.ending = some ⟨Except AdmissionError Uuid, .commit (.ok g)⟩

/-- The Generation is there after the call, and was not before it ended. -/
def Creates (e : Call Db Submission) (g : Uuid) : Prop :=
  fetch e.found (generation g) = none ∧ (fetch e.left (generation g)).isSome

/-- How a commit may change a row: an idempotency key stays as it is. -/
def KeyRely : (k : DbKey) → Option (Db.Row k) → Option (Db.Row k) → Prop
  | .idempotencyKey _, o, o' => ∀ r, o = some r → o' = some r
  | _, _, _ => True

/-- The discipline of the submissions. -/
def keyed : Discipline Db where
  inv _ := True
  rely := KeyRely
  guards _ _ _ := True
  moves _ _ := True
  may _ _ := True
  rely_refl k o := by
    cases k with
    | idempotencyKey key => exact fun r hr => hr
    | _ => trivial
  rely_trans k o₁ o₂ o₃ h h' := by
    cases k with
    | idempotencyKey key => exact fun r hr => h' r (h r hr)
    | _ => trivial
  guards_refl _ _ := trivial
  guards_trans _ _ _ _ _ _ _ := trivial
  guards_applyAll _ _ _ _ _ _ _ := trivial
  moves_refl _ := trivial
  moves_trans _ _ _ _ _ := trivial

/-! ## Keys -/

section Keys

variable {H : List DbKey} {W : List (Write Db)} {db : Db}

/-- Writes that insert keys, and change none. -/
theorem sound_write_keys {α : Type} {f : Db → Except DbError (α × List (Write Db))}
    (h : ∀ db b ws, f db = .ok (b, ws) → ∀ w ∈ ws, ∀ key, w.1 = idempotencyKey key →
      fetch db (idempotencyKey key) = none) : Sound keyed (.exec (.write f)) := by
  refine fun H s _ => safe_write fun s₁ b ws _ hws s₂ henv₂ _ t ht => ⟨trivial, fun k => ?_,
    fun _ _ => trivial, trivial⟩
  cases k with
  | idempotencyKey key =>
    intro r hr
    by_cases hkey : ∃ w ∈ ws, w.1 = idempotencyKey key
    · -- the row is held since it was found unused
      obtain ⟨w, hw, hk⟩ := hkey
      have hheld : idempotencyKey key ∈ H ++ ws.map Sigma.fst :=
        hk ▸ List.mem_append_right _ (List.mem_map_of_mem hw)
      have hnone : fetch s₁ (idempotencyKey key) = none := h _ b ws hws w hw key hk
      rw [ht.held _ hheld, henv₂.held _ hheld, hnone] at hr
      cases hr
    · rw [List.nil_append, fetch_applyAll_of_notMem t fun w hw he => hkey ⟨w, hw, he⟩]
      exact hr
  | _ => trivial

theorem insertGeneration_keyed (new : NewGeneration) : Sound keyed (Generations.insert new) := by
  refine Sound.require (sound_write_keys fun db b ws hws w hw key hkey => ?_)
  obtain ⟨-, r, rfl, -⟩ := Generations.insertion_eq_ok hws
  rw [List.mem_singleton.1 hw] at hkey
  cases hkey

theorem linkInputArtifacts_keyed (id : Uuid) (ids : List Uuid) (clock : Time) :
    Sound keyed (Artifacts.linkInputArtifacts id ids clock) := by
  refine sound_write_keys fun db b ws hws w hw key hkey => ?_
  cases hws
  obtain ⟨e, -, rfl⟩ := List.mem_map.1 hw
  cases hkey

/-- A key is recorded once. -/
theorem recordIdempotencyKey_keyed (key : String) (digest : Bytes) (g : Uuid) :
    Sound keyed (recordIdempotencyKey key digest g) := by
  refine Sound.require (sound_write_keys fun db b ws hws w hw key' hkey => ?_)
  split at hws
  · cases hws
  · rename_i hnew
    cases hws
    rw [List.mem_singleton.1 hw] at hkey
    cases hkey
    simpa using hnew

/-- A request that is admitted writes its own Generation and its key. -/
theorem admitNew_commits (request : AdmissionRequest) (new : NewGeneration) (clock : Time) :
    Commits keyed (admitNew request new clock) := by
  refine .bind (insertGeneration_keyed new) fun _ => ?_
  have hrest : ∀ linked : ℕ, @Commits _ _ (Except AdmissionError Uuid) keyed
      (admitLinked request new linked) := by
    intro linked
    rw [admitLinked]
    split
    · exact .done _
    dsimp only
    split
    · exact .bind (recordIdempotencyKey_keyed _ _ _) fun _ => .done _
    · exact .done _
  dsimp only
  split
  · exact hrest 0
  · exact .bind (linkInputArtifacts_keyed _ _ _) hrest

/-- Admission up to the insertion only reads. -/
theorem admitFresh_cases {P : Body (Verdict (Except AdmissionError Uuid)) → Prop}
    (request : AdmissionRequest) (id : Uuid) (uploaded : Uuid → Bool) (now clock : Time)
    (hrefused : ∀ e, P (.done (.rollback (.error e))))
    (hbind : ∀ {β : Type} (p : Body β) f, Silent keyed p → (∀ b, P (f b)) → P (p.bind f))
    (hnew : ∀ new : NewGeneration, new.id = id → P (admitNew request new clock)) :
    P (admitFresh request id uploaded now clock) := by
  refine hbind _ _ (silent_read _) fun settings => ?_
  cases settings with
  | none => exact hrefused _
  | some settings =>
    refine hbind _ _ (silent_read _) fun nonterminal => ?_
    split
    · exact hrefused _
    refine hbind _ _ (Silent.require (silent_read _)) fun model => ?_
    cases model with
    | none => exact hrefused _
    | some model =>
      dsimp only
      split
      · exact hrefused _
      refine hbind _ _ (Silent.forEach (fun i => .bind (silent_read _) fun _ => silent_done _) _)
        fun inputs => ?_
      split
      · exact hrefused _
      · exact hrefused _
      · exact hnew _ rfl

theorem admitFresh_commits (request : AdmissionRequest) (id : Uuid) (uploaded : Uuid → Bool)
    (now clock : Time) : Commits keyed (admitFresh request id uploaded now clock) :=
  admitFresh_cases request id uploaded now clock (fun _ => .done _)
    (fun _ _ hp hf => .bind hp.sound hf) fun new _ => admitNew_commits request new clock

/-- To look a key up writes nothing. -/
theorem replayIdempotent_silent (key : String) (digest : Bytes) :
    Silent keyed (replayIdempotent key digest) := by
  refine .bind (.require (silent_read _)) fun existing => ?_
  cases existing with
  | none => exact silent_done _
  | some row =>
    dsimp only
    split
    · exact silent_done _
    · refine .bind (silent_read _) fun found => ?_
      cases found <;> exact silent_done _

/-- Submissions only add keys. -/
theorem body_keyed (t : Submission) : t.body.2.Commits keyed := by
  obtain ⟨request, id, available, uploaded, now, clock⟩ := t
  dsimp only [Submission.body]
  unfold admitGeneration
  split
  · exact .done _
  split
  · exact .done _
  split
  · exact admitFresh_commits _ _ _ _ _
  · refine .bind (replayIdempotent_silent _ _).sound fun replayed => ?_
    split
    · exact .done _
    · exact .done _
    · exact admitFresh_commits _ _ _ _ _

/-! ## Answers -/

/-- The only Generation among the writes is `id`. -/
def OnlyNew (id : Uuid) (W : List (Write Db)) : Prop := ∀ w ∈ W, ∀ g, w.1 = generation g → g = id

/-- A call that commits answers a Generation, has recorded it under its key, and has
    created no other. -/
def Admits (request : AdmissionRequest) (v : Verdict (Except AdmissionError Uuid)) (_ : List DbKey)
    (W : List (Write Db)) (db : Db) : Prop :=
  ∀ a, v = .commit a → ∃ g, a = .ok g ∧
    (∀ key digest, request.idempotencyKey = some (key, digest) →
      fetch (applyAll db W) (idempotencyKey key) = some ⟨digest, g⟩) ∧
    OnlyNew g W

theorem refused_admits (request : AdmissionRequest) (e : AdmissionError) :
    (done (.rollback (.error e)) : Body (Verdict (Except AdmissionError Uuid))).Safe keyed
      (Admits request) H W db := by
  rintro s - a ⟨⟩

/-- A request that is admitted has its key, and one new Generation. -/
theorem admitNew_admits (request : AdmissionRequest) (new : NewGeneration) (clock : Time) :
    (admitNew request new clock).Safe keyed (Admits request) H [] db := by
  -- what follows the insert and the links
  have hrest : ∀ (linked : ℕ) H W db, OnlyNew new.id W →
      Prog.Safe keyed (Admits request) (admitLinked request new linked) H W db := by
    intro linked H W db hW
    rw [admitLinked]
    split
    · exact refused_admits _ _
    dsimp only
    cases hkey : request.idempotencyKey with
    | none =>
      rintro s - a ⟨⟩
      refine ⟨new.id, rfl, fun key digest h => ?_, hW⟩
      rw [hkey] at h
      cases h
    | some k =>
      refine safe_bind trivial (safe_require (safe_write fun s b ws _ hws t _ => ?_))
      split at hws
      · cases hws
      cases hws
      rintro u - a ⟨⟩
      refine ⟨new.id, rfl, fun key digest h => ?_, fun w hw g hg => ?_⟩
      · rw [hkey] at h
        cases h
        rw [applyAll_append]
        exact Database.fetch_store_self ..
      · rcases List.mem_append.1 hw with hw | hw
        · exact hW w hw g hg
        · rw [List.mem_singleton.1 hw] at hg
          cases hg
  refine safe_bind trivial (safe_require (safe_write fun s b ws _ hws t _ => ?_))
  -- the insert writes its own row
  have hW : OnlyNew new.id ([] ++ ws) := by
    obtain ⟨-, r, rfl, -⟩ := Generations.insertion_eq_ok hws
    intro w hw g hg
    rw [List.mem_singleton.1 hw] at hg
    cases hg
    rfl
  dsimp only
  split
  · exact hrest 0 _ _ _ hW
  · refine safe_bind trivial (safe_write fun s' b' ws' _ hws' t' _ => hrest _ _ _ _ ?_)
    cases hws'
    intro w hw g hg
    rcases List.mem_append.1 hw with hw | hw
    · exact hW w hw g hg
    · obtain ⟨e, -, rfl⟩ := List.mem_map.1 hw
      cases hg

/-- A key that is replayed is known, with the digest and the Generation. -/
theorem replayIdempotent_known (key : String) (digest : Bytes) :
    (replayIdempotent key digest).Safe keyed (fun r _ W' db' => W' = [] ∧
      ∀ g, r = .ok (some g) → fetch db' (idempotencyKey key) = some ⟨digest, g⟩) H [] db := by
  refine safe_bind trivial (safe_require (safe_read fun s _ s' henv' => ?_))
  rw [applyAll_nil]
  cases hrow : fetch s (idempotencyKey key) with
  | none =>
    rintro t -
    exact ⟨rfl, nofun⟩
  | some row =>
    dsimp only
    split
    · rintro t -
      exact ⟨rfl, nofun⟩
    · rename_i hdigest
      refine safe_bind trivial (safe_read fun u hu u' hu' => ?_)
      cases fetch (applyAll u []) (generation row.generationId) with
      | none =>
        rintro t -
        exact ⟨rfl, nofun⟩
      | some _ =>
        rintro t ht
        refine ⟨rfl, fun g hg => ?_⟩
        cases hg
        rw [← not_not.1 hdigest]
        exact ((henv'.trans hu).trans (hu'.trans ht)).rely (idempotencyKey key) row hrow

theorem admitFresh_admits (request : AdmissionRequest) (id : Uuid) (uploaded : Uuid → Bool)
    (now clock : Time) :
    (admitFresh request id uploaded now clock).Safe keyed (Admits request) H [] db :=
  admitFresh_cases (P := fun p => ∀ db, p.Safe keyed (Admits request) H [] db) request id uploaded now
    clock (fun e _ => refused_admits request e)
      (fun _ _ hp hf _ => hp.safe_bind trivial fun b s _ => hf b s)
    (fun new _ _ => admitNew_admits request new clock) db

/-- A submission that commits is answered by its own Generation, or by that of its key. -/
theorem body_admits (t : Submission) : Prog.Safe keyed (Admits t.request)
    (admitGeneration t.request t.id t.objectStoreAvailable t.uploaded t.now t.clock) [] [] db := by
  obtain ⟨request, id, available, uploaded, now, clock⟩ := t
  unfold admitGeneration
  split
  · exact refused_admits _ _
  split
  · exact refused_admits _ _
  split
  · exact admitFresh_admits _ _ _ _ _
  · rename_i key digest hkey
    refine safe_bind trivial ((replayIdempotent_known key digest).mono ?_)
    rintro replayed H' W' s - ⟨rfl, hknown⟩
    cases replayed with
    | error e => exact refused_admits _ _
    | ok existing =>
      cases existing with
      | none => exact admitFresh_admits _ _ _ _ _
      | some g =>
        rintro t ht a ⟨⟩
        -- the key that was read is still the same
        have hrow : fetch t (idempotencyKey key) = some ⟨digest, g⟩ :=
          ht.rely (idempotencyKey key) ⟨digest, g⟩ (hknown g rfl)
        refine ⟨g, rfl, fun key' digest' hkey' => ?_, fun w hw => (List.not_mem_nil hw).elim⟩
        obtain ⟨rfl, rfl⟩ : key = key' ∧ digest = digest' := by simpa using hkey.symm.trans hkey'
        exact hrow

end Keys

/-! ## Calls -/

/-- A call that commits has succeeded, with the Generation that its key stands for, and has
    created no other. -/
def Answered (t : Submission) (_ : Db) (v : Ending) (found left : Db) : Prop :=
  v.commits → ∃ g, v = ⟨Except AdmissionError Uuid, .commit (.ok g)⟩ ∧
    (∀ key digest, t.request.idempotencyKey = some (key, digest) →
      fetch left (idempotencyKey key) = some ⟨digest, g⟩) ∧
    ∀ g', fetch found (generation g') = none → (fetch left (generation g')).isSome → g' = g

/-- A submission that commits leaves no other new Generation. -/
theorem body_answered (t : Submission) (db : Db) : t.body.2.Safe keyed
    (fun v _ W db' => Answered t db ⟨_, v⟩ db' (Ending.leaves ⟨_, v⟩ db' W)) [] [] db := by
  refine (body_admits t).mono fun v H W db' _ hv => ?_
  cases v with
  | rollback a => exact nofun
  | commit a =>
    intro _
    obtain ⟨g, rfl, hkey, hnew⟩ := hv a rfl
    refine ⟨g, rfl, hkey, fun g' hnone hsome => ?_⟩
    by_contra hne
    have hsame : fetch (applyAll db' W) (generation g') = fetch db' (generation g') :=
      fetch_applyAll_of_notMem db' fun w hw he => hne (hnew w hw g' he)
    have hsome : (fetch (applyAll db' W) (generation g')).isSome := hsome
    rw [hsame, hnone] at hsome
    cases hsome

section Calls

variable {ι : Type} [Fintype ι] [DecidableEq ι] {c : Traced Db ι Submission}

/-- In every interleaving each submission has its answer. -/
theorem Submissions.ok (hc : Submissions ι c) : c.Ok keyed Answered := by
  have hinit : ∀ db : Db, (fun _ => True) db → keyed.inv db := fun _ _ => trivial
  refine Traced.ok hinit body_keyed (fun t db _ => body_answered t db) ?_
  refine (hc.mono_init fun c hidle => ⟨trivial, hidle⟩).mono ?_
  rintro c c' ⟨a, -, he⟩
  refine ⟨a, ?_, he⟩
  cases a with
  | advance i => exact fun _ _ _ _ => trivial
  | _ => trivial

/-- A call that succeeds has recorded its key, which stays. -/
theorem Submissions.recorded (hc : Submissions ι c) {e : Call Db Submission} (he : e ∈ c.log)
    {g : Uuid} (hs : Succeeds e g) {key : String} {d : Bytes}
    (hkey : e.txn.request.idempotencyKey = some (key, d)) :
    fetch e.left (idempotencyKey key) = some ⟨d, g⟩ ∧
      fetch c.committed (idempotencyKey key) = some ⟨d, g⟩ := by
  have hok := hc.ok
  obtain ⟨g', hg', hrow, -⟩ := hok.ended e he _ hs rfl
  cases hg'
  exact ⟨hrow key d hkey, (hok.since e he).rely (idempotencyKey key) _ (hrow key d hkey)⟩

/-- A call that commits has succeeded. -/
theorem Submissions.succeeds_of_commits (hc : Submissions ι c) {e : Call Db Submission}
    (he : e ∈ c.log)
    (h : e.ending.any Ending.commits) : ∃ g, Succeeds e g := by
  obtain ⟨v, hv, hcommit⟩ := (Option.any_eq_true _ _).1 h
  obtain ⟨g, rfl, -⟩ := hc.ok.ended e he v hv hcommit
  exact ⟨g, hv⟩

/-- A call that creates a Generation has succeeded with it. -/
theorem Submissions.succeeds_of_creates (hc : Submissions ι c) {e : Call Db Submission}
    (he : e ∈ c.log)
    {g : Uuid} (h : Creates e g) : Succeeds e g := by
  have hok := hc.ok
  by_cases hcommit : ∃ v, e.ending = some v ∧ v.commits
  · obtain ⟨v, hv, hcommit⟩ := hcommit
    obtain ⟨g', rfl, -, honly⟩ := hok.ended e he v hv hcommit
    rw [honly g h.1 h.2]
    exact hv
  · have hsame := hok.failed e he fun v hv => Bool.eq_false_iff.2 fun hv' => hcommit ⟨v, hv, hv'⟩
    have hsome := h.2
    rw [hsame, h.1] at hsome
    cases hsome

/-- Submission is idempotent, in any interleaving of any calls. The calls that succeed with
    one key have the same digest and answer the same Generation, and no call with the key
    creates another one; a call fails where its key was recorded with another digest before
    it began; and a call that fails leaves everything as it was. -/
theorem submit_idempotent (hc : Submissions ι c) (key : String) :
    (∀ e₁ ∈ c.log, ∀ e₂ ∈ c.log, ∀ d₁ d₂ g₁ g₂,
      e₁.txn.request.idempotencyKey = some (key, d₁) →
      e₂.txn.request.idempotencyKey = some (key, d₂) →
      (Succeeds e₁ g₁ → Succeeds e₂ g₂ → g₁ = g₂ ∧ d₁ = d₂) ∧
      (Creates e₁ g₁ → Succeeds e₂ g₂ → g₁ = g₂) ∧ (Creates e₁ g₁ → Creates e₂ g₂ → g₁ = g₂)) ∧
    (∀ e ∈ c.log, ∀ d r, e.txn.request.idempotencyKey = some (key, d) →
      fetch e.began (idempotencyKey key) = some r → r.requestDigest ≠ d → ∀ g, ¬ Succeeds e g) ∧
    ∀ e ∈ c.log, (∀ g, ¬ Succeeds e g) → e.left = e.found := by
  have hok := hc.ok
  have hsame : ∀ e₁ ∈ c.log, ∀ e₂ ∈ c.log, ∀ d₁ d₂ g₁ g₂,
      e₁.txn.request.idempotencyKey = some (key, d₁) →
        e₂.txn.request.idempotencyKey = some (key, d₂) →
      Succeeds e₁ g₁ → Succeeds e₂ g₂ → g₁ = g₂ ∧ d₁ = d₂ := by
    intro e₁ he₁ e₂ he₂ d₁ d₂ g₁ g₂ hk₁ hk₂ hs₁ hs₂
    have hrow := (hc.recorded he₁ hs₁ hk₁).2.symm.trans (hc.recorded he₂ hs₂ hk₂).2
    cases hrow
    exact ⟨rfl, rfl⟩
  refine ⟨fun e₁ he₁ e₂ he₂ d₁ d₂ g₁ g₂ hk₁ hk₂ => ⟨hsame e₁ he₁ e₂ he₂ d₁ d₂ g₁ g₂ hk₁ hk₂, ?_, ?_⟩,
    fun e he d r hk hr hne g hs => ?_, fun e he hfail => ?_⟩
  · exact fun hc₁ hs₂ =>
      (hsame e₁ he₁ e₂ he₂ d₁ d₂ g₁ g₂ hk₁ hk₂ (hc.succeeds_of_creates he₁ hc₁) hs₂).1
  · exact fun hc₁ hc₂ => (hsame e₁ he₁ e₂ he₂ d₁ d₂ g₁ g₂ hk₁ hk₂ (hc.succeeds_of_creates he₁ hc₁)
      (hc.succeeds_of_creates he₂ hc₂)).1
  · -- the key stays from before the call, so it is the one that the call recorded
    have hleft : fetch e.left (idempotencyKey key) = some r :=
      (hok.before e he).rely (idempotencyKey key) r hr
    cases hleft.symm.trans (hc.recorded he hs hk).1
    exact hne rfl
  · refine hok.failed e he fun v hv => Bool.eq_false_iff.2 fun hcommit => ?_
    obtain ⟨g, rfl, -⟩ := hok.ended e he v hv hcommit
    exact hfail g hv

end Calls

namespace Sample

/-- A `Submit` of the sample request with a key. -/
def keyedSubmission (id : Uuid) : Submission where
  request := { request with idempotencyKey := some ("retry-42", [7]) }
  id := id
  objectStoreAvailable := false
  uploaded := fun _ => false
  now := 0
  clock := 0

/-- Two first submissions with one key find it unused; the second to insert it fails. A third
    one replays it. -/
def submissions : Traced Db (Fin 2) Submission :=
  Machine.run (Traced.next Submission.body) ⟨⟨after [], fun _ => none⟩, fun _ => none, []⟩ <|
    [.start 0 (keyedSubmission 51), .start 1 (keyedSubmission 52), .advance 0, .advance 1] ++
      List.replicate 6 (.advance 0) ++ List.replicate 6 (.advance 1) ++
        [.start 1 (keyedSubmission 53)] ++
      List.replicate 4 (.advance 1)

theorem submissions_submissions : Submissions (Fin 2) submissions := by
  have hidle : (⟨⟨after [], fun _ => none⟩, fun _ => none, []⟩ : Traced Db (Fin 2) Submission).idle :=
    ⟨fun _ => rfl, fun _ => rfl, rfl⟩
  exact Machine.reachable_run (.init hidle) _ (Machine.allowed_of_forall (fun _ _ => trivial) _ _)

end Sample

/-- The first call creates the Generation 51, and the third one answers it. -/
theorem submit_idempotent_replayed :
    ∃ e₁ ∈ Sample.submissions.log, ∃ e₃ ∈ Sample.submissions.log, e₁.txn.id = 51 ∧ Creates e₁ 51 ∧
      e₃.txn.id = 53 ∧ Succeeds e₃ 51 := by
  have hlog : (Sample.submissions.log.any fun e => e.txn.id = 51 &&
      e.txn.request.idempotencyKey =
        some ("retry-42", [7]) && (fetch e.found (generation 51)).isNone &&
      (fetch e.left (generation 51)).isSome) ∧
    (Sample.submissions.log.any fun e => e.txn.id = 53 &&
      e.txn.request.idempotencyKey = some ("retry-42", [7]) && e.ending.any Ending.commits) := by
    decide +kernel
  obtain ⟨e₁, he₁, h₁⟩ := List.any_eq_true.1 hlog.1
  obtain ⟨e₃, he₃, h₃⟩ := List.any_eq_true.1 hlog.2
  simp only [Bool.and_eq_true, decide_eq_true_eq, Option.isNone_iff_eq_none] at h₁ h₃
  obtain ⟨⟨⟨hid₁, hkey₁⟩, hnone⟩, hsome⟩ := h₁
  obtain ⟨⟨hid₃, hkey₃⟩, hcommit⟩ := h₃
  obtain ⟨g, hs⟩ := Sample.submissions_submissions.succeeds_of_commits he₃ hcommit
  obtain rfl :=
    ((submit_idempotent Sample.submissions_submissions "retry-42").1 e₁ he₁ e₃ he₃ _ _ 51 g
    hkey₁ hkey₃).2.1 ⟨hnone, hsome⟩ hs
  exact ⟨e₁, he₁, e₃, he₃, hid₁, ⟨hnone, hsome⟩, hid₃, hs⟩

end Gpq
