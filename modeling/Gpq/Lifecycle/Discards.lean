import Gpq.Lifecycle.Outputs

/-!
# Discards

The handler of an `AttemptResult` tells the reporting Worker to discard the outputs of a
result that is not accepted. Where each delivery token is reported under one Attempt, a
recorded output carries a token of the accepted Attempt of its Generation (`TokensHeld`), and
that Attempt's Worker is never told to discard it (`accepted_outputs_kept`); a Worker that
reports another Worker's Attempt is (`discard_sent`).
-/

namespace Gpq

open Sql DbKey Prog

/-! ## Where output rows come from -/

/-- The outputs after are outputs from before. -/
def Carried (o o' : Option ArtifactRow) : Prop :=
  ∀ r' ∈ o', r'.direction = .output → ∃ r ∈ o, Continues r r'

/-- How a row may change where no output is recorded. -/
def CarriedRel : (k : DbKey) → Option (Db.Row k) → Option (Db.Row k) → Prop
  | .artifact _, o, o' => Carried o o'
  | _, _, _ => True

/-- The changes of an operation that records no output. -/
def carriedRel : RowRel Db where
  rel := CarriedRel
  refl k o := by
    cases k with
    | artifact a => exact fun r hr _ => ⟨r, hr, rfl, rfl, rfl, rfl⟩
    | _ => trivial
  trans k o₁ o₂ o₃ h h' := by
    cases k with
    | artifact a =>
      intro r₃ hr₃ hout
      obtain ⟨r₂, hr₂, hc'⟩ := h' r₃ hr₃ hout
      obtain ⟨r₁, hr₁, hc⟩ := h r₂ hr₂ (hc'.direction.symm.trans hout)
      exact ⟨r₁, hr₁, hc.trans hc'⟩
    | _ => trivial

section Carrying

variable {α : Type} {db db' : Db}

theorem carried_of_eq {o o' : Option ArtifactRow} (h : o' = o) : Carried o o' := fun r hr _ =>
  ⟨r, h ▸ hr, rfl, rfl, rfl, rfl⟩

/-- Transactions that spare outputs carry them on. -/
theorem carried_of_sparing (h : sparingRel.Of db db') : carriedRel.Of db db' := by
  intro k
  have hk := h k
  cases k with
  | artifact a =>
    rcases hk with he | ⟨-, hback⟩
    · exact carried_of_eq he
    · intro r hr hout
      rcases hback r hr with hc | hun
      · exact hc
      · cases hun.1.symm.trans hout
  | _ => trivial

/-- So do those that only delete. -/
theorem carried_of_lifecycle {ends : Uuid → Prop} (h : (lifecycleRel ends .deletions).Of db db') :
    carriedRel.Of db db' := by
  intro k
  have hk := h k
  cases k with
  | artifact a =>
    rcases hk with he | hnone
    · exact carried_of_eq he
    · intro r hr
      cases hnone.symm.trans hr
  | _ => trivial

/-- An admission claims inputs; outputs are left alone. -/
theorem carried_of_claims {id : Uuid} (h : Claims id db db') : carriedRel.Of db db' := by
  obtain ⟨row, clock, -, -, hlink⟩ := h
  intro k
  cases k with
  | artifact a =>
    by_cases ha : a ∈ row.parameters.stagingArtifactIds
    · obtain ⟨r, -, hclaim, hr⟩ := hlink.claimed a ha
      intro r' hr' hout
      obtain rfl : r.claimed id = r' := Option.some_inj.1 (hr.symm.trans hr')
      cases (ArtifactRow.secured_claimed id hclaim).1.1.symm.trans hout
    · exact carried_of_eq ((hlink.others a ha).trans (Db.fetch_store_ne db _ (by exact nofun)))
  | _ => trivial

theorem commit_carried {p : Body (Verdict α)}
    (h : p.Ensures ⊤ (fun v db' => ∀ a, v = .commit a → carriedRel.Of db db') db) :
    carriedRel.Of db (p.commit db) := h.commit (RowRel.of_refl db)

theorem commit_carried_of_spares {p : Body (Verdict α)} (h : p.Keeps sparingRel) :
    carriedRel.Of db (p.commit db) :=
  commit_carried (Ensures.mono (h.ensures db) fun _ _ hs _ _ => carried_of_sparing hs)

theorem commit_carried_of_lifecycle {p : Body (Verdict α)}
    (h : p.Keeps (lifecycleRel (fun _ => True) .deletions)) : carriedRel.Of db (p.commit db) :=
  commit_carried (Ensures.mono (h.ensures db) fun _ _ hs _ _ => carried_of_lifecycle hs)

/-- An Artifact keeps its direction, its Attempt and its token in every state. -/
theorem setState_carries (id : Uuid) (target : ArtifactState) (now : Time) :
    (Artifacts.setState id target now).Keeps carriedRel := by
  refine .bind (keeps_read _) fun row => ?_
  split
  · split
    · exact keeps_done _
    refine .bind (keeps_update fun r _ r' hr' _ => ?_) fun moved => ?_
    · cases hr'
      exact ⟨r, rfl, rfl, rfl, rfl, rfl⟩
    split
    · exact keeps_done _
    refine .bind (keeps_read _) fun row => ?_
    split
    · exact keeps_done _
    · exact keeps_done _
  · exact keeps_done _

variable [ManifestHash]

/-- Only a result records outputs. -/
theorem Op.carries (op : Op) (hop : ∀ w a outputs now, op ≠ .attemptResult w a outputs now)
    (db : Db) :
    carriedRel.Of db (op.apply db) := by
  have hends : ∀ _ : Uuid, True := fun _ => trivial
  have hdel : Touch.deletions.DeletesInputs := fun _ _ => .inr rfl
  cases op with
  | deleteTenant now => exact commit_carried_of_spares (deleteTenant_keeps sparingRel_catalogued now)
  | updateSettings settings =>
    exact commit_carried_of_spares
      (committed_keeps (updateSettings_keeps sparingRel_catalogued settings))
  | enroll id name credentialHash =>
    exact commit_carried_of_spares (committed_keeps (enroll_keeps sparingRel_catalogued ..))
  | revokeWorker id now =>
    exact commit_carried_of_spares
      (committed_keeps (revokeWorker_keeps sparingRel_catalogued id now))
  | setModelAlias aliasName version =>
    exact commit_carried_of_spares (setModelAlias_keeps sparingRel_catalogued ..)
  | deleteModelAlias aliasName =>
    exact commit_carried_of_spares (deleteModelAlias_keeps sparingRel_catalogued ..)
  | createInput id manifest placement objectKey now =>
    exact commit_carried_of_spares (committed_keeps (createInput_keeps ..))
  | setRemoteLocalContent id bytes now clock =>
    exact commit_carried_of_spares (committed_keeps (setRemoteLocalContent_keeps ..))
  | beginDelivery id clock =>
    exact commit_carried_of_spares (committed_keeps (beginDelivery_keeps ..))
  | commitOffset id offset => exact commit_carried_of_spares (committed_keeps (commitOffset_keeps ..))
  | setArtifactState id target now =>
    exact commit_carried (Ensures.mono ((committed_keeps (setState_carries id target now)).ensures db)
      fun _ _ h _ _ => h)
  | submit request id available uploaded now clock =>
    refine commit_carried (Ensures.mono
      (admitGeneration_claims request id available uploaded now clock db)
      fun _ db' hv a ha => ?_)
    obtain ⟨-, rfl | hclaims⟩ := hv a ha
    · exact RowRel.of_refl _
    · exact carried_of_claims hclaims
  | tryAssign assignment a now sent => exact commit_carried_of_lifecycle (tryAssign_keeps ..)
  | cancelGeneration g now =>
    exact commit_carried_of_lifecycle (cancelGeneration_keeps hdel trivial now)
  | capabilityReport w pools =>
    exact commit_carried_of_spares (capabilityReport_keeps sparingRel_catalogued w pools)
  | heartbeat w ids now clock => exact commit_carried_of_lifecycle (tryHandleHeartbeat_keeps ..)
  | attemptRunning w a now => exact commit_carried_of_lifecycle (attemptRunning_keeps ..)
  | attemptProgress w a progress now => exact commit_carried_of_lifecycle (attemptProgress_keeps ..)
  | attemptResult w a outputs now => exact absurd rfl (hop w a outputs now)
  | attemptFailed w a failure now =>
    exact commit_carried_of_lifecycle (settleAttemptFailure_keeps hends hdel w a failure now)
  | leaseRejected w a now => exact commit_carried_of_lifecycle (leaseRejected_keeps ..)
  | cancelAcknowledged w a now =>
    exact commit_carried_of_lifecycle (cancelAcknowledged_keeps hends hdel w a now)
  | expireLeases now skip =>
    exact commit_carried_of_lifecycle (expireLeases_keeps hends hdel now skip)
  | enforceExecutionDeadlines now skip =>
    exact commit_carried_of_lifecycle (enforceExecutionDeadlines_keeps hends hdel now skip)
  | propagateCancellations now => exact commit_carried_of_lifecycle (propagateCancellations_keeps now)
  | expireStarvedQueue now =>
    exact commit_carried_of_lifecycle (expireStarvedQueue_keeps hends hdel now)
  | expireArtifacts now => exact commit_carried_of_spares (expireArtifacts_keeps now)

end Carrying

/-! ## Tokens -/

/-- A delivery token is reported under one Attempt only. -/
def TokensOf (owner : String → Uuid) : Op → Db → Prop
  | .attemptResult _ a outputs _, _ => ∀ o ∈ outputs, o.deliveryToken ≠ "" → owner o.deliveryToken = a
  | _, _ => True

/-- An output with a token was recorded for the accepted Attempt that reported the token. -/
def TokensHeld (owner : String → Uuid) (db : Db) : Prop :=
  ∀ i r t, fetch db (artifact i) = some r → r.direction = .output → r.deliveryToken = some t →
    r.attemptId = some (owner t) ∧ ∃ g row, fetch db (generation g) = some row ∧
      row.acceptedAttemptId = some (owner t)

section Tokens

variable [ManifestHash] {owner : String → Uuid} {db : Db}

/-- An accepted result stays accepted. -/
theorem accepted_apply (op : Op) {g a : Uuid}
    (h : ∃ row, fetch db (generation g) = some row ∧ row.acceptedAttemptId = some a) :
    ∃ row, fetch (op.apply db) (generation g) = some row ∧ row.acceptedAttemptId = some a := by
  obtain ⟨row, hrow, hacc⟩ := h
  obtain ⟨_, hr, hra⟩ := accepted_stays_apply op (life_gen_of_fetch hrow) hacc
  obtain ⟨row', hrow', rfl⟩ := Option.map_eq_some_iff.1 hr
  exact ⟨row', hrow', hra⟩

/-- An output that is carried on keeps its token, and its Attempt stays the accepted one. -/
theorem TokensHeld.carried (h : TokensHeld owner db) (op : Op) {i : Uuid} {r : ArtifactRow}
    {t : String} (hc : ∃ r₀ ∈ fetch db (artifact i), Continues r₀ r) (hout : r.direction = .output)
    (ht : r.deliveryToken = some t) : r.attemptId = some (owner t) ∧ ∃ g row,
      fetch (op.apply db) (generation g) = some row ∧ row.acceptedAttemptId = some (owner t) := by
  obtain ⟨r₀, hr₀, hc⟩ := hc
  obtain ⟨hattempt, g, hacc⟩ := h i r₀ t hr₀ (hc.direction.symm.trans hout) (hc.token.symm.trans ht)
  exact ⟨hc.attempt.trans hattempt, g, accepted_apply op hacc⟩

/-- Only a result brings new outputs, with the tokens of its Attempt. -/
theorem TokensHeld.apply (h : TokensHeld owner db) (op : Op) (hop : TokensOf owner op db) :
    TokensHeld owner (op.apply db) := by
  intro i r t hr hout ht
  by_cases hres : ∀ w a outputs now, op ≠ .attemptResult w a outputs now
  · exact h.carried op (op.carries hres db (artifact i) r hr hout) hout ht
  simp only [not_forall, not_not] at hres
  obtain ⟨w, a, outputs, now, rfl⟩ := hres
  -- what the result leaves, where it commits
  have hleaves : (Op.attemptResult w a outputs now).apply db = db ∨ ∃ reply,
      ResultLeaves db w a outputs reply ((Op.attemptResult w a outputs now).apply db) := by
    change (tryHandleAttemptResult w a outputs now).commit db = db ∨ ∃ reply,
      ResultLeaves db w a outputs reply ((tryHandleAttemptResult w a outputs now).commit db)
    rw [Prog.commit]
    split
    · rename_i reply db' hrun
      exact .inr ⟨reply, (attemptResult_ensures w a outputs now db).of_run hrun reply rfl⟩
    · exact .inl rfl
  have hcarried : carriedRel.Of db ((Op.attemptResult w a outputs now).apply db) →
      r.attemptId = some (owner t) ∧ ∃ g row, fetch ((Op.attemptResult w a outputs now).apply db)
        (generation g) = some row ∧ row.acceptedAttemptId = some (owner t) :=
    fun hrel => h.carried _ (hrel (artifact i) r hr hout) hout ht
  rcases hleaves with he | ⟨reply, hleaves⟩
  · exact hcarried (he.symm ▸ RowRel.of_refl db)
  cases reply with
  | accepted g =>
    -- first the result is accepted, then outputs are recorded, at last inputs deleted
    obtain ⟨db₁, db₂, hsame, ⟨row, hrow, hacc⟩, hrec, hd⟩ := hleaves
    have hr₂ : fetch db₂ (artifact i) = some r := by
      refine (hd.kept i fun r' hr' hin => ?_).symm.trans hr
      cases (hd.deleted i r' hr' hin).symm.trans hr
    -- the output was there before, or is one of the report
    rcases hrec.origin hr₂ with hr₁ | ⟨o, ho, hrecords⟩
    · exact h.carried _ ⟨r, (hsame i).symm.trans hr₁, rfl, rfl, rfl, rfl⟩ hout ht
    · have htoken := hrecords.token.symm.trans ht
      split at htoken
      · cases htoken
      rename_i hne
      obtain rfl : o.deliveryToken = t := Option.some_inj.1 htoken
      have howner : owner o.deliveryToken = a := hop o ho (by simpa using hne)
      refine ⟨howner ▸ hrecords.attempt, g, row, ?_, howner ▸ hacc⟩
      rw [hd.others (generation g) fun _ => (by simp), hrec.generations g]
      exact hrow
  | acceptedReplay | discard | failed | malformed | refused =>
    exact hcarried (carried_of_lifecycle hleaves.2)

/-- The tokens of outputs are held in every state reached. -/
theorem tokensHeld_of_reaches (hdb : ReachesBy (TokensOf owner) db) : TokensHeld owner db := by
  refine Machine.Reachable.invariant (I := TokensHeld owner) ?_ ?_ hdb
  · rintro _ ⟨tenantId, rfl⟩
    have hempty : ∀ i, fetch (Db.initial tenantId) (artifact i) = none := fun _ => rfl
    intro i r t hr
    cases (hempty i).symm.trans hr
  · rintro db _ _ h ⟨op, hop, rfl⟩
    exact h.apply op hop

end Tokens

/-! ## Messages -/

section Messages

variable {w : AuthenticatedWorker} {a : Uuid} {outputs : List AttemptOutput} {now : Time} {db : Db}

/-- The Worker of the accepted Attempt is told that its result is a replay. -/
theorem acceptResult_replays {s : AttemptRow} {row : GenerationRow} (now : Time)
    (hs : fetch db (attempt a) = some s) (hw : s.workerId = w.workerId)
    (hsucceeded : s.state = .succeeded) (hrow : fetch db (generation s.generationId) = some row)
    (hacc : row.acceptedAttemptId = some a) :
    (Generations.acceptResult a w.workerId now).Ensures ⊤
      (fun out _ => out = .acceptedReplay) db := by
  refine ensures_lock (fun lease hlease _ => ?_) fun hmiss => ?_
  · obtain rfl : lease = s := Option.some_inj.1 (hlease.symm.trans hs)
    rw [done_bind]
    refine ensures_lock (fun row' hrow' _ => ?_) fun hmiss => ?_
    · obtain rfl : row' = row := Option.some_inj.1 (hrow'.symm.trans hrow)
      rw [done_bind]
      dsimp only
      rw [if_pos (by simp [hsucceeded, hacc])]
      exact ensures_done rfl
    · simp [hrow] at hmiss
  · simp [hs, hw] at hmiss

variable [ManifestHash]

/-- A result that is answered by discards changes nothing. -/
theorem attemptResult_unchanged (w : AuthenticatedWorker) (a : Uuid) (outputs : List AttemptOutput)
    (now : Time) (db : Db) : (tryHandleAttemptResult w a outputs now).Ensures ⊤
      (fun v db' => v = .commit .acceptedReplay ∨ v = .commit .discard → db' = db) db := by
  refine ensures_tryRead fun loaded _ => ?_
  rw [done_bind]
  dsimp only
  split
  · refine ensures_bind
      (Ensures.mono ((settleAttemptFailure_noneSucceeds w a _ now).ensures db) fun v db' _ => ?_)
    split <;> exact ensures_done nofun
  refine authenticated_ensures nofun fun _ => ensures_bind
    (Ensures.mono (acceptResult_ensures a w.workerId now) fun out db₁ h => ?_)
  rcases h with ⟨hnot, rfl⟩ | ⟨g, rfl, -⟩
  · cases out with
    | accepted g => exact absurd rfl (hnot g)
    | acceptedReplay | staleLease | alreadyAccepted | terminal => exact ensures_done fun _ => rfl
  refine ensures_bind (Ensures.mono
    (recordOutputs_ensures ⟨loaded.1, w.workerId, a, g⟩ outputs now db₁)
    fun oks db₂ _ => ?_)
  split
  · exact ensures_done nofun
  · exact ensures_bind (Ensures.mono (deleteInputs_ensures g db₂) fun _ _ _ => ensures_done nofun)

/-- A result whose acceptance is a replay is not answered otherwise, unless it is oversized. -/
theorem attemptResult_replays
    (haccept : (Generations.acceptResult a w.workerId now).Ensures ⊤
      (fun out _ => out = .acceptedReplay) db) :
    (tryHandleAttemptResult w a outputs now).Ensures ⊤ (fun v _ => v ≠ .commit .discard) db := by
  refine ensures_tryRead fun loaded _ => ?_
  rw [done_bind]
  dsimp only
  split
  · refine ensures_bind
      (Ensures.mono ((settleAttemptFailure_noneSucceeds w a _ now).ensures db) fun v db' _ => ?_)
    split <;> exact ensures_done nofun
  refine authenticated_ensures nofun fun _ => ensures_bind (Ensures.mono haccept fun out db₁ h => ?_)
  subst h
  exact ensures_done nofun

/-- What the messages say, and after which answers. -/
theorem mem_resultDiscards {d : DiscardOutput} (h : d ∈ resultDiscards w a outputs now db) :
    (∃ o ∈ outputs, o.deliveryToken = d.deliveryToken ∧ o.deliveryToken ≠ "") ∧
    ∃ reply db', (tryHandleAttemptResult w a outputs now).run db = .ok (.commit reply, db') ∧
      (reply = .discard ∨ reply = .acceptedReplay ∧ d.deliveryToken ∉ acceptedTokens a db') := by
  have hmem : ∀ {tokens reason}, d ∈ discardWorkerOutputs outputs tokens reason →
      (∃ o ∈ outputs, o.deliveryToken = d.deliveryToken ∧ o.deliveryToken ≠ "") ∧
          d.deliveryToken ∉ tokens := by
    intro tokens reason hd
    obtain ⟨o, ho, rfl⟩ := List.mem_map.1 hd
    obtain ⟨ho, htoken⟩ := List.mem_filter.1 ho
    simp only [Bool.and_eq_true, Bool.not_eq_true', String.isEmpty_eq_false_iff,
      decide_eq_true_eq] at htoken
    exact ⟨⟨o, ho, rfl, htoken.1⟩, htoken.2⟩
  unfold resultDiscards at h
  split at h
  · rename_i db' hrun
    exact ⟨(hmem h).1, _, db', hrun, .inr ⟨rfl, (hmem h).2⟩⟩
  · rename_i db' hrun
    exact ⟨(hmem h).1, _, db', hrun, .inl rfl⟩
  · cases h

omit [ManifestHash] in
/-- A recorded output is one of its Attempt's. -/
theorem mem_acceptedTokens {i : Uuid} {r : ArtifactRow} {t : String}
    (hr : fetch db (artifact i) = some r) (hattempt : r.attemptId = some a)
    (hout : r.direction = .output) (ht : r.deliveryToken = some t) :
    t ∈ acceptedTokens a db := by
  refine List.mem_filterMap.2 ⟨(i, r), Table.mem_rows.2 hr, ?_⟩
  rw [if_pos (by simp [hattempt, hout])]
  exact ht

/-- In a run in which every delivery token is reported under one Attempt, the Worker of the
    Attempt is told to discard no token of a recorded output. A result that is classified as
    stale, as already accepted or as terminal is answered by a discard of every token. -/
theorem accepted_outputs_kept {owner : String → Uuid} (hdb : ReachesBy (TokensOf owner) db)
    (w : AuthenticatedWorker) (a : Uuid) (outputs : List AttemptOutput) (now : Time)
    (hmessage : TokensOf owner (.attemptResult w a outputs now) db) :
    (∀ d ∈ resultDiscards w a outputs now db, ∀ i r,
      fetch ((Op.attemptResult w a outputs now).apply db) (artifact i) = some r →
      r.direction = .output →
      r.deliveryToken = some d.deliveryToken →
      ∀ s, fetch db (attempt a) = some s → s.workerId ≠ w.workerId) ∧
    ∀ db', (tryHandleAttemptResult w a outputs now).run db = .ok (.commit .discard, db') →
      ∀ o ∈ outputs, o.deliveryToken ≠ "" →
        ∃ d ∈ resultDiscards w a outputs now db, d.deliveryToken = o.deliveryToken := by
  refine ⟨fun d hd i r hr hout ht s hs hw => ?_, fun db' hrun o ho htoken => ?_⟩
  · obtain ⟨⟨o, ho, htoken, hne⟩, reply, db', hrun, hreply⟩ := mem_resultDiscards hd
    obtain rfl : db' = db := (attemptResult_unchanged w a outputs now db).of_run hrun
      (by rcases hreply with rfl | ⟨rfl, -⟩ <;> simp)
    have hstored : fetch db' (artifact i) = some r := by
      change fetch ((tryHandleAttemptResult w a outputs now).commit db') (artifact i) = some r at hr
      rwa [Prog.commit, hrun] at hr
    -- the token is this Attempt's, so its result is the accepted one
    have howner : owner d.deliveryToken = a := htoken ▸ hmessage o ho hne
    obtain ⟨hattempt, g, row, hrow, hacc⟩ :=
      tokensHeld_of_reaches hdb i r d.deliveryToken hstored hout ht
    rw [howner] at hattempt hacc
    obtain ⟨hsome, hagree, -⟩ := resultsAgree_of_sound hdb.sound hrow
    obtain ⟨a', s', ha', hs', hg, hsucceeded⟩ := hagree.1 (hsome.2 (by simp [hacc]))
    obtain rfl : a' = a := Option.some_inj.1 (ha'.symm.trans hacc)
    obtain rfl : s' = s := Option.some_inj.1 (hs'.symm.trans hs)
    have haccept := acceptResult_replays now hs hw hsucceeded (hg ▸ hrow) hacc
    rcases hreply with rfl | ⟨rfl, hnot⟩
    · exact (attemptResult_replays haccept).of_run hrun rfl
    · exact hnot (mem_acceptedTokens hstored hattempt hout ht)
  · refine ⟨⟨o.deliveryToken, "result rejected: stale lease, duplicate, or terminal generation"⟩,
      ?_, rfl⟩
    rw [resultDiscards, hrun]
    exact List.mem_map.2 ⟨o, List.mem_filter.2 ⟨ho, by simp [htoken]⟩, rfl⟩

end Messages

namespace Sample

/-- A second image that the accepted result did not report. -/
def spare : AttemptOutput := { picture with artifactId := 62, deliveryToken := "u" }

/-- The first Worker's result is accepted. -/
def accepted : List Op := [firstLease, .attemptResult alpha 41 [picture] 0]

theorem reaches_accepted : @ReachesBy manifestHash (TokensOf fun _ => 41) (after accepted) := by
  let _ := manifestHash
  refine Machine.reachable_run (.init ⟨1, rfl⟩) _ ?_
  exact ⟨trivial, trivial, trivial, trivial, trivial, trivial, trivial, fun _ _ _ => rfl, trivial⟩

end Sample

/-- Another Worker that reports the accepted Attempt with its token is told to discard it. -/
theorem discard_sent :
    @ReachesBy Sample.manifestHash (TokensOf fun _ => 41) (Sample.after Sample.accepted) ∧
    TokensOf (fun _ => 41) (.attemptResult Sample.beta 41 [Sample.picture] 0)
      (Sample.after Sample.accepted) ∧
    "t" ∈ (@resultDiscards Sample.manifestHash Sample.beta 41 [Sample.picture] 0
      (Sample.after Sample.accepted)).map DiscardOutput.deliveryToken ∧
    (fetch (@Op.apply Sample.manifestHash (.attemptResult Sample.beta 41 [Sample.picture] 0)
      (Sample.after Sample.accepted)) (artifact 61)).any fun r : ArtifactRow =>
        r.direction = .output && r.deliveryToken = some "t" :=
  ⟨Sample.reaches_accepted, fun _ _ _ => rfl, by decide +kernel, by decide +kernel⟩

/-- A replay with one output more: only that one is discarded. -/
theorem accepted_outputs_kept_replayed :
    (@resultDiscards Sample.manifestHash Sample.alpha 41 [Sample.picture, Sample.spare] 0
      (Sample.after Sample.accepted)).map DiscardOutput.deliveryToken = ["u"] ∧
    ∀ d ∈ @resultDiscards Sample.manifestHash Sample.alpha 41 [Sample.picture, Sample.spare] 0
        (Sample.after Sample.accepted), ∀ i r,
      fetch (@Op.apply Sample.manifestHash
        (.attemptResult Sample.alpha 41 [Sample.picture, Sample.spare] 0)
        (Sample.after Sample.accepted)) (artifact i) = some r → r.direction = .output →
      r.deliveryToken = some d.deliveryToken →
      ∀ s, fetch (Sample.after Sample.accepted) (attempt 41) = some s → s.workerId ≠ 11 := by
  let _ := Sample.manifestHash
  exact ⟨by decide +kernel, (accepted_outputs_kept Sample.reaches_accepted Sample.alpha 41
    [Sample.picture, Sample.spare] 0 fun _ _ _ => rfl).1⟩

end Gpq
