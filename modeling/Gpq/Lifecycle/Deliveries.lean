import Gpq.Lifecycle.Begun

/-!
# Deliveries

What one step of the delivery of a Worker-local output does, whatever the Worker sends and
however often the stream breaks. A delivery that goes on has passed a prefix of what it accepted
(`Underway`), and one that is over has left its Artifact in a terminal state (`Concluded`): the
client was passed the whole of it only when it has the digest of the manifest, and only then the
Artifact is consumed.

  * `Underway.drainData`: a chunk is passed on, and its offset persisted; the final one is held
    back until the end of the Worker's stream;
  * `Underway.drainComplete`: at the end of the stream the final chunk follows, if the digest is
    right;
  * `Underway.streamWorkerLocal`: every step of the task keeps a delivery underway, or ends it.
-/

namespace Gpq

open Sql DbKey Prog

namespace Delivery

/-- What the client was passed, item by item. -/
def items (self : Delivery) : List Bytes := self.body.filterMap Except.toOption

/-- The same delivery, which may have accepted more but passed nothing on. -/
structure Continues (t t' : Delivery) : Prop where
  artifact : t'.artifactId = t.artifactId
  size : t'.expectedSize = t.expectedSize
  digest : t'.expectedDigest = t.expectedDigest
  items : t'.items = t.items
  accepted : t.accepted <+: t'.accepted

/-- The row of an Artifact that is being delivered. -/
structure Serves (t : Delivery) (row : ArtifactRow) : Prop where
  state : row.state = .delivering
  size : row.manifest.sizeBytes = t.expectedSize
  digest : row.manifest.digest = t.expectedDigest

/-- A delivery that goes on, and the row of its Artifact. -/
structure Underway (t : Delivery) (row : ArtifactRow) : Prop extends t.Serves row where
  hashed : t.hasher.bytes = t.accepted
  counted : t.offset.toNat = t.accepted.length
  bounded : t.offset ≤ t.expectedSize
  split : t.passed ++ t.pending.getD [] = t.accepted
  held : ∀ bytes ∈ t.pending, bytes ≠ [] ∧ t.offset = t.expectedSize
  below : t.pending = none → t.offset < t.expectedSize ∨ t.expectedSize = 0
  empty : t.expectedSize = 0 → t.items = []
  committed : row.committedOffset = t.passed.length

/-- What the client was passed can be trusted: it is the beginning of the accepted data, and
    all of it only if the manifest's digest is right. -/
structure Verified [Sha256] (t : Delivery) : Prop where
  passed : t.passed <+: t.accepted
  bounded : t.passed.length ≤ t.expectedSize.toNat
  verified : t.items ≠ [] → t.passed.length = t.expectedSize.toNat →
    Sha256.digest t.passed = t.expectedDigest

/-- A delivery that is over, and the row of its Artifact. -/
structure Concluded [Sha256] (t : Delivery) (row : ArtifactRow) : Prop extends t.Verified where
  size : row.manifest.sizeBytes = t.expectedSize
  digest : row.manifest.digest = t.expectedDigest
  terminal : row.state.isTerminal
  consumed : row.state = .consumed → t.items ≠ [] ∧ t.passed.length = t.expectedSize.toNat

/-- A delivery and the row of its Artifact. -/
def Kept [Sha256] (t : Delivery) (row : ArtifactRow) : Prop :=
  if t.phase = .done then t.Concluded row else t.Underway row

section Fields

variable {t : Delivery} {answers : Answers}

theorem passed_eq (t : Delivery) : t.passed = t.items.flatten := rfl

/-- An error that is sent is no part of the content. -/
theorem items_send_error (message : String) : (t.send answers (.error message)).items = t.items := by
  unfold send
  split
  · simp [items, Except.toOption]
  · rfl

/-- Only the response changes where an item is handed to it. -/
theorem send_eq (item : Except String Bytes) : t.send answers item =
    { t with body := (t.send answers item).body } := by
  unfold send
  split <;> rfl

end Fields

/-! ## Steps -/

section Steps

variable {t : Delivery} {row : ArtifactRow} {db : Db} {answers : Answers}

theorem Underway.passed_prefix (h : t.Underway row) : t.passed <+: t.accepted := ⟨_, h.split⟩

/-- Not everything was passed yet. -/
theorem Underway.incomplete (h : t.Underway row) (hitems : t.items ≠ []) :
    t.passed.length < t.expectedSize.toNat := by
  have hsplit := congrArg List.length h.split
  rw [List.length_append, ← h.counted] at hsplit
  have hle := UInt64.le_iff_toNat_le.1 h.bounded
  cases hp : t.pending with
  | none =>
    rcases h.below hp with hlt | hzero
    · have := UInt64.lt_iff_toNat_lt.1 hlt
      rw [hp] at hsplit
      simp only [Option.getD_none, List.length_nil] at hsplit
      omega
    · exact absurd (h.empty hzero) hitems
  | some bytes =>
    obtain ⟨hne, -⟩ := h.held bytes hp
    rw [hp] at hsplit
    have := List.length_pos_iff.2 hne
    simp only [Option.getD_some] at hsplit
    omega

/-- A delivery under way has not passed on everything: nothing is to be verified yet. -/
theorem Underway.verified [Sha256] {t' : Delivery} (h : t.Underway row) (hc : t.Continues t') :
    t'.Verified where
  passed := by
    rw [passed_eq, hc.items]
    exact h.passed_prefix.trans hc.accepted
  bounded := by
    rw [passed_eq, hc.items, hc.size]
    by_cases hnil : t.items = []
    · simp [hnil]
    · exact (h.incomplete hnil).le
  verified hne hfull := by
    rw [passed_eq, hc.items, hc.size] at hfull
    rw [hc.items] at hne
    exact absurd hfull (h.incomplete hne).ne

/-- What a step of a delivery leaves. -/
structure Leaves [Sha256] (t : Delivery) (row : ArtifactRow) (db : Db) (r : Delivery × Db) :
    Prop where
  same : r.1.artifactId = t.artifactId
  others : ∀ k, k ≠ artifact t.artifactId → fetch r.2 k = fetch db k
  row : ∃ row', fetch r.2 (artifact t.artifactId) = some row' ∧ row'.direction = row.direction ∧
    r.1.Kept row'

/-- What a delivery leaves of its own row does not depend on what the row was before. -/
theorem Leaves.of_store [Sha256] {row' : ArtifactRow} {r : Delivery × Db}
    (h : t.Leaves row' (store db (artifact t.artifactId) (some row')) r)
    (hdirection : row'.direction = row.direction) : t.Leaves row db r := by
  obtain ⟨row'', hrow, hdir, hkept⟩ := h.row
  refine ⟨h.same, fun k hk => ?_, row'', hrow, hdir.trans hdirection, hkept⟩
  rw [h.others k hk]
  exact Db.fetch_store_ne db _ hk

/-- The end of a delivery is an edge of the Artifact's state machine. -/
theorem settle_fetch {target : ArtifactState} (hrow : fetch db (artifact t.artifactId) = some row)
    (hstate : row.state = .delivering) (htarget : target.isTerminal) (hsettles : answers.settles) :
    (∀ k, k ≠ artifact t.artifactId → fetch (t.settle answers target db) k = fetch db k) ∧
    ∃ row', fetch (t.settle answers target db) (artifact t.artifactId) = some row' ∧
      row'.direction = row.direction ∧ row'.manifest = row.manifest ∧ row'.state = target := by
  have hedge : row.state.transition target = .ok target := by
    rw [hstate]
    revert htarget
    cases target <;> decide
  have hyields : (moveArtifact t.artifactId target answers.now).Yields (fun v db' =>
      v = .commit () ∧ ∃ row' : ArtifactRow, db' = store db (artifact t.artifactId) (some row') ∧
        row'.direction = row.direction ∧ row'.manifest = row.manifest ∧ row'.state = target) db := by
    refine yields_bind (yields_read ?_)
    rw [hrow, done_bind]
    dsimp only
    rw [hedge]
    refine yields_update hrow (by simp) (yields_read ?_)
    rw [Database.fetch_store_self]
    exact yields_done (yields_done ⟨rfl, _, rfl, rfl, rfl, rfl⟩)
  obtain ⟨_, _, hrun, rfl, row', rfl, hdirection, hmanifest, hstate'⟩ := hyields
  have hsettle : t.settle answers target db = store db (artifact t.artifactId) (some row') := by
    rw [settle, if_pos hsettles, Prog.commit, hrun]
  rw [hsettle]
  exact ⟨fun k hk => Db.fetch_store_ne db _ hk, row', Database.fetch_store_self .., hdirection,
    hmanifest, hstate'⟩

/-- The persisted offset: it is the one in memory, or the transaction failed. -/
theorem persist_cases (hrow : fetch db (artifact t.artifactId) = some row)
    (hstate : row.state = .delivering) (hlt : row.committedOffset < t.offset.toNat) :
    t.persistDeliveryOffset answers db = (false, db) ∨
    t.persistDeliveryOffset answers db = (true, store db (artifact t.artifactId)
      (some { row with committedOffset := t.offset.toNat })) := by
  unfold Delivery.persistDeliveryOffset
  split
  · exact .inl rfl
  have hguard : (decide (row.state = .delivering) &&
      decide (row.committedOffset < t.offset.toNat)) = true := by
    simp [hstate, hlt]
  have hrun : (Artifacts.commitOffset t.artifactId t.offset).run db =
      if t.offset.toNat ≤ i64Max then .ok (true, store db (artifact t.artifactId)
        (some { row with committedOffset := t.offset.toNat })) else .error .decode := by
    rw [Artifacts.commitOffset, Prog.exec, run_step_require, run_step_update, hrow,
      Option.filter_some, if_pos hguard]
    simp only [decide_eq_true_eq]
    rfl
  rw [hrun]
  by_cases hfits : t.offset.toNat ≤ i64Max
  · rw [if_pos hfits]
    exact .inr rfl
  · rw [if_neg hfits]
    exact .inl rfl

variable [Sha256]

/-- A delivery ends. -/
theorem Serves.ends {t₁ t' : Delivery} {target : ArtifactState} (h : t.Serves row)
    (hrow : fetch db (artifact t.artifactId) = some row) (hsettles : answers.settles)
    (hid : t₁.artifactId = t.artifactId) (hid' : t'.artifactId = t.artifactId)
    (hsize : t'.expectedSize = t.expectedSize) (hdigest : t'.expectedDigest = t.expectedDigest)
    (hv : t'.Verified) (hphase : t'.phase = .done) (htarget : target.isTerminal)
    (hconsumed : target = .consumed → t'.items ≠ [] ∧ t'.passed.length = t'.expectedSize.toNat) :
    t.Leaves row db (t', t₁.settle answers target db) := by
  obtain ⟨hothers, row', hrow', hdirection, hmanifest, hstate⟩ :=
    settle_fetch (hid ▸ hrow) h.state htarget hsettles
  rw [hid] at hothers hrow'
  refine ⟨hid', hothers, row', hrow', hdirection, ?_⟩
  rw [Kept, if_pos hphase]
  refine ⟨hv, ?_, ?_, hstate ▸ htarget, hstate ▸ hconsumed⟩
  · rw [hmanifest, h.size, hsize]
  · rw [hmanifest, h.digest, hdigest]

/-- A delivery that has passed something on, but is not consumed. -/
theorem Serves.fails {t₁ : Delivery} (h : t.Serves row)
    (hrow : fetch db (artifact t.artifactId) = some row) (hsettles : answers.settles)
    (hid : t₁.artifactId = t.artifactId) (hsize : t₁.expectedSize = t.expectedSize)
    (hdigest : t₁.expectedDigest = t.expectedDigest) (hv : t₁.Verified) (message : String) :
    t.Leaves row db (t₁.failDelivery answers message db) := by
  have hitems : (t₁.finish.send answers (.error message)).items = t₁.items := items_send_error message
  rw [Delivery.failDelivery]
  rw [send_eq] at hitems ⊢
  refine h.ends hrow hsettles hid hid hsize hdigest ⟨?_, ?_, ?_⟩ rfl rfl nofun
  · rw [passed_eq, hitems]
    exact hv.passed
  · rw [passed_eq, hitems]
    exact hv.bounded
  · rw [passed_eq, hitems]
    exact hv.verified

theorem Underway.failDelivery {t₁ : Delivery} (h : t.Underway row)
    (hrow : fetch db (artifact t.artifactId) = some row) (hsettles : answers.settles)
    (hc : t.Continues t₁) (message : String) : t.Leaves row db (t₁.failDelivery answers message db) :=
  h.toServes.fails hrow hsettles hc.artifact hc.size hc.digest (h.verified hc) message

/-- A delivery that is discarded ends. -/
theorem Underway.discardAndExpire {t₁ : Delivery} (h : t.Underway row)
    (hrow : fetch db (artifact t.artifactId) = some row) (hsettles : answers.settles)
    (hc : t.Continues t₁) (reason : String) :
    t.Leaves row db (t₁.discardAndExpire answers reason db) :=
  have hv := h.verified hc
  h.toServes.ends hrow hsettles hc.artifact hc.artifact hc.size hc.digest
    ⟨hv.passed, hv.bounded, hv.verified⟩
    rfl rfl nofun

/-- A delivery goes on, and the database is as it was. -/
theorem Underway.goesOn {t' : Delivery} (h : t'.Underway row)
    (hrow : fetch db (artifact t.artifactId) = some row) (hid : t'.artifactId = t.artifactId)
    (hphase : t'.phase ≠ .done) : t.Leaves row db (t', db) := by
  refine ⟨hid, fun _ _ => rfl, row, hrow, rfl, ?_⟩
  rw [Kept, if_neg hphase]
  exact h

/-- A delivery is resumed where it stands, or fails after too many tries. -/
theorem Underway.resume (h : t.Underway row) (hrow : fetch db (artifact t.artifactId) = some row)
    (hsettles : answers.settles) (message : String) :
    t.Leaves row db (t.resume answers message db) := by
  unfold Delivery.resume
  dsimp only
  split
  · refine h.failDelivery hrow hsettles ?_ message
    exact ⟨rfl, rfl, rfl, rfl, List.prefix_refl _⟩
  · exact Underway.goesOn { h with } hrow rfl nofun

/-- A Worker that is asked again is asked for the rest; without one the delivery fails. -/
theorem Underway.requestWorkerDelivery (h : t.Underway row) (hphase : t.phase ≠ .done)
    (hrow : fetch db (artifact t.artifactId) = some row) (hsettles : answers.settles)
    (outcome : SendOutcome) : t.Leaves row db (t.requestWorkerDelivery answers outcome db) := by
  unfold Delivery.requestWorkerDelivery
  cases outcome with
  | delivered => exact Underway.goesOn { h with } hrow rfl nofun
  | offline => exact h.failDelivery hrow hsettles ⟨rfl, rfl, rfl, rfl, List.prefix_refl _⟩ _
  | backpressured =>
    dsimp only
    split
    · -- nobody waits for the content any more
      rw [Delivery.discardAndExpire, send_eq]
      refine h.toServes.ends hrow hsettles rfl rfl rfl rfl
        (h.verified ⟨rfl, rfl, rfl, ?_, List.prefix_refl _⟩)
        rfl rfl nofun
      rw [← send_eq, items_send_error]
      rfl
    · exact Underway.goesOn { h with } hrow rfl hphase

/-- The same delivery, which has handed another item to the client. -/
structure Hands (t t' : Delivery) (bytes : Bytes) : Prop where
  artifact : t'.artifactId = t.artifactId
  size : t'.expectedSize = t.expectedSize
  digest : t'.expectedDigest = t.expectedDigest
  items : t'.items = t.items ++ [bytes]

omit [Sha256] in
theorem items_append (t : Delivery) (bytes : Bytes) :
    ({ t with body := t.body ++ [.ok bytes] } : Delivery).items = t.items ++ [bytes] := by
  simp [items, Except.toOption]

omit [Sha256] in
theorem Hands.passed {t' : Delivery} {bytes : Bytes} (h : t.Hands t' bytes) :
    t'.passed = t.passed ++ bytes := by
  rw [passed_eq, h.items, List.flatten_append, ← passed_eq]
  simp

omit [Sha256] in
/-- Where more bytes fit, nothing is held back: no byte comes after the final chunk. -/
theorem Underway.nothing_held (h : t.Underway row) {next : UInt64} {bytes : Bytes}
    (hnext : next.toNat = t.offset.toNat + bytes.length) (hle : next ≤ t.expectedSize)
    (hpos : 0 < bytes.length) : t.pending = none ∧ t.passed = t.accepted := by
  have hpending : t.pending = none := by
    cases hp : t.pending with
    | none => rfl
    | some held =>
      obtain ⟨-, hfull⟩ := h.held held hp
      have := UInt64.le_iff_toNat_le.1 hle
      rw [← hfull] at this
      omega
  exact ⟨hpending, by simpa [hpending] using h.split⟩

omit [Sha256] in
/-- The final chunk is held back. -/
theorem Underway.holds (h : t.Underway row) {next : UInt64} {bytes : Bytes}
    (hnext : next.toNat = t.offset.toNat + bytes.length) (hfull : next = t.expectedSize)
    (hpos : 0 < bytes.length) :
    ({ t with
      hasher := t.hasher.update bytes
      accepted := t.accepted ++ bytes
      offset := next
      pending := some bytes } : Delivery).Underway row := by
  have hle : next ≤ t.expectedSize := by
    rw [hfull]
    exact UInt64.le_refl _
  obtain ⟨-, hall⟩ := h.nothing_held hnext hle hpos
  exact { h with
    hashed := by
      change (t.hasher.update bytes).bytes = t.accepted ++ bytes
      rw [Hasher.update, h.hashed]
    counted := by
      change next.toNat = (t.accepted ++ bytes).length
      rw [List.length_append, hnext, h.counted]
    bounded := hle
    split := by
      change t.passed ++ bytes = t.accepted ++ bytes
      rw [hall]
    held := by
      rintro _ ⟨⟩
      exact ⟨List.length_pos_iff.1 hpos, hfull⟩
    below := by rintro ⟨⟩
    empty := h.empty }

/-- A delivery that has passed on all that it accepted, and has persisted that. -/
theorem Serves.passesOn {t₂ : Delivery} {bytes : Bytes} (h : t.Serves row)
    (hands : t.Hands t₂ bytes) (hphase : t₂.phase ≠ .done) (hpending : t₂.pending = none)
    (hhashed : t₂.hasher.bytes = t₂.accepted) (hcounted : t₂.offset.toNat = t₂.accepted.length)
    (hpassed : t₂.passed = t₂.accepted) (hlt : t₂.offset < t₂.expectedSize) :
    t.Leaves row db (t₂, store db (artifact t₂.artifactId)
      (some { row with committedOffset := t₂.offset.toNat })) := by
  refine ⟨hands.artifact, fun k hk => ?_, { row with committedOffset := t₂.offset.toNat }, ?_,
    rfl, ?_⟩
  · rw [hands.artifact]
    exact Db.fetch_store_ne db _ hk
  · rw [hands.artifact]
    exact Database.fetch_store_self ..
  rw [Kept, if_neg hphase]
  exact {
    state := h.state
    size := h.size.trans hands.size.symm
    digest := h.digest.trans hands.digest.symm
    hashed := hhashed
    counted := hcounted
    bounded := UInt64.le_of_lt hlt
    split := by
      rw [hpending, hpassed]
      simp
    held := by
      intro held hheld
      rw [hpending] at hheld
      cases hheld
    below := fun _ => .inl hlt
    empty := fun hzero => by
      rw [hzero] at hlt
      exact absurd hlt (UInt64.not_lt.2 (UInt64.le_iff_toNat_le.2 (Nat.zero_le _)))
    committed := by rw [hpassed, ← hcounted] }

/-- A delivery hands a chunk on that is not the final one. -/
theorem Underway.hands (h : t.Underway row) (hphase : t.phase ≠ .done)
    (hrow : fetch db (artifact t.artifactId) = some row) (hsettles : answers.settles)
    {next : UInt64} {bytes : Bytes} (hnext : next.toNat = t.offset.toNat + bytes.length)
    (hlt : next < t.expectedSize) (hpos : 0 < bytes.length) {t₂ : Delivery}
    (ht₂ : { t with
      hasher := t.hasher.update bytes
      accepted := t.accepted ++ bytes
      offset := next
      body := t.body ++ [.ok bytes] } = t₂) :
    (∀ message, t.Leaves row db (t₂.failDelivery answers message db)) ∧
    t.Leaves row db (t₂, store db (artifact t₂.artifactId)
      (some { row with committedOffset := t₂.offset.toNat })) ∧
    row.committedOffset < t₂.offset.toNat := by
  obtain ⟨hpending, hall⟩ := h.nothing_held hnext (UInt64.le_of_lt hlt) hpos
  have hands : t.Hands t₂ bytes := ht₂ ▸ ⟨rfl, rfl, rfl, items_append t bytes⟩
  have haccepted : t₂.accepted = t.accepted ++ bytes := ht₂ ▸ rfl
  have hoffset : t₂.offset = next := ht₂ ▸ rfl
  have hhashed : t₂.hasher.bytes = t₂.accepted := by
    rw [haccepted, ← h.hashed, ← ht₂]
    rfl
  have hpassed : t₂.passed = t₂.accepted := by rw [hands.passed, hall, haccepted]
  have hcounted : t₂.offset.toNat = t₂.accepted.length := by
    rw [hoffset, haccepted, List.length_append, hnext, h.counted]
  have hlt₂ : t₂.offset < t₂.expectedSize := by
    rw [hoffset, hands.size]
    exact hlt
  have hshort : t₂.passed.length < t₂.expectedSize.toNat := by
    rw [hpassed, ← hcounted]
    exact UInt64.lt_iff_toNat_lt.1 hlt₂
  refine ⟨fun message => ?_, ?_, ?_⟩
  · refine h.toServes.fails hrow hsettles hands.artifact hands.size hands.digest ?_ message
    exact ⟨hpassed ▸ List.prefix_refl _, hshort.le, fun _ hfull => absurd hfull hshort.ne⟩
  · have hphase₂ : t₂.phase = t.phase := ht₂ ▸ rfl
    have hpending₂ : t₂.pending = t.pending := ht₂ ▸ rfl
    exact h.toServes.passesOn hands (hphase₂ ▸ hphase)
      (hpending₂.trans hpending) hhashed hcounted hpassed hlt₂
  · rw [h.committed, hall, ← h.counted, hoffset]
    omega

/-- A chunk is refused, held back, or handed on and persisted. -/
theorem Underway.drainData (h : t.Underway row) (hphase : t.phase ≠ .done)
    (hrow : fetch db (artifact t.artifactId) = some row) (hsettles : answers.settles)
    (bytes : Bytes) :
    t.Leaves row db (t.drainData answers bytes db) := by
  have hsame : t.Continues t := ⟨rfl, rfl, rfl, rfl, List.prefix_refl _⟩
  unfold Delivery.drainData
  split
  · exact h.failDelivery hrow hsettles hsame _
  -- the chunk does not run past 64 bits, nor past the size
  rename_i next hnext
  have hnext := checkedAdd_eq_some hnext
  split
  · exact h.failDelivery hrow hsettles hsame _
  rename_i hsize
  split
  · exact h.goesOn hrow rfl hphase
  rename_i hne
  simp only [Bool.or_eq_true, decide_eq_true_eq, not_or] at hsize
  have hle : next ≤ t.expectedSize := UInt64.not_lt.1 hsize.2
  have hpos : 0 < bytes.length := List.length_pos_iff.2 (by simpa using hne)
  dsimp only
  split
  · -- the chunk ends the content: it is held back until the digest is verified
    rename_i hfull
    exact Underway.goesOn (h.holds hnext hfull hpos) hrow rfl hphase
  rename_i hpart
  split
  · refine h.discardAndExpire hrow hsettles ?_ _
    exact ⟨rfl, rfl, rfl, rfl, List.prefix_append _ _⟩
  -- it is handed on to the downloader, who is still there
  rename_i hconnected
  rw [send, if_pos (by simpa using hconnected)]
  -- the delivery after the chunk was handed on
  generalize ht₂ : ({ t with
    hasher := t.hasher.update bytes
    accepted := t.accepted ++ bytes
    offset := next
    body := t.body ++ [.ok bytes] } : Delivery) = t₂
  obtain ⟨hfails, hpasses, hcommitted⟩ :=
    h.hands hphase hrow hsettles hnext (UInt64.lt_of_le_of_ne hle hpart) hpos ht₂
  have hid : t₂.artifactId = t.artifactId := ht₂ ▸ rfl
  -- the offset is persisted, or that fails
  rcases persist_cases (hid ▸ hrow) h.state hcommitted with hp | hp
  · rw [hp]
    exact hfails _
  · rw [hp]
    exact hpasses

/-- A delivery that has passed everything on. -/
theorem Serves.completes {t₂ : Delivery} {bytes : Bytes} (h : t.Serves row)
    (hrow : fetch db (artifact t.artifactId) = some row) (hsettles : answers.settles)
    (hcounted : t.offset.toNat = t.accepted.length) (hfull : t.offset = t.expectedSize)
    (hright : Sha256.digest t.accepted = t.expectedDigest) (hands : t.Hands t₂ bytes)
    (haccepted : t₂.accepted = t.accepted) (hall : t.passed ++ bytes = t.accepted) :
    t₂.Verified ∧ t.Leaves row db (t₂.consume answers db) := by
  have hpassed : t₂.passed = t.accepted := hands.passed.trans hall
  have hlength : t₂.passed.length = t₂.expectedSize.toNat := by
    rw [hpassed, hands.size, ← hfull, hcounted]
  have hitems : t₂.items ≠ [] := by
    rw [hands.items]
    exact List.append_ne_nil_of_right_ne_nil _ (List.cons_ne_nil _ _)
  have hv : t₂.Verified := by
    refine ⟨?_, hlength.le, fun _ _ => ?_⟩
    · rw [hpassed, haccepted]
    · rw [hpassed, hands.digest]
      exact hright
  exact ⟨hv, h.ends hrow hsettles hands.artifact hands.artifact hands.size hands.digest
    ⟨hv.passed, hv.bounded, hv.verified⟩ rfl rfl fun _ => ⟨hitems, hlength⟩⟩

/-- The final chunk is handed on, and the Artifact is consumed once that is persisted. -/
theorem Underway.handsLast (h : t.Underway row)
    (hrow : fetch db (artifact t.artifactId) = some row) (hsettles : answers.settles)
    (hfull : t.offset = t.expectedSize) (hright : Sha256.digest t.accepted = t.expectedDigest)
    {bytes : Bytes} (hp : t.pending = some bytes) {t₂ : Delivery} (hands : t.Hands t₂ bytes)
    (haccepted : t₂.accepted = t.accepted) (hoffset : t₂.offset = t.offset) :
    (∀ message, t.Leaves row db (t₂.failDelivery answers message db)) ∧
    t.Leaves row db (t₂.consume answers (store db (artifact t₂.artifactId)
      (some { row with committedOffset := t₂.offset.toNat }))) ∧
    row.committedOffset < t₂.offset.toNat := by
  have hall : t.passed ++ bytes = t.accepted := by simpa [hp] using h.split
  have hcompletes {row' : ArtifactRow} {db' : Db} (h' : t.Serves row')
      (hrow' : fetch db' (artifact t.artifactId) = some row') :=
    h'.completes hrow' hsettles h.counted hfull hright hands haccepted hall
  refine ⟨fun message => ?_, ?_, ?_⟩
  · exact h.toServes.fails hrow hsettles hands.artifact hands.size hands.digest
      (hcompletes h.toServes hrow).1 message
  · rw [hands.artifact]
    refine Leaves.of_store (hcompletes ?_ (Database.fetch_store_self ..)).2 rfl
    exact ⟨h.state, h.size, h.digest⟩
  · rw [h.committed, hoffset, h.counted, ← hall, List.length_append]
    have := List.length_pos_iff.2 (h.held bytes hp).1
    omega

/-- At the end the digest is verified, and only then the last chunk is handed on. -/
theorem Underway.drainComplete (h : t.Underway row)
    (hrow : fetch db (artifact t.artifactId) = some row) (hsettles : answers.settles) :
    t.Leaves row db (t.drainComplete answers db) := by
  have hsame : t.Continues t := ⟨rfl, rfl, rfl, rfl, List.prefix_refl _⟩
  unfold Delivery.drainComplete
  split
  · exact h.failDelivery hrow hsettles hsame _
  -- size and digest are right
  rename_i hright
  simp only [Bool.or_eq_true, decide_eq_true_eq, not_or, not_not] at hright
  obtain ⟨hfull, hdigest⟩ := hright
  have hdigest : Sha256.digest t.accepted = t.expectedDigest := by
    rw [← h.hashed]
    exact hdigest
  dsimp only
  split
  · refine h.discardAndExpire hrow hsettles ?_ _
    exact ⟨rfl, rfl, rfl, rfl, List.prefix_refl _⟩
  rename_i hsend
  cases hp : t.pending with
  | none =>
    -- only an empty Artifact has no final chunk
    have hzero : t.expectedSize = 0 :=
      (h.below hp).resolve_left (by rw [hfull]; exact UInt64.lt_irrefl _)
    have hconnected : answers.connected := by simpa [hzero] using hsend
    have hall : t.passed ++ [] = t.accepted := by simpa [hp] using h.split
    rw [if_pos hzero, send, if_pos hconnected]
    dsimp only
    generalize ht₂ : ({ t with
      hasher := {}
      pending := none
      body := t.body ++ [.ok []] } : Delivery) = t₂
    have hands : t.Hands t₂ [] := ht₂ ▸ ⟨rfl, rfl, rfl, items_append t []⟩
    exact (h.toServes.completes hrow hsettles h.counted hfull hdigest hands (ht₂ ▸ rfl) hall).2
  | some bytes =>
    obtain ⟨hne, -⟩ := h.held bytes hp
    have hall : t.passed ++ bytes = t.accepted := by simpa [hp] using h.split
    -- a chunk that is held back has bytes
    have hnonzero : t.expectedSize ≠ 0 := by
      intro hzero
      have hlength := congrArg List.length hall
      rw [← h.counted, hfull, hzero, List.length_append] at hlength
      exact hne (List.length_eq_zero_iff.1 (Nat.eq_zero_of_add_eq_zero hlength).2)
    rw [if_neg hnonzero]
    dsimp only
    split
    · refine h.discardAndExpire hrow hsettles ?_ _
      exact ⟨rfl, rfl, rfl, rfl, List.prefix_refl _⟩
    rename_i hconnected
    rw [send, if_pos (by simpa using hconnected)]
    generalize ht₂ : ({ t with
      hasher := {}
      pending := none
      body := t.body ++ [.ok bytes] } : Delivery) = t₂
    have hands : t.Hands t₂ bytes := ht₂ ▸ ⟨rfl, rfl, rfl, items_append t bytes⟩
    obtain ⟨hfails, hconsumes, hcommitted⟩ :=
      h.handsLast hrow hsettles hfull hdigest hp hands (ht₂ ▸ rfl) (ht₂ ▸ rfl)
    -- the Artifact is consumed, or that fails
    rcases persist_cases (hands.artifact ▸ hrow) h.state hcommitted with hp | hp
    · rw [hp]
      exact hfails _
    · rw [hp]
      exact hconsumes

/-- Every event of a delivery under way leaves it under way, or ends it. -/
theorem Underway.streamWorkerLocal (h : t.Underway row) (hphase : t.phase ≠ .done)
    (hrow : fetch db (artifact t.artifactId) = some row) (hsettles : answers.settles)
    (event : DeliveryEvent) : t.Leaves row db (t.streamWorkerLocal event answers db) := by
  have hsame : t.Continues t := ⟨rfl, rfl, rfl, rfl, List.prefix_refl _⟩
  unfold Delivery.streamWorkerLocal
  split
  · exact h.requestWorkerDelivery hphase hrow hsettles _
  · unfold Delivery.drainWorkerChunk
    split
    · exact h.drainData hphase hrow hsettles _
    · exact h.drainComplete hrow hsettles
    · exact h.resume hrow hsettles _
    · exact h.failDelivery hrow hsettles hsame _
    · exact h.resume hrow hsettles _
  · exact h.failDelivery hrow hsettles hsame _
  · exact h.goesOn hrow rfl hphase

end Steps

end Delivery

end Gpq
