import Gpq.Lifecycle.Abstract

/-!
# Invariants of the lifecycle

What each step can do to the Slots is said once (`Motion`, `Core.motion`): leave
every live Attempt where it is, lease a queued Generation to a free Slot, or take
the live Attempt of a Generation away while the Generation stops being active.
The invariants about live Attempts follow from that.

  * `Sound` collects the invariants that every step keeps (`Core.sound`,
    `Upsert.sound`, `AckLate.sound`, `Drop.sound`);
  * `TerminalIdle` is kept by a late acknowledgement exactly when the Generation
    has no live Attempt (`AckLate.terminalIdle`);
  * `ActiveBusy` is kept by a deletion of Pools when no live Attempt is on them
    (`Drop.activeBusy`).
-/

namespace Gpq

open Function

/-- A settled Generation is not active. -/
theorem Settles.not_isActive {s t : GenerationState} (h : Settles s t) : ¬ t.isActive := by
  cases h with
  | none h => exact h
  | _ => decide

/-- A settlement neither reaches nor leaves success. -/
theorem Settles.succeeded_iff {s t : GenerationState} (h : Settles s t) :
    t = .succeeded ↔ s = .succeeded := by
  cases h with
  | fail h =>
    revert h
    cases s <;> decide
  | none h => rfl
  | _ => decide

/-- A settlement leaves a Generation in the queue only if it was running or there before. -/
theorem Settles.of_queued {s : GenerationState} (h : Settles s .queued) :
    s = .running ∨ s = .queued := by
  cases h with
  | requeue => exact .inl rfl
  | none h => exact .inr rfl

/-- How far a Generation has come: a cancellation request is not taken back, and
    neither is its end. -/
def GenerationState.stage : GenerationState → ℕ
  | queued | running => 0
  | cancelling => 1
  | _ => 2

theorem GenerationState.isTerminal_of_stage {s t : GenerationState} (hs : s.isTerminal)
    (h : s.stage ≤ t.stage) : t.isTerminal := by
  revert hs h
  cases s <;> cases t <;> decide

theorem GenerationState.stage_le_of_isTerminal (s : GenerationState) {t : GenerationState}
    (ht : t.isTerminal) : s.stage ≤ t.stage := by
  revert ht
  cases s <;> cases t <;> decide

/-- No Generation falls back when its Attempt is settled. -/
theorem Settles.stage_le {s t : GenerationState} (h : Settles s t) : s.stage ≤ t.stage := by
  cases h with
  | fail h =>
    revert h
    cases s <;> decide
  | none h => exact le_rfl
  | _ => decide

namespace Life

variable {G A P N : Type*} {l l' : Life G A P N}

/-! ## Stages -/

/-- The Generations of `l'` are those of `l`, and none is at an earlier stage. -/
def Advances (l l' : Life G A P N) : Prop :=
  ∀ g r, l.gen g = some r → ∃ r', l'.gen g = some r' ∧ r.state.stage ≤ r'.state.stage

theorem advances_refl (l : Life G A P N) : l.Advances l := fun _ r hr => ⟨r, hr, le_rfl⟩

/-- One Generation is at a later stage. -/
theorem advances_update [DecidableEq G] {g : G} {r r' : GenLife A} (hg : l.gen g = some r)
    (h : r.state.stage ≤ r'.state.stage) (hgen : l'.gen = update l.gen g (some r')) :
    l.Advances l' := by
  intro g' s hs
  rw [hgen]
  by_cases hgg : g' = g
  · subst hgg
    obtain rfl : r = s := Option.some_inj.1 (hg.symm.trans hs)
    exact ⟨r', update_self .., h⟩
  · exact ⟨s, (update_of_ne hgg ..).trans hs, le_rfl⟩

/-! ## Exclusions -/

/-- Every exclusion of `l` stands in `l'`, and no Attempt is on an excluded Pool there that
    was not there before. -/
def Remembers (l l' : Life G A P N) : Prop :=
  (∀ g p, l.Excluded g p → l'.Excluded g p) ∧
    ∀ a r, l.Excluded r.generation r.pool → l'.att a = some r → l.att a = some r

theorem remembers_refl (l : Life G A P N) : l.Remembers l := ⟨fun _ _ h => h, fun _ _ _ h => h⟩

theorem Remembers.trans {l'' : Life G A P N} (h : l.Remembers l') (h' : l'.Remembers l'') :
    l.Remembers l'' :=
  ⟨fun g p hx => h'.1 g p (h.1 g p hx),
    fun a r hx ha => h.2 a r hx (h'.2 a r (h.1 _ _ hx) ha)⟩

/-- Neither the Attempts nor the rejections change. -/
theorem remembers_congr (hatt : l'.att = l.att) (hrej : l'.rejected = l.rejected) :
    l.Remembers l' := by
  refine ⟨fun g p hx => ?_, fun a r _ ha => hatt ▸ ha⟩
  rwa [Excluded, hatt, hrej]

/-- A live Attempt did not run out of memory. -/
theorem Spared.exhausted_eq (hs : l.Spared) {a : A} {r : AttLife G P} (ha : l.att a = some r)
    (hl : r.state.isLive) : r.exhausted = false :=
  Bool.eq_false_iff.2 fun hx => hs a r ha hl (.inr ⟨a, r, ha, rfl, rfl, hx⟩)

/-- The Generation `g`, while it waits or runs, is excluded from no further Pools. -/
def Guards (g : G) (l l' : Life G A P N) : Prop :=
  (∀ r, l'.gen g = some r → r.state.stage = 0) →
    (∀ a r, l'.att a = some r → r.generation = g → r.exhausted → l.att a = some r) ∧
      ∀ p, l'.rejected g p → l.rejected g p

/-- A candidate that was not excluded is not while its Generation is queued. -/
theorem Guards.not_excluded {g : G} (h : Guards g l l') {r : GenLife A} (hg : l'.gen g = some r)
    (hr : r.state.stage = 0) {p : P} (hx : ¬ l.Excluded g p) : ¬ l'.Excluded g p := by
  obtain ⟨hatt, hrej⟩ := h fun r' hr' => by
    obtain rfl : r = r' := Option.some_inj.1 (hg.symm.trans hr')
    exact hr
  rintro (hr' | ⟨a, s, ha, hsg, hsp, hsx⟩)
  · exact hx (.inl (hrej p hr'))
  · exact hx (.inr ⟨a, s, hatt a s ha hsg hsx, hsg, hsp, hsx⟩)

theorem guards_congr {g : G} (hatt : l'.att = l.att) (hrej : l'.rejected = l.rejected) :
    Guards g l l' :=
  fun _ => ⟨fun _ _ ha _ _ => hatt ▸ ha, fun _ hr => hrej ▸ hr⟩

/-! ## Occupied Slots -/

/-- The Generation that a live Attempt executes, and the Pool whose Slot it
    occupies. -/
def occupies (l : Life G A P N) (a : A) : Option (G × P) :=
  ((l.att a).filter fun r => r.state.isLive).map fun r => (r.generation, r.pool)

/-- Who occupies a Slot is live. -/
theorem occupies_eq_some {g : G} {p : P} {a : A} : l.occupies a = some (g, p) ↔
    ∃ r, l.att a = some r ∧ r.generation = g ∧ r.pool = p ∧ r.state.isLive := by
  simp only [occupies, Option.map_eq_some_iff, Option.filter_eq_some_iff, Prod.mk.injEq]
  constructor
  · rintro ⟨r, ⟨hr, hl⟩, hg, hp⟩
    exact ⟨r, hr, hg, hp, hl⟩
  · rintro ⟨r, hr, hg, hp, hl⟩
    exact ⟨r, ⟨hr, hl⟩, hg, hp⟩

/-- A live Attempt of a Generation occupies some Slot for it. -/
theorem liveOf_iff {g : G} {a : A} : l.LiveOf g a ↔ ∃ p, l.occupies a = some (g, p) := by
  simp only [LiveOf, occupies_eq_some]
  constructor
  · rintro ⟨r, hr, hg, hl⟩
    exact ⟨r.pool, r, hr, hg, rfl, hl⟩
  · rintro ⟨p, r, hr, hg, -, hl⟩
    exact ⟨r, hr, hg, hl⟩

/-- A live Attempt on a Pool occupies a Slot of it. -/
theorem liveOn_iff {p : P} {a : A} : l.LiveOn p a ↔ ∃ g, l.occupies a = some (g, p) := by
  simp only [LiveOn, occupies_eq_some]
  constructor
  · rintro ⟨r, hr, hp, hl⟩
    exact ⟨r.generation, r, hr, rfl, hp, hl⟩
  · rintro ⟨g, r, hr, -, hp, hl⟩
    exact ⟨r, hr, hp, hl⟩

/-- A calm step keeps the live Attempts. -/
theorem liveOf_congr (hocc : l'.occupies = l.occupies) {g : G} {a : A} :
    l'.LiveOf g a ↔ l.LiveOf g a := by
  rw [liveOf_iff, liveOf_iff, hocc]

/-- A live Attempt's Generation exists. -/
theorem WellReferenced.gen_ne_none (hw : l.WellReferenced) {g : G} {a : A} (h : l.LiveOf g a) :
    l.gen g ≠ none := by
  obtain ⟨r, hr, rfl, -⟩ := h
  obtain ⟨⟨g', hg'⟩, -⟩ := hw a r hr
  simp [hg']

/-- A Generation that does not exist has no Attempts. -/
theorem WellReferenced.generation_ne (hw : l.WellReferenced) {g : G} (hg : l.gen g = none) {a : A}
    {s : AttLife G P} (ha : l.att a = some s) : s.generation ≠ g := by
  rintro rfl
  obtain ⟨⟨r, hr⟩, -⟩ := hw a s ha
  rw [hr] at hg
  cases hg

/-- A live Attempt's Pool exists. -/
theorem WellReferenced.pool_ne_none (hw : l.WellReferenced) {p : P} {a : A} (h : l.LiveOn p a) :
    l.pool p ≠ none := by
  obtain ⟨r, hr, rfl, -⟩ := h
  obtain ⟨-, q, hq⟩ := hw a r hr
  simp [hq]

/-- A Generation's live Attempts are one. -/
theorem AtMostOne.eq_of_live (h : l.AtMostOne) {a : A} {r : AttLife G P} (ha : l.att a = some r)
    (hl : r.state.isLive) (b : A) (s : AttLife G P) (hb : l.att b = some s)
    (hg : s.generation = r.generation) (hl' : s.state.isLive) : b = a :=
  h.1 _ b a ⟨s, hb, hg, hl'⟩ ⟨r, ha, rfl, hl⟩

section Update

variable [DecidableEq A] {a : A} {r : AttLife G P} {gen : G → Option (GenLife A)}
  {pool : P → Option (PoolLife N)} {rejected : G → P → Prop}

/-- What an update of one Attempt does to the occupied Slots. -/
theorem occupies_update (o : Option (AttLife G P)) :
    occupies ⟨gen, update l.att a o, pool, rejected⟩ = update l.occupies a
      ((o.filter fun r => r.state.isLive).map fun r => (r.generation, r.pool)) := by
  funext b
  by_cases h : b = a
  · subst h
    simp [occupies]
  · simp [occupies, h]

/-- An Attempt that becomes or stays live. -/
theorem occupies_update_live (h : r.state.isLive) :
    occupies ⟨gen, update l.att a (some r), pool, rejected⟩ =
      update l.occupies a (some (r.generation, r.pool)) := by
  rw [occupies_update, Option.filter_some, if_pos h, Option.map_some]

/-- An Attempt that is settled. -/
theorem occupies_update_settled (h : ¬ r.state.isLive) :
    occupies ⟨gen, update l.att a (some r), pool, rejected⟩ = update l.occupies a none := by
  rw [occupies_update, Option.filter_some, if_neg h, Option.map_none]

/-- An Attempt that is deleted. -/
theorem occupies_update_none :
    occupies ⟨gen, update l.att a none, pool, rejected⟩ = update l.occupies a none := by
  rw [occupies_update, Option.filter_none, Option.map_none]

/-- The number of an Attempt changes with its row only. -/
theorem number_update (o : Option (AttLife G P)) : number ⟨gen, update l.att a o, pool, rejected⟩ =
      update l.number a (o.map fun s => (s.generation, s.number)) := by
  funext b
  by_cases h : b = a
  · subst h
    simp [number]
  · simp [number, h]

/-- An Attempt that is rewritten keeps its number. -/
theorem number_update_same {s : AttLife G P} (ha : l.att a = some r)
    (hg : s.generation = r.generation) (hn : s.number = r.number) :
    number ⟨gen, update l.att a (some s), pool, rejected⟩ = l.number := by
  rw [number_update, update_eq_self_iff, number, ha]
  simp [hg, hn]

/-- A lease adds one live Attempt. -/
theorem liveOf_lease {g₀ : G} {a₀ : A} {p₀ : P}
    (hocc : l'.occupies = update l.occupies a₀ (some (g₀, p₀))) {g : G} {a : A} :
    l'.LiveOf g a ↔ (a = a₀ ∧ g = g₀) ∨ (a ≠ a₀ ∧ l.LiveOf g a) := by
  rw [liveOf_iff, liveOf_iff, hocc]
  by_cases h : a = a₀
  · subst h
    simp [eq_comm]
  · simp [h]

/-- A released Attempt is not live any more, and the others stay. -/
theorem liveOf_free {a₀ : A} (hocc : l'.occupies = update l.occupies a₀ none) {g : G} {a : A} :
    l'.LiveOf g a ↔ a ≠ a₀ ∧ l.LiveOf g a := by
  rw [liveOf_iff, liveOf_iff, hocc]
  by_cases h : a = a₀
  · subst h
    simp
  · simp [h]

end Update

/-! ## Numbers and counts -/

/-- One Generation changes, and not its count. -/
theorem count_update [DecidableEq G] {gen : G → Option (GenLife A)} {g : G} {r r' : GenLife A}
    (hg : gen g = some r) (hc : r'.count = r.count) (g' : G) (s : GenLife A)
    (hs : update gen g (some r') g' = some s) : ∃ s₀, gen g' = some s₀ ∧ s₀.count = s.count := by
  by_cases hgg : g' = g
  · subst hgg
    rw [update_self, Option.some_inj] at hs
    exact ⟨r, hg, by rw [← hs, hc]⟩
  · rw [update_of_ne hgg] at hs
    exact ⟨s, hs, rfl⟩

section Pools

variable [DecidableEq P]

theorem released_apply (p p' : P) :
    l.released p p' = if p' = p then (l.pool p).map PoolLife.release else l.pool p' := by
  rw [released, update_apply]

variable [DecidableEq A]

/-- A lease adds one live Attempt to its Pool. -/
theorem liveOn_lease {g₀ : G} {a₀ : A} {p₀ : P} (hfree : l.occupies a₀ = none)
    (hocc : l'.occupies = update l.occupies a₀ (some (g₀, p₀))) (p : P) :
    {a | l'.LiveOn p a} = if p = p₀ then insert a₀ {a | l.LiveOn p a} else {a | l.LiveOn p a} := by
  ext a
  by_cases ha : a = a₀ <;> by_cases hp : p₀ = p <;>
    simp [liveOn_iff, hocc, ha, hp, hfree, eq_comm]

/-- A released Attempt leaves its Pool. -/
theorem liveOn_free {g₀ : G} {a₀ : A} {p₀ : P} (ha₀ : l.occupies a₀ = some (g₀, p₀))
    (hocc : l'.occupies = update l.occupies a₀ none) (p : P) :
    {a | l'.LiveOn p a} = if p = p₀ then {a | l.LiveOn p a} \ {a₀} else {a | l.LiveOn p a} := by
  ext a
  by_cases ha : a = a₀ <;> by_cases hp : p₀ = p <;>
    simp [liveOn_iff, hocc, ha, hp, ha₀, eq_comm]

end Pools

section Core

variable [DecidableEq G] [DecidableEq A] [DecidableEq P]

/-! ## Motions -/

/-- How a Generation changes while every Attempt stays where it is. -/
inductive Drifts (l : Life G A P N) (g : G) : Option (GenLife A) → Option (GenLife A) → Prop
  | same (r : Option (GenLife A)) : Drifts l g r r
  | admission : Drifts l g none (some ⟨.queued, none, 0⟩)
  | wake (r : GenLife A) (hq : r.state = .queued) (a : A) (ha : l.LiveOf g a) :
      Drifts l g (some r) (some { r with state := .running })
  | «end» (r : GenLife A) (s : GenerationState) (hq : r.state = .queued)
      (hs : s = .cancelled ∨ s = .expired) : Drifts l g (some r) (some { r with state := s })
  | cancel (r : GenLife A) (hr : r.state = .running) :
      Drifts l g (some r) (some { r with state := .cancelling })

/-- What a step does to the occupied Slots; `ends` says that it ends the Generation whose
    Attempt it ends. -/
inductive Motion (ends : Prop) (l l' : Life G A P N) : Prop
  /-- Every live Attempt stays where it is, and so do the claims. -/
  | calm (hocc : l'.occupies = l.occupies) (hgen : ∀ g, Drifts l g (l.gen g) (l'.gen g))
      (hpool : l'.pool = l.pool)
  /-- A queued Generation gets a live Attempt, which claims a free Slot. -/
  | lease (g : G) (a : A) (p : P) (r r' : GenLife A) (q : PoolLife N) (hfree : l.occupies a = none)
      (hocc : l'.occupies = update l.occupies a (some (g, p))) (hg : l.gen g = some r)
      (hq : r.state = .queued) (hgen : l'.gen = update l.gen g (some r'))
      (hr' : r'.state = .running) (hp : l.pool p = some q)
      (hlt : q.claimed < q.total) (hpool : l'.pool = update l.pool p (some q.claim))
  /-- A Generation loses a live Attempt, and the Slot is released. -/
  | free (g : G) (a : A) (p : P) (r r' : GenLife A) (ha : l.occupies a = some (g, p))
      (hocc : l'.occupies = update l.occupies a none) (hg : l.gen g = some r)
      (hgen : l'.gen = update l.gen g (some r')) (hr' : ends → ¬ r'.state.isActive)
      (hpool : l'.pool = l.released p)

/-- What holds of an updated function: at the key, and elsewhere. -/
theorem forall_update {K R : Type*} [DecidableEq K] {f : K → R} {k : K} {v : R}
    {Q : K → R → Prop} (hk : Q k v) (h : ∀ j, j ≠ k → Q j (f j)) (j : K) : Q j (update f k v j) := by
  by_cases hj : j = k
  · subst hj
    rwa [update_self]
  · rw [update_of_ne hj]
    exact h j hj

/-- A value of an updated partial function is the new one or an old one. -/
theorem eq_or_of_update {K R : Type*} [DecidableEq K] {f : K → Option R} {k j : K} {o : Option R}
    {x : R} (h : update f k o j = some x) : (j = k ∧ o = some x) ∨ f j = some x := by
  by_cases hj : j = k
  · subst hj
    rw [update_self] at h
    exact .inl ⟨rfl, h⟩
  · rw [update_of_ne hj] at h
    exact .inr h

/-- What a new value adds to the values of a partial function. -/
theorem exists_update_of_none {K R : Type*} [DecidableEq K] {f : K → Option R} {k : K}
    (h : f k = none) {x y : R} :
    (∃ j, update f k (some x) j = some y) ↔ y = x ∨ ∃ j, f j = some y := by
  constructor
  · rintro ⟨j, hj⟩
    by_cases hjk : j = k
    · rw [hjk, update_self, Option.some_inj] at hj
      exact .inl hj.symm
    · rw [update_of_ne hjk] at hj
      exact .inr ⟨j, hj⟩
  · rintro (rfl | ⟨j, hj⟩)
    · exact ⟨k, update_self ..⟩
    · have hjk : j ≠ k := by
        rintro rfl
        rw [h] at hj
        cases hj
      exact ⟨j, (update_of_ne hjk ..).trans hj⟩

/-- What the removal of a value takes from the values of an injective partial function. -/
theorem exists_update_none {K R : Type*} [DecidableEq K] {f : K → Option R} {k : K} {x : R}
    (h : f k = some x) (hinj : ∀ j j' x, f j = some x → f j' = some x → j = j') {y : R} :
    (∃ j, update f k none j = some y) ↔ y ≠ x ∧ ∃ j, f j = some y := by
  constructor
  · rintro ⟨j, hj⟩
    by_cases hjk : j = k
    · rw [hjk, update_self] at hj
      cases hj
    · rw [update_of_ne hjk] at hj
      exact ⟨fun he => hjk (hinj j k x (he ▸ hj) h), j, hj⟩
  · rintro ⟨hne, j, hj⟩
    have hjk : j ≠ k := by
      rintro rfl
      exact hne (Option.some_inj.1 (hj.symm.trans h))
    exact ⟨j, (update_of_ne hjk ..).trans hj⟩

/-- Every core step is one of the three motions. -/
theorem Core.motion (h : Core l l') : Motion True l l' := by
  cases h with
  | admission g hg =>
    refine .calm rfl (forall_update ?_ fun _ _ => .same _) rfl
    rw [hg]
    exact .admission
  | assign g a p r q hg hs ha hp hfree hn hx =>
    exact .lease g a p r _ q (by simp [occupies, ha]) (occupies_update_live rfl) hg hs rfl rfl hp
      hfree rfl
  | start a r ha hs =>
    have hlive : l.LiveOf r.generation a := ⟨r, ha, rfl, by rw [hs]; rfl⟩
    refine .calm ?_ (forall_update ?_ fun _ _ => .same _) rfl
    · rw [occupies_update_live rfl, update_eq_self_iff, eq_comm, occupies_eq_some]
      exact ⟨r, ha, rfl, rfl, by rw [hs]; rfl⟩
    · cases hg : l.gen r.generation with
      | none => exact .same _
      | some g =>
        simp only [Option.map_some, GenLife.wake]
        split
        · exact .wake g ‹_› a hlive
        · exact .same _
  | settle a r t x g s ha hl ht ht' hg hs hretry =>
    refine .free r.generation a r.pool g _ (occupies_eq_some.2 ⟨r, ha, rfl, rfl, hl⟩) ?_ hg
      rfl (fun _ => hs.not_isActive) rfl
    exact occupies_update_settled (by simp [AttemptState.isLive_eq_not_isTerminal, ht])
  | accept a r g ha hl hg hacc hs =>
    exact .free r.generation a r.pool g _ (occupies_eq_some.2 ⟨r, ha, rfl, rfl, hl⟩)
      (occupies_update_settled Bool.false_ne_true) hg rfl (fun _ => Bool.false_ne_true) rfl
  | reject a r g ha hl hg hs =>
    have hocc : l.occupies a = some (r.generation, r.pool) :=
      occupies_eq_some.2 ⟨r, ha, rfl, rfl, by rw [hl]; rfl⟩
    exact .free r.generation a r.pool g _ hocc occupies_update_none hg rfl
      (fun _ => Bool.false_ne_true) rfl
  | ack a r g ha hl hg hs =>
    exact .free r.generation a r.pool g _ (occupies_eq_some.2 ⟨r, ha, rfl, rfl, hl⟩)
      (occupies_update_settled Bool.false_ne_true) hg rfl (fun _ => Bool.false_ne_true) rfl
  | endQueued g r s hg hq hs =>
    refine .calm rfl (forall_update ?_ fun _ _ => .same _) rfl
    rw [hg]
    exact .end r s hq hs
  | cancelRunning g r hg hs =>
    refine .calm rfl (forall_update ?_ fun _ _ => .same _) rfl
    rw [hg]
    exact .cancel r hs

theorem Strand.motion (h : Strand l l') : Motion False l l' := by
  obtain ⟨a, r, t, x, g, ha, hl, ht, ht', hg, hs⟩ := h
  refine .free r.generation a r.pool g g (occupies_eq_some.2 ⟨r, ha, rfl, rfl, hl⟩) ?_ hg ?_ nofun rfl
  · exact occupies_update_settled (by simp [AttemptState.isLive_eq_not_isTerminal, ht])
  · exact (update_eq_self_iff.2 hg.symm).symm

/-! ## Live Attempts -/

variable {ends : Prop}

/-- No step makes a second live Attempt of a Generation: a lease needs a queued one, which has
    none. -/
theorem Motion.atMostOne (h : Motion ends l l') (hw : l.WellReferenced) (hi : l.AtMostOne) :
    l'.AtMostOne := by
  obtain ⟨hone, hqueued⟩ := hi
  cases h with
  | calm hocc hgen hpool =>
    refine ⟨fun g a a' ha ha' => ?_, fun g r a hg hq ha => ?_⟩
    · rw [liveOf_congr hocc] at ha ha'
      exact hone g a a' ha ha'
    · rw [liveOf_congr hocc] at ha
      have hd := hgen g
      rw [hg] at hd
      generalize hold : l.gen g = o at hd
      -- only what was queued before is queued now, or what is admitted
      cases hd with
      | same => exact hqueued g r a hold hq ha
      | admission => exact hw.gen_ne_none ha hold
      | wake r' _ => cases hq
      | «end» r' s _ hs => rcases hs with rfl | rfl <;> cases hq
      | cancel r' _ => cases hq
  | lease g₀ a₀ p₀ r r' q hfree hocc hg hq hgen hr' hp hlt hpool =>
    refine ⟨fun g a a' ha ha' => ?_, fun g s a hs hsq ha => ?_⟩
    · rw [liveOf_lease hocc] at ha ha'
      -- the Generation was queued, so its new Attempt meets no other
      have hnone : ∀ b, ¬ l.LiveOf g₀ b := fun b => hqueued g₀ r b hg hq
      rcases ha with ⟨rfl, hgg⟩ | ⟨-, ha⟩ <;> rcases ha' with ⟨rfl, hgg'⟩ | ⟨-, ha'⟩
      · rfl
      · exact absurd (hgg ▸ ha') (hnone a')
      · exact absurd (hgg' ▸ ha) (hnone a)
      · exact hone g a a' ha ha'
    · rw [liveOf_lease hocc] at ha
      by_cases hgg : g = g₀
      · subst hgg
        rw [hgen, update_self, Option.some_inj] at hs
        rw [← hs, hr'] at hsq
        cases hsq
      · rw [hgen, update_of_ne hgg] at hs
        rcases ha with ⟨-, rfl⟩ | ⟨-, ha⟩
        · exact hgg rfl
        · exact hqueued g s a hs hsq ha
  | free g₀ a₀ p₀ r r' ha₀ hocc hg hgen hr' hpool =>
    refine ⟨fun g a a' ha ha' => ?_, fun g s a hs hsq ha => ?_⟩
    · rw [liveOf_free hocc] at ha ha'
      exact hone g a a' ha.2 ha'.2
    · rw [liveOf_free hocc] at ha
      by_cases hgg : g = g₀
      · subst hgg
        exact ha.1 (hone g a a₀ ha.2 (liveOf_iff.2 ⟨p₀, ha₀⟩))
      · rw [hgen, update_of_ne hgg] at hs
        exact hqueued g s a hs hsq ha.2

/-- A Generation that is over has no live Attempt: none ends while one is live. -/
theorem Motion.terminalIdle (h : Motion ends l l') (hi : l.AtMostOne) (ht : l.TerminalIdle) :
    l'.TerminalIdle := by
  intro g s a hs hst ha
  cases h with
  | calm hocc hgen hpool =>
    rw [liveOf_congr hocc] at ha
    have hd := hgen g
    rw [hs] at hd
    generalize hold : l.gen g = o at hd
    cases hd with
    | same => exact ht g s a hold hst ha
    | admission => cases hst
    | wake r' _ => cases hst
    | «end» r' _ hq => exact hi.2 g r' a hold hq ha
    | cancel r' _ => cases hst
  | lease g₀ a₀ p₀ r r' q hfree hocc hg hq hgen hr' hp hlt hpool =>
    rw [liveOf_lease hocc] at ha
    by_cases hgg : g = g₀
    · subst hgg
      rw [hgen, update_self, Option.some_inj] at hs
      rw [← hs, hr'] at hst
      cases hst
    · rw [hgen, update_of_ne hgg] at hs
      rcases ha with ⟨-, rfl⟩ | ⟨-, ha⟩
      · exact hgg rfl
      · exact ht g s a hs hst ha
  | free g₀ a₀ p₀ r r' ha₀ hocc hg hgen hr' hpool =>
    rw [liveOf_free hocc] at ha
    by_cases hgg : g = g₀
    · subst hgg
      exact ha.1 (hi.1 g a a₀ ha.2 (liveOf_iff.2 ⟨p₀, ha₀⟩))
    · rw [hgen, update_of_ne hgg] at hs
      exact ht g s a hs hst ha.2

/-- An active Generation has a live Attempt: one that loses it stops being active. -/
theorem Motion.activeBusy (h : Motion True l l') (hb : l.ActiveBusy) : l'.ActiveBusy := by
  intro g s hs hsa
  cases h with
  | calm hocc hgen hpool =>
    simp only [liveOf_congr hocc]
    have hd := hgen g
    rw [hs] at hd
    generalize hold : l.gen g = o at hd
    cases hd with
    | same => exact hb g s hold hsa
    | admission => cases hsa
    | wake r' _ a ha => exact ⟨a, ha⟩
    | «end» r' t _ ht => rcases ht with rfl | rfl <;> cases hsa
    | cancel r' hr => exact hb g r' hold (by rw [hr]; rfl)
  | lease g₀ a₀ p₀ r r' q hfree hocc hg hq hgen hr' hp hlt hpool =>
    simp only [liveOf_lease hocc]
    by_cases hgg : g = g₀
    · exact ⟨a₀, .inl ⟨rfl, hgg⟩⟩
    · rw [hgen, update_of_ne hgg] at hs
      obtain ⟨a, ha⟩ := hb g s hs hsa
      obtain ⟨p, hp'⟩ := liveOf_iff.1 ha
      exact ⟨a, .inr ⟨fun he => by simp [← he, hp'] at hfree, ha⟩⟩
  | free g₀ a₀ p₀ r r' ha₀ hocc hg hgen hr' hpool =>
    simp only [liveOf_free hocc]
    by_cases hgg : g = g₀
    · subst hgg
      rw [hgen, update_self, Option.some_inj] at hs
      exact absurd (hs ▸ hsa) (hr' trivial)
    · rw [hgen, update_of_ne hgg] at hs
      obtain ⟨a, ha⟩ := hb g s hs hsa
      obtain ⟨p, hp⟩ := liveOf_iff.1 ha
      -- the released Attempt is another Generation's
      refine ⟨a, fun he => hgg ?_, ha⟩
      rw [he, ha₀] at hp
      exact (Prod.mk.inj (Option.some_inj.1 hp)).1.symm

/-! ## Claimed Slots -/

/-- The claims of a Pool are those of its live Attempts: a lease adds one of each, a release takes
    one. -/
theorem Motion.conserved (h : Motion ends l l') (hc : l.Conserved) : l'.Conserved := by
  intro p q' hq'
  cases h with
  | calm hocc hgen hpool =>
    have hset : {a | l'.LiveOn p a} = {a | l.LiveOn p a} := by simp only [liveOn_iff, hocc]
    rw [hset]
    exact hc p q' (hpool ▸ hq')
  | lease g₀ a₀ p₀ r r' q hfree hocc hg hq hgen hr' hp hlt hpool =>
    rw [liveOn_lease hfree hocc]
    rw [hpool] at hq'
    by_cases hpp : p = p₀
    · subst hpp
      rw [update_self, Option.some_inj] at hq'
      obtain ⟨hcard, hle⟩ := hc p q hp
      -- the Attempt is new on its Pool
      have hnew : a₀ ∉ {a | l.LiveOn p a} := by simp [liveOn_iff, hfree]
      rw [if_pos rfl, Set.encard_insert_of_notMem hnew, hcard, ← hq']
      exact ⟨by simp [PoolLife.claim], hlt⟩
    · rw [update_of_ne hpp] at hq'
      rw [if_neg hpp]
      exact hc p q' hq'
  | free g₀ a₀ p₀ r r' ha₀ hocc hg hgen hr' hpool =>
    rw [liveOn_free ha₀ hocc]
    rw [hpool, released] at hq'
    by_cases hpp : p = p₀
    · subst hpp
      rw [update_self] at hq'
      obtain ⟨q, hq, rfl⟩ := Option.map_eq_some_iff.1 hq'
      obtain ⟨hcard, hle⟩ := hc p q hq
      -- the Attempt was on the Pool that is released
      have hmem : a₀ ∈ {a | l.LiveOn p a} := liveOn_iff.2 ⟨g₀, ha₀⟩
      rw [if_pos rfl, Set.encard_sdiff_singleton_of_mem hmem, hcard]
      exact ⟨by simp [PoolLife.release], (Nat.sub_le ..).trans hle⟩
    · rw [update_of_ne hpp] at hq'
      rw [if_neg hpp]
      exact hc p q' hq'

/-- The Pools stay, with their names and Slots. -/
theorem Motion.pool_map {R : Type*} (h : Motion ends l l') (f : N → ℕ → R) (p : P) :
    (l'.pool p).map (fun q => f q.name q.total) = (l.pool p).map fun q => f q.name q.total := by
  cases h with
  | calm hocc hgen hpool => rw [hpool]
  | lease g₀ a₀ p₀ r r' q hfree hocc hg hq hgen hr' hp hlt hpool =>
    by_cases hpp : p = p₀
    · subst hpp
      simp [hpool, hp, PoolLife.claim]
    · simp [hpool, hpp]
  | free g₀ a₀ p₀ r r' ha₀ hocc hg hgen hr' hpool =>
    by_cases hpp : p = p₀
    · subst hpp
      cases hq : l.pool p <;> simp [hpool, released, hq, PoolLife.release]
    · simp [hpool, released, hpp]

/-- Pools keep their names. -/
theorem Motion.named (h : Motion ends l l') (hi : l.Named) : l'.Named := by
  have hname : ∀ {p q}, l'.pool p = some q → ∃ q₀, l.pool p = some q₀ ∧ q₀.name = q.name := by
    intro p q hq
    have hmap := h.pool_map (fun n _ => n) p
    rw [hq, Option.map_some] at hmap
    exact Option.map_eq_some_iff.1 hmap.symm
  intro p p' q q' hq hq' heq
  obtain ⟨q₀, hq₀, hn⟩ := hname hq
  obtain ⟨q₀', hq₀', hn'⟩ := hname hq'
  exact hi p p' q₀ q₀' hq₀ hq₀' (by rw [hn, hn', heq])

/-! ## References and accepted results -/

theorem Core.wellReferenced (h : Core l l') (hw : l.WellReferenced) : l'.WellReferenced := by
  -- no Generation and no Pool goes away, and the one new Attempt is leased on existing rows
  cases h <;> grind [WellReferenced, released_apply, update_apply]

/-- Only a success is accepted, and only once. -/
theorem Core.accepted (h : Core l l') (hi : l.Accepted) : l'.Accepted := by
  cases h with
  | start a r ha hs =>
    cases hg : l.gen r.generation <;> grind [Accepted, update_apply, GenLife.wake]
  | settle a r t x g s ha hl ht ht' hg hs hretry =>
    have hsucc := hs.succeeded_iff
    have hlive : r.state ≠ .succeeded := by rintro he; simp [he, AttemptState.isLive] at hl
    grind [Accepted, update_apply]
  | accept a r g ha hl hg hacc hs =>
    have hlive : r.state ≠ .succeeded := by rintro he; simp [he, AttemptState.isLive] at hl
    grind [Accepted, update_apply]
  | ack a r g ha hl hg hs =>
    have hlive : r.state ≠ .succeeded := by rintro he; simp [he, AttemptState.isLive] at hl
    grind [Accepted, update_apply]
  | _ => grind [Accepted, update_apply]

/-- An accepted result stays accepted. -/
theorem Core.accepted_stays (h : Core l l') {g : G} {r : GenLife A} {a : A} (hg : l.gen g = some r)
    (ha : r.accepted = some a) : ∃ r', l'.gen g = some r' ∧ r'.accepted = some a := by
  cases h with
  | start b s hb hs =>
    cases hsg : l.gen s.generation <;> grind [update_apply, GenLife.wake]
  | _ => grind [update_apply]

/-! ## Numbers -/

/-- The latest Attempt of a Generation changes only while no other one is live. -/
theorem Core.current (h : Core l l') (hw : l.WellReferenced) (hone : l.AtMostOne) (hc : l.Current) :
    l'.Current := by
  cases h with
  | admission g hg =>
    have hnone : ∀ a s, l.att a = some s → s.generation ≠ g := fun a s => hw.generation_ne hg
    grind [Current, update_apply]
  | start a r ha hs =>
    cases hg : l.gen r.generation <;> grind [Current, update_apply, GenLife.wake, AttemptState.isLive]
  | assign g a p r q hg hs ha hp hfree hn hx =>
    have hnone : ∀ b s, l.att b = some s → s.generation = g → ¬ s.state.isLive :=
      fun b s hb hsg hl => hone.2 g r b hg hs ⟨s, hb, hsg, hl⟩
    grind [Current, update_apply]
  | reject a r g ha hl hg hs =>
    have hother := hone.eq_of_live ha (by rw [hl]; rfl)
    grind [Current, update_apply]
  | settle a r t x g s ha hl ht ht' hg hs hretry =>
    have hdead : ¬ t.isLive := by simp [AttemptState.isLive_eq_not_isTerminal, ht]
    grind [Current, update_apply]
  | _ => grind [Current, update_apply, AttemptState.isLive]

/-- A Generation is only queued again while tries are left. -/
theorem Core.budgeted (h : Core l l') (hb : l.Budgeted) : l'.Budgeted := by
  cases h with
  | start a r ha hs =>
    cases hg : l.gen r.generation <;> grind [Budgeted, update_apply, GenLife.wake]
  | settle a r t x g s ha hl ht ht' hg hs hretry =>
    have hqueued : s = .queued → g.count < maxAttempts := by
      rintro rfl
      rcases hs.of_queued with hrun | hq
      · exact hretry hrun rfl
      · exact (hb r.generation g hg).2 hq
    grind [Budgeted, update_apply]
  | _ => grind [Budgeted, update_apply, maxAttempts]

/-- What a step does to the numbers of the Attempts and the counts of the Generations. -/
inductive Numbering (l l' : Life G A P N) : Prop
  /-- Nothing, but that a new Generation has none. -/
  | same (hnum : l'.number = l.number) (hgen : ∀ g r', l'.gen g = some r' →
      (∃ r, l.gen g = some r ∧ r.count = r'.count) ∨ (∀ a n, l.number a ≠ some (g, n)) ∧ r'.count = 0)
  /-- A new Attempt gets the next number. -/
  | next (g : G) (a : A) (r r' : GenLife A) (hg : l.gen g = some r) (ha : l.number a = none)
      (hnum : l'.number = update l.number a (some (g, r.count + 1)))
      (hgen : l'.gen = update l.gen g (some r')) (hcount : r'.count = r.count + 1)
  /-- The latest Attempt goes, and takes its number back. -/
  | last (g : G) (a : A) (r r' : GenLife A) (hg : l.gen g = some r)
    (ha : l.number a = some (g, r.count))
      (hnum : l'.number = update l.number a none)
      (hgen : l'.gen = update l.gen g (some r')) (hcount : r'.count = r.count - 1)

omit [DecidableEq P] in
/-- One Generation is rewritten, and its count is not. -/
theorem numbering_update {g : G} {r r' : GenLife A} (hnum : l'.number = l.number)
    (hg : l.gen g = some r)
    (hgen : l'.gen = update l.gen g (some r')) (hc : r'.count = r.count) : Numbering l l' :=
  .same hnum fun g' s hs => .inl (count_update hg hc g' s (hgen ▸ hs))

/-- A rejection takes the latest number back; every other change of the numbers is a
    new Attempt. -/
theorem Core.numbering (h : Core l l') (hw : l.WellReferenced) (hc : l.Current) : Numbering l l' := by
  cases h with
  | admission g hg =>
    have hnone : ∀ a n, l.number a ≠ some (g, n) := by
      intro a n ha
      obtain ⟨s, hs, he⟩ := Option.map_eq_some_iff.1 ha
      exact hw.generation_ne hg hs (Prod.mk.inj he).1
    refine .same rfl fun g' r hr => ?_
    dsimp only at hr
    by_cases hgg : g' = g
    · subst hgg
      rw [update_self, Option.some_inj] at hr
      subst hr
      exact .inr ⟨hnone, rfl⟩
    · rw [update_of_ne hgg] at hr
      exact .inl ⟨r, hr, rfl⟩
  | assign g a p r q hg hs ha hp hfree hlt hx =>
    refine .next g a r _ hg (by rw [number, ha, Option.map_none]) ?_ rfl rfl
    rw [number_update, Option.map_some]
  | start a r ha hs =>
    cases hg : l.gen r.generation with
    | none =>
      have hself : update l.gen r.generation none = l.gen := update_eq_self_iff.2 hg.symm
      refine .same (number_update_same ha rfl rfl) fun g' s hs => .inl ⟨s, ?_, rfl⟩
      rwa [Option.map_none, hself] at hs
    | some g =>
      refine numbering_update (number_update_same ha rfl rfl) hg rfl ?_
      rw [GenLife.wake]
      split <;> rfl
  | settle a r t x g s ha hl ht ht' hg hs hretry =>
    exact numbering_update (number_update_same ha rfl rfl) hg rfl rfl
  | accept a r g ha hl hg hacc hs => exact numbering_update (number_update_same ha rfl rfl) hg rfl rfl
  | reject a r g ha hl hg hs =>
    have hlast : r.number = g.count := hc _ g a r hg ha rfl (by rw [hl]; rfl)
    refine .last r.generation a g _ hg ?_ ?_ rfl rfl
    · rw [number, ha, Option.map_some, hlast]
    · rw [number_update, Option.map_none]
  | ack a r g ha hl hg hs => exact numbering_update (number_update_same ha rfl rfl) hg rfl rfl
  | endQueued g r s hg hq hs => exact numbering_update rfl hg rfl rfl
  | cancelRunning g r hg hs => exact numbering_update rfl hg rfl rfl

omit [DecidableEq P] in
/-- The Attempts of a Generation are numbered from one to its count, each once. -/
theorem Numbering.numbered (h : Numbering l l') (hn : l.Numbered) : l'.Numbered := by
  obtain ⟨hdense, hinj⟩ := hn
  cases h with
  | same hnum hgen =>
    refine ⟨fun g r' n hr' => ?_, by rwa [hnum]⟩
    rw [hnum]
    rcases hgen g r' hr' with ⟨r, hr, hc⟩ | ⟨hnone, hc⟩
    · rw [← hc]
      exact hdense g r n hr
    · rw [hc]
      constructor
      · rintro ⟨h1, h0⟩
        exact absurd (h1.trans h0) (Nat.not_succ_le_zero 0)
      · rintro ⟨a, ha⟩
        exact absurd ha (hnone a n)
  | next g a r r₁ hg ha hnum hgen hcount =>
    -- no Attempt has the next number yet
    have hnew : ∀ b, l.number b ≠ some (g, r.count + 1) := fun b hb =>
      absurd ((hdense g r (r.count + 1) hg).2 ⟨b, hb⟩).2 (Nat.not_succ_le_self _)
    refine ⟨fun g' r' n hr' => ?_, by rw [hnum]; grind [update_apply]⟩
    rw [hnum, exists_update_of_none ha, Prod.mk.injEq]
    rw [hgen] at hr'
    by_cases hgg : g' = g
    · subst hgg
      rw [update_self, Option.some_inj] at hr'
      rw [← hr', hcount, ← hdense g' r n hg]
      simp only [true_and]
      omega
    · rw [update_of_ne hgg] at hr'
      rw [hdense g' r' n hr']
      simp [hgg]
  | last g a r r₁ hg ha hnum hgen hcount =>
    -- the last number is taken back
    have hpos : 1 ≤ r.count := ((hdense _ r r.count hg).2 ⟨a, ha⟩).1
    refine ⟨fun g' r' n hr' => ?_, by rw [hnum]; grind [update_apply]⟩
    rw [hnum, exists_update_none ha hinj, ne_eq, Prod.mk.injEq]
    rw [hgen] at hr'
    by_cases hgg : g' = g
    · subst hgg
      rw [update_self, Option.some_inj] at hr'
      rw [← hr', hcount, ← hdense _ r n hg]
      simp only [true_and]
      omega
    · rw [update_of_ne hgg] at hr'
      rw [hdense g' r' n hr']
      simp [hgg]

theorem Core.numbered (h : Core l l') (hw : l.WellReferenced) (hc : l.Current) (hn : l.Numbered) :
    l'.Numbered := (h.numbering hw hc).numbered hn

omit [DecidableEq P] in
/-- No number is beyond the count. -/
theorem Numbering.capped (h : Numbering l l') (hn : l.Capped) : l'.Capped := by
  obtain ⟨hle, hinj⟩ := hn
  cases h with
  | same hnum hgen =>
    refine ⟨fun g r' a n hr' ha => ?_, by rwa [hnum]⟩
    rw [hnum] at ha
    rcases hgen g r' hr' with ⟨r, hr, hc⟩ | ⟨hnone, -⟩
    · rw [← hc]
      exact hle g r a n hr ha
    · exact absurd ha (hnone a n)
  | next g a r r₁ hg ha hnum hgen hcount =>
    -- the next number is beyond the count
    have hnew : ∀ b, l.number b ≠ some (g, r.count + 1) := fun b hb =>
      absurd (hle g r b _ hg hb) (Nat.not_succ_le_self _)
    refine ⟨fun g' r' b n hr' hb => ?_, by rw [hnum]; grind [update_apply]⟩
    rw [hgen] at hr'
    rw [hnum] at hb
    grind [update_apply]
  | last g a r r₁ hg ha hnum hgen hcount =>
    refine ⟨fun g' r' b n hr' hb => ?_, by rw [hnum]; grind [update_apply]⟩
    rw [hgen] at hr'
    rw [hnum] at hb
    have hba : b ≠ a := by
      rintro rfl
      rw [update_self] at hb
      cases hb
    rw [update_of_ne hba] at hb
    by_cases hgg : g' = g
    · subst hgg
      rw [update_self, Option.some_inj] at hr'
      -- another Attempt has another number
      have hne : n ≠ r.count := fun heq => hba (hinj b a _ hb (heq ▸ ha))
      have := hle g' r b n hg hb
      rw [← hr', hcount]
      omega
    · rw [update_of_ne hgg] at hr'
      exact hle g' r' b n hr' hb

theorem Core.capped (h : Core l l') (hw : l.WellReferenced) (hc : l.Current) (hn : l.Capped) :
    l'.Capped :=
  (h.numbering hw hc).capped hn

/-! ## Excluded Pools -/

/-- A settled Attempt is not changed any more. -/
theorem Core.att_stays (h : Core l l') {a : A} {r : AttLife G P} (ha : l.att a = some r)
    (hr : ¬ r.state.isLive) : l'.att a = some r := by
  cases h with
  | start b s hb hs =>
    have hlive : s.state.isLive := by rw [hs]; rfl
    grind [update_apply]
  | reject b s g hb hl hg hs =>
    have hlive : s.state.isLive := by rw [hl]; rfl
    grind [update_apply]
  | _ => grind [update_apply]

theorem Core.rejected_stays (h : Core l l') {g : G} {p : P} (hr : l.rejected g p) :
    l'.rejected g p := by
  cases h with
  | reject => exact .inl hr
  | _ => exact hr

/-- A Pool stays excluded: what ran out of memory is settled. -/
theorem Core.excluded (h : Core l l') (hs : l.Spared) {g : G} {p : P} (hx : l.Excluded g p) :
    l'.Excluded g p := by
  rcases hx with hr | ⟨a, r, ha, hg, hp, hr⟩
  · exact .inl (h.rejected_stays hr)
  · have hdead : ¬ r.state.isLive := fun hl => by simp [hs.exhausted_eq ha hl] at hr
    exact .inr ⟨a, r, h.att_stays ha hdead, hg, hp, hr⟩

/-- A new exclusion comes from the one live Attempt of the Generation, which it ends. -/
theorem Core.spared (h : Core l l') (hone : l.AtMostOne) (hs : l.Spared) : l'.Spared := by
  cases h with
  | start b s hb hs =>
    have hlive : s.state.isLive := by rw [hs]; rfl
    grind [Spared, Excluded, update_apply]
  | settle b s t x g u hb hl ht =>
    have hdead : ¬ t.isLive := by simp [AttemptState.isLive_eq_not_isTerminal, ht]
    have honly := hone.eq_of_live hb hl
    grind [Spared, Excluded, update_apply]
  | accept b s g hb hl =>
    have hdead : ¬ AttemptState.succeeded.isLive := by decide
    grind [Spared, Excluded, update_apply]
  | reject b s g hb hl hg hs =>
    have honly := hone.eq_of_live hb (by rw [hl]; rfl)
    grind [Spared, Excluded, update_apply]
  | ack b s g hb hl =>
    have hdead : ¬ AttemptState.cancelled.isLive := by decide
    grind [Spared, Excluded, update_apply]
  | _ => grind [Spared, Excluded, update_apply]

/-- The Attempts of a Generation on a Pool that it is excluded from are those there were. -/
theorem Core.att_of_excluded (h : Core l l') (hs : l.Spared) {a : A} {r : AttLife G P}
    (hx : l.Excluded r.generation r.pool) (ha : l'.att a = some r) : l.att a = some r := by
  -- an Attempt that changes was live, and no live one is on such a Pool
  have hlive : ∀ s, l.att a = some s → s.state.isLive → s.generation = r.generation →
      s.pool ≠ r.pool := fun s hs' hl hg hp => hs a s hs' hl (by rwa [hg, hp])
  cases h with
  | admission | endQueued | cancelRunning => exact ha
  | assign g b p s q hg hq hb hp hfree hn hnx =>
    rcases eq_or_of_update ha with ⟨-, he⟩ | ha
    · obtain rfl := Option.some_inj.1 he
      exact absurd hx hnx
    · exact ha
  | reject b s g hb hl hg hs =>
    rcases eq_or_of_update ha with ⟨-, he⟩ | ha
    · cases he
    · exact ha
  | start b s hb hl =>
    rcases eq_or_of_update ha with ⟨rfl, he⟩ | ha
    · obtain rfl := Option.some_inj.1 he
      exact absurd rfl (hlive s hb (by rw [hl]; rfl) rfl)
    · exact ha
  | settle b s t x g u hb hl | accept b s g hb hl | ack b s g hb hl =>
    rcases eq_or_of_update ha with ⟨rfl, he⟩ | ha
    · obtain rfl := Option.some_inj.1 he
      exact absurd rfl (hlive s hb hl rfl)
    · exact ha

/-- A step that leaves a Generation as it is excludes it from nothing. -/
theorem Core.guards (h : Core l l') (hone : l.AtMostOne) (hs : l.Spared) {g : G}
    (hgen : l'.gen g = l.gen g) : Guards g l l' := by
  cases h with
  | admission | endQueued | cancelRunning => exact guards_congr rfl rfl
  | assign | ack => grind [Guards, update_apply]
  | start a r ha hl =>
    have hx := hs.exhausted_eq ha (by rw [hl]; rfl)
    grind [Guards, update_apply]
  | settle a r t x g' s ha hl ht ht' hg hs hretry =>
    intro hstage
    by_cases hgg : g = r.generation
    · -- the Generation is over: it is not active, and it had a live Attempt
      subst hgg
      rw [hgen] at hstage
      dsimp only at hgen
      rw [update_self, hg, Option.some_inj] at hgen
      have hst : s = g'.state := congrArg GenLife.state hgen
      have hact := hs.not_isActive
      have hq : g'.state ≠ .queued := fun hq => hone.2 _ g' a hg hq ⟨r, ha, rfl, hl⟩
      have hzero := hstage g' hg
      rw [hst] at hact
      exfalso
      revert hact hq hzero
      cases g'.state <;> decide
    · grind [update_apply]
  | accept a r g' ha hl hg hacc hact =>
    have hx := hs.exhausted_eq ha hl
    grind [Guards, update_apply]
  | reject a r g' ha hl hg hs =>
    intro hstage
    have hgg : g ≠ r.generation := by
      rintro rfl
      dsimp only at hgen
      rw [update_self, hg, Option.some_inj] at hgen
      have hst : GenerationState.queued = g'.state := congrArg GenLife.state hgen
      rw [hs] at hst
      cases hst
    grind [update_apply]

theorem Core.remembers (h : Core l l') (hs : l.Spared) : l.Remembers l' :=
  ⟨fun _ _ => h.excluded hs, fun _ _ => h.att_of_excluded hs⟩

/-! ## The invariants that every step keeps -/

/-- References, single leases, accepted results and claims are in order. -/
structure Sound (l : Life G A P N) : Prop where
  wellReferenced : l.WellReferenced
  atMostOne : l.AtMostOne
  accepted : l.Accepted
  conserved : l.Conserved
  named : l.Named
  current : l.Current
  spared : l.Spared

/-- Every step in time keeps the Slots sound, part by part. -/
theorem Core.sound (h : Core l l') (hi : l.Sound) : l'.Sound where
  wellReferenced := h.wellReferenced hi.wellReferenced
  atMostOne := h.motion.atMostOne hi.wellReferenced hi.atMostOne
  accepted := h.accepted hi.accepted
  conserved := h.motion.conserved hi.conserved
  named := h.motion.named hi.named
  current := h.current hi.wellReferenced hi.atMostOne hi.current
  spared := h.spared hi.atMostOne hi.spared

theorem Core.terminalIdle (h : Core l l') (hi : l.Sound) (ht : l.TerminalIdle) : l'.TerminalIdle :=
  h.motion.terminalIdle hi.atMostOne ht

theorem Core.activeBusy (h : Core l l') (hb : l.ActiveBusy) : l'.ActiveBusy := h.motion.activeBusy hb

/-- No step takes a Generation back to an earlier stage, but for a retry. -/
theorem Core.advances (h : Core l l') : l.Advances l' := by
  cases h with
  | admission g hg =>
    intro g' s hs
    have hne : g' ≠ g := fun he => by simp [← he, hs] at hg
    exact ⟨s, (update_of_ne hne ..).trans hs, le_rfl⟩
  | assign g a p r q hg hs => exact advances_update hg (by simp [hs, GenerationState.stage]) rfl
  | start a r ha hs =>
    cases hg : l.gen r.generation with
    | none =>
      have hself : update l.gen r.generation ((none : Option (GenLife A)).map GenLife.wake) = l.gen :=
        update_eq_self_iff.2 hg.symm
      rw [hself]
      exact advances_refl _
    | some g =>
      refine advances_update hg ?_ rfl
      by_cases hq : g.state = .queued
      · simp [GenLife.wake, hq, GenerationState.stage]
      · simp [GenLife.wake, hq]
  | settle a r t x g s ha hl ht ht' hg hs hretry => exact advances_update hg hs.stage_le rfl
  | accept a r g ha hl hg hacc hs =>
    exact advances_update hg (GenerationState.stage_le_of_isTerminal _ rfl) rfl
  | reject a r g ha hl hg hs => exact advances_update hg (by simp [hs, GenerationState.stage]) rfl
  | ack a r g ha hl hg hs => exact advances_update hg (by simp [hs, GenerationState.stage]) rfl
  | endQueued g r s hg hq hs => exact advances_update hg (by simp [hq, GenerationState.stage]) rfl
  | cancelRunning g r hg hs => exact advances_update hg (by simp [hs, GenerationState.stage]) rfl

end Core

/-! ## Advertised Pools -/

section Upsert

variable [DecidableEq P]

/-- Nothing but the Pools changes. -/
theorem Upsert.others (h : Upsert l l') :
    l'.gen = l.gen ∧ l'.att = l.att ∧ l'.rejected = l.rejected := by
  obtain ⟨p, q, hle, hnew, hold⟩ := h
  exact ⟨rfl, rfl, rfl⟩

theorem Upsert.liveOf (h : Upsert l l') {g : G} {a : A} : l'.LiveOf g a ↔ l.LiveOf g a := by
  rw [LiveOf, LiveOf, h.others.2.1]

/-- A Pool that is reported anew keeps its claims; a new one has none. -/
theorem Upsert.conserved (h : Upsert l l') (hw : l.WellReferenced) (hc : l.Conserved) :
    l'.Conserved := by
  obtain ⟨p₀, q₀, hle, hnew, hold⟩ := h
  refine fun p => forall_update (Q := fun p o => ∀ q : PoolLife N, o = some q →
    Set.encard {a | l.LiveOn p a} = q.claimed ∧ q.claimed ≤ q.total) ?_ (fun p _ => hc p) p
  rintro _ ⟨⟩
  refine ⟨?_, hle⟩
  cases hp : l.pool p₀ with
  | none =>
    rw [(hnew hp).1, Nat.cast_zero, Set.encard_eq_zero, Set.eq_empty_iff_forall_notMem]
    exact fun a ha => hw.pool_ne_none ha hp
  | some q =>
    rw [(hold q hp).1]
    exact (hc p₀ q hp).1

/-- A new Pool has a new name, and an old one keeps its name. -/
theorem Upsert.named (h : Upsert l l') (hi : l.Named) : l'.Named := by
  obtain ⟨p₀, q₀, hle, hnew, hold⟩ := h
  have hself : ∀ p q, l.pool p = some q → q.name = q₀.name → p = p₀ := by
    intro p q hq hname
    cases hp : l.pool p₀ with
    | none => exact absurd hname ((hnew hp).2 p q hq)
    | some q' => exact hi p p₀ q q' hq hp (hname.trans (hold q' hp).2)
  intro p p' q q' hq hq' hname
  simp only [update_apply] at hq hq'
  split at hq <;> split at hq'
  · rename_i hp hp'
    rw [hp, hp']
  · rename_i hp hp'
    obtain rfl := Option.some_inj.1 hq
    exact hp.trans (hself p' q' hq' hname.symm).symm
  · rename_i hp hp'
    obtain rfl := Option.some_inj.1 hq'
    exact (hself p q hq hname).trans hp'.symm
  · exact hi p p' q q' hq hq' hname

/-- So the Slots stay sound. -/
theorem Upsert.sound (h : Upsert l l') (hi : l.Sound) : l'.Sound where
  wellReferenced a r ha := by
    rw [h.others.2.1] at ha
    obtain ⟨hg, q, hq⟩ := hi.wellReferenced a r ha
    refine ⟨h.others.1 ▸ hg, ?_⟩
    obtain ⟨p, q', hle, hnew, hold⟩ := h
    exact forall_update (Q := fun p o => p = r.pool → ∃ q, o = some q) (fun _ => ⟨q', rfl⟩)
      (fun p _ hp => ⟨q, hp ▸ hq⟩) r.pool rfl
  atMostOne := by
    refine ⟨fun g a a' ha ha' => ?_, fun g r a hg hq ha => ?_⟩
    · exact hi.atMostOne.1 g a a' (h.liveOf.1 ha) (h.liveOf.1 ha')
    · exact hi.atMostOne.2 g r a (h.others.1 ▸ hg) hq (h.liveOf.1 ha)
  accepted := by
    obtain ⟨p, q, hle, hnew, hold⟩ := h
    exact hi.accepted
  conserved := h.conserved hi.wellReferenced hi.conserved
  named := h.named hi.named
  current := by
    obtain ⟨p, q, hle, hnew, hold⟩ := h
    exact hi.current
  spared := by
    obtain ⟨p, q, hle, hnew, hold⟩ := h
    exact hi.spared

theorem Upsert.budgeted (h : Upsert l l') (hb : l.Budgeted) : l'.Budgeted := by
  obtain ⟨p, q, hle, hnew, hold⟩ := h
  exact hb

theorem Upsert.numbered (h : Upsert l l') (hn : l.Numbered) : l'.Numbered := by
  obtain ⟨p, q, hle, hnew, hold⟩ := h
  exact hn

theorem Upsert.capped (h : Upsert l l') (hn : l.Capped) : l'.Capped := by
  obtain ⟨p, q, hle, hnew, hold⟩ := h
  exact hn

theorem Upsert.terminalIdle (h : Upsert l l') (ht : l.TerminalIdle) : l'.TerminalIdle :=
  fun g r a hg hr ha => ht g r a (h.others.1 ▸ hg) hr (h.liveOf.1 ha)

theorem Upsert.activeBusy (h : Upsert l l') (hb : l.ActiveBusy) : l'.ActiveBusy := by
  intro g r hg hr
  obtain ⟨a, ha⟩ := hb g r (h.others.1 ▸ hg) hr
  exact ⟨a, h.liveOf.2 ha⟩

end Upsert

/-! ## Stranded Generations -/

section Strand

variable [DecidableEq A] [DecidableEq P]

theorem Strand.gen_eq (h : Strand l l') : l'.gen = l.gen := by
  obtain ⟨⟩ := h
  rfl

theorem Strand.advances (h : Strand l l') : l.Advances l' := by
  intro g r hg
  rw [h.gen_eq]
  exact ⟨r, hg, le_rfl⟩

/-- An Attempt that is stranded had not run out of memory. -/
theorem Strand.remembers (h : Strand l l') (hs : l.Spared) : l.Remembers l' := by
  obtain ⟨a, r, t, x, g, ha, hl, ht, ht', hg, hc⟩ := h
  have hnot := hs a r ha hl
  refine ⟨fun g p hx => ?_, fun b s hx hb => ?_⟩
  · rcases hx with hr | ⟨b, s, hb, hsg, hsp, hsx⟩
    · exact .inl hr
    · have hne : b ≠ a := by
        rintro rfl
        obtain rfl : s = r := Option.some_inj.1 (hb.symm.trans ha)
        simp [hs.exhausted_eq ha hl] at hsx
      exact .inr ⟨b, s, (update_of_ne hne ..).trans hb, hsg, hsp, hsx⟩
  · rcases eq_or_of_update hb with ⟨rfl, he⟩ | hb
    · obtain rfl := Option.some_inj.1 he
      exact absurd hx hnot
    · exact hb

/-- The stranded Generation is past the point where its exclusions matter. -/
theorem Strand.guards (h : Strand l l') {g : G} : Guards g l l' := by
  obtain ⟨a, r, t, x, g', ha, hl, ht, ht', hg, hc⟩ := h
  intro hstage
  have hgg : g ≠ r.generation := by
    rintro rfl
    have hzero := hstage g' hg
    rw [hc] at hzero
    cases hzero
  grind [update_apply]

/-- An Attempt that ends while its Generation waits for it leaves the Slots sound. -/
theorem Strand.sound [DecidableEq G] (h : Strand l l') (hi : l.Sound) : l'.Sound where
  wellReferenced := by
    obtain ⟨⟩ := h
    grind [WellReferenced, hi.wellReferenced, released_apply, update_apply]
  atMostOne := h.motion.atMostOne hi.wellReferenced hi.atMostOne
  accepted := by
    obtain ⟨a, r, t, x, g, ha, hl, ht, ht', hg, hc⟩ := h
    have hlive : r.state ≠ .succeeded := by rintro he; simp [he, AttemptState.isLive] at hl
    grind [Accepted, hi.accepted, update_apply]
  conserved := h.motion.conserved hi.conserved
  named := h.motion.named hi.named
  current := by
    obtain ⟨a, r, t, x, g, ha, hl, ht, ht', hg, hc⟩ := h
    have hdead : ¬ t.isLive := by simp [AttemptState.isLive_eq_not_isTerminal, ht]
    grind [Current, hi.current, update_apply]
  spared := by
    obtain ⟨a, r, t, x, g, ha, hl, ht, ht', hg, hc⟩ := h
    have hdead : ¬ t.isLive := by simp [AttemptState.isLive_eq_not_isTerminal, ht]
    have honly := hi.atMostOne.eq_of_live ha hl
    grind [Spared, hi.spared, Excluded, update_apply]

end Strand

/-! ## Late acknowledgements -/

section AckLate

variable [DecidableEq G] {a : A}

/-- A late acknowledgement changes one Generation, to cancelled. -/
theorem AckLate.gen_or (h : AckLate a l l') {g : G} {s : GenLife A} (hs : l'.gen g = some s) :
    s.state = .cancelled ∨ l.gen g = some s := by
  obtain ⟨r, g', ha, hl, hg, _⟩ := h
  simp only [update_apply] at hs
  split at hs
  · obtain rfl := Option.some_inj.1 hs
    exact .inl rfl
  · exact .inr hs

/-- So does a cancellation that is acknowledged for an older Attempt. -/
theorem AckLate.sound (h : AckLate a l l') (hi : l.Sound) : l'.Sound := by
  have hgen := @h.gen_or
  obtain ⟨r, g, ha, hl, hg, hs⟩ := h
  obtain ⟨hw, hone, hacc, hcons, hnamed, hcur, hspared⟩ := hi
  refine ⟨?_, ⟨hone.1, fun g' s b hs' hq => ?_⟩, ?_, hcons, hnamed, ?_, hspared⟩
  · grind [WellReferenced, update_apply]
  · rcases hgen hs' with hc | hs'
    · rw [hc] at hq
      cases hq
    · exact hone.2 g' s b hs' hq
  · grind [Accepted, update_apply]
  · grind [Current, update_apply]

theorem AckLate.budgeted (h : AckLate a l l') (hb : l.Budgeted) : l'.Budgeted := by
  obtain ⟨r, g, ha, hl, hg, hs⟩ := h
  grind [Budgeted, update_apply]

theorem AckLate.numbering [DecidableEq A] (h : AckLate a l l') : Numbering l l' := by
  obtain ⟨r, g, ha, hl, hg, hs⟩ := h
  exact numbering_update rfl hg rfl rfl

/-- Where a late acknowledgement takes effect. -/
theorem AckLate.cancelling {r : AttLife G P} (h : AckLate a l l') (ha : l.att a = some r) :
    ¬ r.state.isLive ∧ ∃ g, l.gen r.generation = some g ∧ g.state = .cancelling := by
  obtain ⟨r', g, ha', hl, hg, hs⟩ := h
  obtain rfl : r' = r := Option.some_inj.1 (ha'.symm.trans ha)
  exact ⟨hl, g, hg, hs⟩

/-- A late acknowledgement keeps terminal Generations idle exactly when the
    Generation that it ends has no live Attempt. -/
theorem AckLate.terminalIdle_iff {r : AttLife G P} (h : AckLate a l l')
    (ha : l.att a = some r) (ht : l.TerminalIdle) :
    l'.TerminalIdle ↔ ∀ b, ¬ l.LiveOf r.generation b := by
  obtain ⟨r', g, ha', hl, hg, hs⟩ := h
  obtain rfl : r' = r := Option.some_inj.1 (ha'.symm.trans ha)
  constructor
  · exact fun h b hb => h r'.generation _ b (update_self ..) rfl hb
  · intro hnone g' s b hs' hst hb
    by_cases hgg : g' = r'.generation
    · exact hnone b (hgg ▸ hb)
    · exact ht g' s b ((update_of_ne hgg ..).symm.trans hs') hst hb

theorem AckLate.advances (h : AckLate a l l') : l.Advances l' := by
  obtain ⟨r, g, ha, hl, hg, hs⟩ := h
  exact advances_update hg (by simp [hs, GenerationState.stage]) rfl

theorem AckLate.others (h : AckLate a l l') :
    l'.att = l.att ∧ l'.rejected = l.rejected ∧ l'.pool = l.pool := by
  obtain ⟨⟩ := h
  exact ⟨rfl, rfl, rfl⟩

/-- A Generation that was cancelled is not active any more. -/
theorem AckLate.activeBusy (h : AckLate a l l') (hb : l.ActiveBusy) : l'.ActiveBusy := by
  intro g s hs hsa
  rcases h.gen_or hs with hc | hold
  · rw [hc] at hsa
    cases hsa
  · obtain ⟨r, g', ha, hl, hg, hc⟩ := h
    exact hb g s hold hsa

/-- An accepted result stays accepted. -/
theorem AckLate.accepted_stays {b : A} (h : AckLate b l l') {g : G} {r : GenLife A}
    (hg : l.gen g = some r) (ha : r.accepted = some a) :
    ∃ r', l'.gen g = some r' ∧ r'.accepted = some a := by
  obtain ⟨s, g', hb, hl, hg', hs⟩ := h
  grind [update_apply]

end AckLate

/-! ## Deleted Pools -/

section Drop

variable [DecidableEq P] {D : List P}

/-- The live Attempts that remain are those on other Pools. -/
theorem Drop.liveOf (h : Drop D l l') {g : G} {a : A} :
    l'.LiveOf g a ↔ ∃ r, l.att a = some r ∧ r.generation = g ∧ r.state.isLive ∧ r.pool ∉ D := by
  obtain ⟨href⟩ := h
  simp only [LiveOf, Option.filter_eq_some_iff, decide_eq_true_eq]
  constructor
  · rintro ⟨r, ⟨hr, hD⟩, hg, hl⟩
    exact ⟨r, hr, hg, hl, hD⟩
  · rintro ⟨r, hr, hg, hl, hD⟩
    exact ⟨r, ⟨hr, hD⟩, hg, hl⟩

/-- A remaining live Attempt was live before. -/
theorem Drop.liveOf_of (h : Drop D l l') {g : G} {a : A} (ha : l'.LiveOf g a) : l.LiveOf g a := by
  obtain ⟨r, hr, hg, hl, -⟩ := h.liveOf.1 ha
  exact ⟨r, hr, hg, hl⟩

/-- An Attempt whose result was accepted is not on a deleted Pool. -/
theorem Drop.pool_notMem (h : Drop D l l') {g : G} {r : GenLife A} {a : A} {s : AttLife G P}
    (hg : l.gen g = some r) (ha : r.accepted = some a) (hs : l.att a = some s) : s.pool ∉ D := by
  obtain ⟨href⟩ := h
  exact href g r a s hg ha hs

theorem Drop.eq_of_nil (h : Drop [] l l') : l' = l := by
  obtain ⟨_⟩ := h
  have hall : ∀ o : Option (AttLife G P), o.filter (fun _ => true) = o := fun o => by cases o <;> rfl
  simp [hall]

theorem Drop.gen_eq (h : Drop D l l') : l'.gen = l.gen := by
  obtain ⟨_⟩ := h
  rfl

theorem Drop.budgeted (h : Drop D l l') (hb : l.Budgeted) : l'.Budgeted := by
  intro g r hg
  rw [h.gen_eq] at hg
  exact hb g r hg

/-- The Attempts that remain keep their numbers. -/
theorem Drop.number_of (h : Drop D l l') {a : A} {x : G × ℕ} (ha : l'.number a = some x) :
    l.number a = some x := by
  obtain ⟨_⟩ := h
  obtain ⟨r, hr, rfl⟩ := Option.map_eq_some_iff.1 ha
  rw [number, (Option.filter_eq_some_iff.1 hr).1, Option.map_some]

theorem Drop.capped (h : Drop D l l') (hn : l.Capped) : l'.Capped :=
  ⟨fun g r a n hg ha => hn.1 g r a n (h.gen_eq ▸ hg) (h.number_of ha),
    fun a a' x ha ha' => hn.2 a a' x (h.number_of ha) (h.number_of ha')⟩

/-- A Pool goes with all its rows, its Attempts among them; what is accepted stays. -/
theorem Drop.sound (h : Drop D l l') (hi : l.Sound) : l'.Sound := by
  have hlive : ∀ {g a}, l'.LiveOf g a → l.LiveOf g a := h.liveOf_of
  obtain ⟨href⟩ := h
  obtain ⟨hw, hone, hacc, hcons, hnamed, hcur, hspared⟩ := hi
  refine ⟨?_, ?_, ?_, ?_, ?_, ?_, ?_⟩
  · intro a r ha
    obtain ⟨ha, hD⟩ := Option.filter_eq_some_iff.1 ha
    have hD : r.pool ∉ D := by simpa using hD
    simpa [hD] using hw a r ha
  · exact ⟨fun g a a' ha ha' => hone.1 g a a' (hlive ha) (hlive ha'),
      fun g r a hg hq ha => hone.2 g r a hg hq (hlive ha)⟩
  · refine ⟨hacc.1, fun g r a hg ha => ?_, fun a s ha hs => ?_⟩
    · obtain ⟨s, hs, hsg, hss⟩ := hacc.2.1 g r a hg ha
      exact ⟨s, Option.filter_eq_some_iff.2 ⟨hs, by simpa using href g r a s hg ha hs⟩, hsg, hss⟩
    · exact hacc.2.2 a s (Option.filter_eq_some_iff.1 ha).1 hs
  · intro p q hq
    dsimp only at hq
    split at hq
    · cases hq
    · rename_i hD
      -- the Attempts on the other Pools are still there
      have hset : {a | LiveOn ⟨l.gen, fun a => (l.att a).filter fun r => r.pool ∉ D,
          fun p => if p ∈ D then none else l.pool p, fun g p => l.rejected g p ∧ p ∉ D⟩ p a} =
          {a | l.LiveOn p a} := by
        ext a
        simp only [Set.mem_ofPred_eq, LiveOn, Option.filter_eq_some_iff, decide_eq_true_eq]
        constructor
        · rintro ⟨r, ⟨hr, -⟩, hp, hl⟩
          exact ⟨r, hr, hp, hl⟩
        · rintro ⟨r, hr, hp, hl⟩
          exact ⟨r, ⟨hr, hp ▸ hD⟩, hp, hl⟩
      rw [hset]
      exact hcons p q hq
  · intro p p' q q' hq hq' hname
    dsimp only at hq hq'
    split at hq
    · cases hq
    split at hq'
    · cases hq'
    exact hnamed p p' q q' hq hq' hname
  · exact fun g r a s hg ha => hcur g r a s hg (Option.filter_eq_some_iff.1 ha).1
  · intro a r ha hl hx
    refine hspared a r (Option.filter_eq_some_iff.1 ha).1 hl ?_
    rcases hx with hr | ⟨b, s, hb, hg, hp, hs⟩
    · exact .inl hr.1
    · exact .inr ⟨b, s, (Option.filter_eq_some_iff.1 hb).1, hg, hp, hs⟩

theorem Drop.terminalIdle (h : Drop D l l') (ht : l.TerminalIdle) : l'.TerminalIdle := by
  intro g r a hg hr ha
  rw [h.gen_eq] at hg
  exact ht g r a hg hr (h.liveOf_of ha)

/-- A deletion of Pools without live Attempts strands no Generation. -/
theorem Drop.activeBusy (h : Drop D l l') (hD : ∀ p ∈ D, ∀ a, ¬ l.LiveOn p a) (hb : l.ActiveBusy) :
    l'.ActiveBusy := by
  intro g r hg hr
  rw [h.gen_eq] at hg
  obtain ⟨a, s, hs, hsg, hl⟩ := hb g r hg hr
  exact ⟨a, h.liveOf.2 ⟨s, hs, hsg, hl, fun hmem => hD s.pool hmem a ⟨s, hs, rfl, hl⟩⟩⟩

end Drop

end Life

end Gpq
