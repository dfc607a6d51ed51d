import Mathlib.Data.List.Find
import Gpq.Lib.Machine
import Gpq.Remote.Registry

/-!
# The registry is last-writer-wins

  * `RegistryRun.entry_iff`: in any order of registrations and drops, the entry of a Worker
    is the session registered last, until its guard is dropped;
  * `registry_last_writer`: so is the marker in the database, once every path is finished,
    where the registrations follow the markers, no path is cut short, and a session clears
    the marker only while it names no other session that is still there (`Sessions.orderly`);
  * `marker_erased`: a replaced session that closes late erases its successor's marker.
-/

namespace Gpq

open Function

/-! ## The registry -/

namespace RegistryRun

/-- The entry of a Worker is the session registered last, unless its guard was dropped. -/
structure Inv (c : RegistryRun) : Prop where
  entry : ∀ w, (c.registry.sessions w).map SessionEntry.sessionId =
    (c.latest w).filter fun s => (⟨w, s⟩ : SessionGuard) ∉ c.dropped
  dropped : ∀ g ∈ c.dropped, g ∈ c.guards

variable {c c' : RegistryRun}

/-- The latest session of a Worker is the one that registered last. -/
theorem latest_register (tenant worker : Uuid) (s : String) (w : Uuid) :
    (c.register tenant worker s).latest w = if w = worker then some s else c.latest w := by
  by_cases hw : w = worker
  · subst hw
    simp [latest, register, WorkerRegistry.register]
  · simp [latest, register, WorkerRegistry.register, hw, Ne.symm hw]

/-- A session that registers takes the entry of its Worker. -/
theorem Inv.register (h : c.Inv) {tenant worker : Uuid} {s : String}
    (fresh : ∀ g ∈ c.guards, g.sessionId ≠ s) : (c.register tenant worker s).Inv := by
  refine ⟨fun w => ?_, fun g hg => List.mem_cons_of_mem _ (h.dropped g hg)⟩
  rw [latest_register]
  by_cases hw : w = worker
  · subst hw
    have hnew : (⟨w, s⟩ : SessionGuard) ∉ c.dropped := fun hd => fresh _ (h.dropped _ hd) rfl
    simp [RegistryRun.register, WorkerRegistry.register, Option.filter, hnew]
  · have hentry := h.entry w
    simp only [RegistryRun.register, WorkerRegistry.register, update_of_ne hw, if_neg hw]
    exact hentry

/-- The entry after a guard is dropped. -/
theorem sessionId_drop (guard : SessionGuard) (registry : WorkerRegistry) (w : Uuid) :
    ((guard.drop registry).sessions w).map SessionEntry.sessionId =
      ((registry.sessions w).map SessionEntry.sessionId).filter fun s =>
        (⟨w, s⟩ : SessionGuard) ≠ guard := by
  obtain ⟨worker, s⟩ := guard
  by_cases hw : w = worker
  · subst hw
    cases hentry : registry.sessions w with
    | none => simp [SessionGuard.drop, hentry]
    | some entry =>
      by_cases hs : entry.sessionId = s
      · simp [SessionGuard.drop, hentry, hs, Option.filter]
      · simp [SessionGuard.drop, hentry, hs, Option.filter]
  · have hsame : ((SessionGuard.drop ⟨worker, s⟩ registry).sessions w) = registry.sessions w := by
      dsimp only [SessionGuard.drop]
      split
      · exact update_of_ne hw _ _
      · rfl
    rw [hsame]
    cases registry.sessions w with
    | none => rfl
    | some entry => simp [Option.filter, hw]

/-- A guard that is dropped takes its own entry with it, and no other. -/
theorem Inv.drop (h : c.Inv) {guard : SessionGuard} (handed : guard ∈ c.guards) :
    (c.drop guard).Inv := by
  refine ⟨fun w => ?_, fun g hg => ?_⟩
  · refine (sessionId_drop guard c.registry w).trans ?_
    rw [h.entry w]
    cases hlatest : c.latest w with
    | none =>
      have hlatest' : (c.drop guard).latest w = none := hlatest
      rw [hlatest']
      rfl
    | some s =>
      have hlatest' : (c.drop guard).latest w = some s := hlatest
      rw [hlatest']
      by_cases hd : (⟨w, s⟩ : SessionGuard) ∈ c.dropped
      · simp [Option.filter, RegistryRun.drop, hd]
      · simp [Option.filter, RegistryRun.drop, hd]
  · obtain rfl | hg := List.mem_cons.1 hg
    · exact handed
    · exact h.dropped g hg

/-- The registry has the latest session of each Worker, unless its guard was dropped. -/
theorem inv (h : Machine.Reachable (fun c : RegistryRun => c = {}) Step c) : c.Inv := by
  refine Machine.Reachable.invariant (I := Inv) ?_ ?_ h
  · rintro _ rfl
    exact ⟨fun _ => rfl, nofun⟩
  · rintro c _ - hinv (⟨tenant, worker, s, fresh⟩ | ⟨guard, handed, -⟩)
    · exact hinv.register fresh
    · exact hinv.drop handed

/-- The entry of a Worker is there with a session if and only if that is the latest session
    registered for it, and its guard has not been dropped. -/
theorem entry_iff (h : Machine.Reachable (fun c : RegistryRun => c = {}) Step c) (w : Uuid)
    (s : String) :
    (c.registry.sessions w).map SessionEntry.sessionId = some s ↔
      c.latest w = some s ∧ (⟨w, s⟩ : SessionGuard) ∉ c.dropped := by
  rw [(inv h).entry w, Option.filter_eq_some_iff, decide_eq_true_eq]

end RegistryRun

/-! ## Sessions -/

/-- The stages in which the marker may still name the session. -/
def SessionStage.mayBeMarked : SessionStage → Bool
  | .opening | .acknowledging | .pumping | .closing => true
  | .releasing | .over => false

/-- The stages in which the marker has to name the session, if it was the last to commit one. -/
def SessionStage.isMarked : SessionStage → Bool
  | .opening | .acknowledging | .pumping => true
  | .closing | .releasing | .over => false

namespace Sessions

/-- The registrations follow the markers: whatever marked later is not registered yet. -/
def inTurn (c : Sessions) (s : String) : Bool :=
  (c.records s).all fun r =>
    (c.marks.takeWhile fun m => m.2 ≠ s).all fun m => m.1 ≠ r.workerId || c.stage m.2 = some .opening

/-- The marker names no other session that is still there. -/
def spares (c : Sessions) (s : String) : Bool :=
  (c.records s).all fun r =>
    (c.marker r.workerId).all fun s' => s' = s || c.stage s' = some .closing

/-- What may happen: no path is cut short, the registrations follow the markers, and a
    session erases no other session's marker. -/
def orderly (e : SessionEvent) (c : Sessions) : Bool :=
  match e with
  | .register s => c.inTurn s
  | .abandon _ => false
  | .clear s succeeded => succeeded && c.spares s
  | _ => true

/-- The session that committed a Worker's marker last. -/
def lastMark (c : Sessions)
    (w : Uuid) : Option String := (c.marks.find? fun m => m.1 = w).map Prod.snd

/-- The session that marked last of those that are registered. -/
def lastRegistered (c : Sessions) (w : Uuid) : Option String :=
  (c.marks.find? fun m => m.1 = w && c.stage m.2 ≠ some .opening).map Prod.snd

/-- What holds in every run. -/
structure Wf (c : Sessions) : Prop where
  run : Machine.Reachable (fun c : RegistryRun => c = {}) RegistryRun.Step c.toRegistryRun
  marked : ∀ m ∈ c.marks, ∃ r, c.records m.2 = some r ∧ r.workerId = m.1
  recorded : ∀ s r, c.records s = some r → (r.workerId, s) ∈ c.marks
  guarded : ∀ g ∈ c.guards, ∃ r, c.records g.sessionId = some r ∧ r.workerId = g.workerId ∧
    r.stage ≠ .opening
  held : ∀ s r, c.records s = some r → r.stage ≠ .opening → r.stage ≠ .over →
    (⟨r.workerId, s⟩ : SessionGuard) ∈ c.guards ∧ (⟨r.workerId, s⟩ : SessionGuard) ∉ c.dropped

/-- What holds in every orderly run. -/
structure Ordered (c : Sessions) : Prop extends Wf c where
  latest : ∀ w, c.latest w = c.lastRegistered w
  dropped : ∀ s r, c.records s = some r → r.stage = .over →
    (⟨r.workerId, s⟩ : SessionGuard) ∈ c.dropped
  named : ∀ w s, c.marker w = some s → c.lastMark w = some s ∧ ∃ st ∈ c.stage s, st.mayBeMarked
  names : ∀ w s st, c.lastMark w = some s → c.stage s = some st → st.isMarked → c.marker w = some s

variable {c : Sessions} {s : String} {r : SessionRecord}

/-- The last mark of a Worker is one of its own sessions. -/
theorem lastMark_spec {w : Uuid} (h : c.Wf) (hs : c.lastMark w = some s) :
    ∃ r, c.records s = some r ∧ r.workerId = w := by
  obtain ⟨m, hm, rfl⟩ := Option.map_eq_some_iff.1 hs
  have hw : m.1 = w := by simpa using List.find?_some hm
  obtain ⟨r, hr, hrw⟩ := h.marked m (List.mem_of_find?_eq_some hm)
  exact ⟨r, hr, hrw.trans hw⟩

theorem stage_eq {st : SessionStage} (hr : c.records s = some r) (hst : c.stage s = some st) :
    r.stage = st := by
  rw [stage, hr] at hst
  exact Option.some.inj hst

/-- In an orderly run, once every path is finished, the marker of a Worker names the
    session of its entry. -/
theorem Ordered.settled (h : c.Ordered) (hsettled : c.Settled) (w : Uuid) :
    c.marker w = (c.registry.sessions w).map SessionEntry.sessionId := by
  have hlatest : c.latest w = c.lastMark w := by
    rw [h.latest, lastRegistered, lastMark]
    congr 1
    refine List.find?_congr fun m hm => ?_
    obtain ⟨r, hr, -⟩ := h.marked m hm
    have hopening : c.stage m.2 ≠ some .opening := by
      intro hst
      have := hsettled m.2 r hr
      rw [stage_eq hr hst] at this
      simp at this
    simp [hopening]
  rw [(RegistryRun.inv h.run).entry w, hlatest]
  cases hlast : c.lastMark w with
  | none =>
    cases hmarker : c.marker w with
    | none => rfl
    | some s =>
      have hnamed := (h.named w s hmarker).1
      rw [hlast] at hnamed
      cases hnamed
  | some s =>
    obtain ⟨r, hr, rfl⟩ := lastMark_spec h.toWf hlast
    have hst : c.stage s = some r.stage := by rw [stage, hr, Option.map_some]
    obtain hpumping | hover := hsettled s r hr
    · rw [hpumping] at hst
      have hheld := (h.held s r hr (by rw [hpumping]; decide) (by rw [hpumping]; decide)).2
      rw [h.names _ s _ hlast hst rfl]
      simp [Option.filter, hheld]
    · have hdropped := h.dropped s r hr hover
      have hnone : c.marker r.workerId = none := by
        cases hmarker : c.marker r.workerId with
        | none => rfl
        | some s' =>
          obtain ⟨hlast', st, hst', hmay⟩ := h.named _ s' hmarker
          rw [hlast] at hlast'
          cases hlast'
          rw [stage_eq hr hst'] at hover
          rw [hover] at hmay
          cases hmay
      rw [hnone]
      simp [Option.filter, hdropped]

/-! ### Steps -/

/-- A session that is not at the stage stays where it is. -/
theorem Ordered.whenAt (h : c.Ordered) {st : SessionStage} {f : SessionRecord → Sessions}
    (hf : ∀ r, c.records s = some r → r.stage = st → (f r).Ordered) : (c.whenAt s st f).Ordered := by
  unfold Sessions.whenAt
  split
  case h_1 r hr =>
    split
    case isTrue hst => exact hf r hr hst
    case isFalse => exact h
  case h_2 => exact h

/-- Where a session is, and what it holds, after one session has gone on. -/
structure GoesOn (c : Sessions) (s : String) (r : SessionRecord) (st : SessionStage)
    (c' : Sessions) : Prop where
  record : c.records s = some r
  records : c'.records = update c.records s (some { r with stage := st })
  marks : c'.marks = c.marks
  left : st ≠ .opening
  run : Machine.Reachable (fun c : RegistryRun => c = {}) RegistryRun.Step c'.toRegistryRun
  guards : ∀ g, g ∈ c'.guards ↔ g ∈ c.guards ∨ g = ⟨r.workerId, s⟩
  dropped : ∀ g, g ∈ c'.dropped ↔ g ∈ c.dropped ∨ st = .over ∧ g = ⟨r.workerId, s⟩
  held : (⟨r.workerId, s⟩ : SessionGuard) ∉ c.dropped

variable {c' : Sessions} {st : SessionStage}

theorem GoesOn.record_self (h : GoesOn c s r st c') : c'.records s = some { r with stage := st } := by
  rw [h.records, update_self]

theorem GoesOn.record_of_ne (h : GoesOn c s r st c') {s' : String} (hs : s' ≠ s) :
    c'.records s' = c.records s' := by
  rw [h.records, update_of_ne hs]

theorem GoesOn.stage_self (h : GoesOn c s r st c') : c'.stage s = some st := by
  rw [stage, h.record_self, Option.map_some]

theorem GoesOn.stage_of_ne (h : GoesOn c s r st c') {s' : String} (hs : s' ≠ s) :
    c'.stage s' = c.stage s' := by
  rw [stage, h.record_of_ne hs, stage]

theorem GoesOn.lastMark (h : GoesOn c s r st c') (w : Uuid) : c'.lastMark w = c.lastMark w := by
  rw [Sessions.lastMark, h.marks, Sessions.lastMark]

/-- A session that goes on keeps the records in order. -/
theorem GoesOn.wf (h : GoesOn c s r st c') (hwf : c.Wf) : c'.Wf where
  run := h.run
  marked m hm := by
    rw [h.marks] at hm
    obtain ⟨r', hr', hw⟩ := hwf.marked m hm
    by_cases hs : m.2 = s
    · rw [hs] at hr' ⊢
      cases h.record.symm.trans hr'
      exact ⟨_, h.record_self, hw⟩
    · exact ⟨r', (h.record_of_ne hs).trans hr', hw⟩
  recorded s' r' hr' := by
    rw [h.marks]
    by_cases hs : s' = s
    · subst hs
      cases h.record_self.symm.trans hr'
      have hmem := hwf.recorded s' r h.record
      exact hmem
    · exact hwf.recorded _ _ ((h.record_of_ne hs).symm.trans hr')
  guarded g hg := by
    obtain hg | rfl := (h.guards g).1 hg
    · obtain ⟨r', hr', hw, hst⟩ := hwf.guarded g hg
      by_cases hs : g.sessionId = s
      · rw [hs] at hr' ⊢
        cases h.record.symm.trans hr'
        exact ⟨_, h.record_self, hw, h.left⟩
      · exact ⟨r', (h.record_of_ne hs).trans hr', hw, hst⟩
    · exact ⟨_, h.record_self, rfl, h.left⟩
  held s' r' hr' hopening hover := by
    rw [h.guards, h.dropped]
    by_cases hs : s' = s
    · subst hs
      cases h.record_self.symm.trans hr'
      exact ⟨.inr rfl, fun hd => hd.elim h.held fun hd => hover hd.1⟩
    · obtain ⟨hg, hd⟩ := hwf.held s' r' ((h.record_of_ne hs).symm.trans hr') hopening hover
      refine ⟨.inl hg, fun hd' => hd'.elim hd fun hd' => hs ?_⟩
      exact congrArg SessionGuard.sessionId hd'.2

/-- A session that is registered and stays so leaves the order of the registrations. -/
theorem GoesOn.lastRegistered (h : GoesOn c s r st c') (hst : r.stage ≠ .opening) (w : Uuid) :
    c'.lastRegistered w = c.lastRegistered w := by
  have hold : c.stage s = some r.stage := by rw [stage, h.record, Option.map_some]
  rw [Sessions.lastRegistered, Sessions.lastRegistered, h.marks]
  congr 1
  refine List.find?_congr fun m _ => ?_
  by_cases hs : m.2 = s
  · simp [hs, h.stage_self, hold, h.left, hst]
  · rw [h.stage_of_ne hs]

/-- One session goes on, in an orderly run. -/
theorem GoesOn.ordered (h : GoesOn c s r st c') (ho : c.Ordered)
    (hlatest : ∀ w, c'.latest w = c'.lastRegistered w)
    (hmarker : ∀ w s', c'.marker w = some s' → c.marker w = some s' ∧ (s' = s → st.mayBeMarked))
    (hself : st.isMarked → r.stage.isMarked ∧ c'.marker = c.marker)
    (hothers : ∀ w s' st', s' ≠ s → c.stage s' = some st' → st'.isMarked → c.marker w = some s' →
      c'.marker w = some s') : c'.Ordered where
  toWf := h.wf ho.toWf
  latest := hlatest
  dropped s' r' hr' hover := by
    rw [h.dropped]
    by_cases hs : s' = s
    · subst hs
      cases h.record_self.symm.trans hr'
      exact .inr ⟨hover, rfl⟩
    · exact .inl (ho.dropped s' r' ((h.record_of_ne hs).symm.trans hr') hover)
  named w s' hs' := by
    obtain ⟨hold, hmay⟩ := hmarker w s' hs'
    obtain ⟨hlast, st', hst', hmay'⟩ := ho.named w s' hold
    refine ⟨(h.lastMark w).trans hlast, ?_⟩
    by_cases hs : s' = s
    · subst hs
      exact ⟨st, h.stage_self, hmay rfl⟩
    · exact ⟨st', (h.stage_of_ne hs).trans hst', hmay'⟩
  names w s' st' hlast hst' hmarked := by
    rw [h.lastMark] at hlast
    by_cases hs : s' = s
    · subst hs
      cases h.stage_self.symm.trans hst'
      obtain ⟨hmarked', hsame⟩ := hself hmarked
      rw [hsame]
      exact ho.names w s' r.stage hlast (by rw [stage, h.record, Option.map_some]) hmarked'
    · rw [h.stage_of_ne hs] at hst'
      exact hothers w s' st' hs hst' hmarked (ho.names w s' st' hlast hst' hmarked)

/-- A registered session goes on, and keeps its guard. -/
theorem goesOn_of_held (h : c.Wf) (hr : c.records s = some r) (hopening : r.stage ≠ .opening)
    (hover : r.stage ≠ .over) (hst : st ≠ .opening) (hst' : st ≠ .over)
    (hrecords : c'.records = update c.records s (some { r with stage := st }))
    (hmarks : c'.marks = c.marks)
        (hrun : c'.toRegistryRun = c.toRegistryRun) : GoesOn c s r st c' := by
  obtain ⟨hguard, hheld⟩ := h.held s r hr hopening hover
  refine ⟨hr, hrecords, hmarks, hst, hrun ▸ h.run, fun g => ?_, fun g => ?_, hheld⟩
  · rw [hrun]
    exact ⟨.inl, fun hg => hg.elim id fun hg => hg ▸ hguard⟩
  · rw [hrun]
    exact ⟨.inl, fun hg => hg.elim id fun hg => absurd hg.1 hst'⟩

/-- A registered session drops its guard. -/
theorem goesOn_drop (h : c.Wf) (hr : c.records s = some r) (hopening : r.stage ≠ .opening)
    (hover : r.stage ≠ .over) :
    GoesOn c s r .over
      { c.put s r .over with toRegistryRun := c.toRegistryRun.drop ⟨r.workerId, s⟩ } := by
  obtain ⟨hguard, hheld⟩ := h.held s r hr hopening hover
  refine ⟨hr, rfl, rfl, nofun, .step h.run (.drop _ hguard hheld), fun g => ?_, fun g => ?_, hheld⟩
  · exact ⟨.inl, fun hg => hg.elim id fun hg => hg ▸ hguard⟩
  · simp [RegistryRun.drop, or_comm]

/-- A session is registered. -/
theorem goesOn_register (h : c.Wf) (hr : c.records s = some r) (hopening : r.stage = .opening) :
    GoesOn c s r .acknowledging { c.put s r .acknowledging with
      toRegistryRun := c.toRegistryRun.register r.tenantId r.workerId s } := by
  have hfresh : ∀ g ∈ c.guards, g.sessionId ≠ s := by
    rintro g hg rfl
    obtain ⟨r', hr', -, hst⟩ := h.guarded g hg
    cases hr.symm.trans hr'
    exact hst hopening
  refine ⟨hr, rfl, rfl, nofun, .step h.run (.register _ _ _ hfresh), fun g => ?_, fun g => ?_,
    fun hd => ?_⟩
  · simp [RegistryRun.register, WorkerRegistry.register, or_comm]
  · simp [RegistryRun.register]
  · exact hfresh _ ((RegistryRun.inv h.run).dropped _ hd) rfl

/-- The session that is registered in turn is the last one registered. -/
theorem lastRegistered_register (h : c.Wf) (hr : c.records s = some r) (hturn : c.inTurn s)
    (hgoes : GoesOn c s r .acknowledging c') (w : Uuid) :
    c'.lastRegistered w = if w = r.workerId then some s else c.lastRegistered w := by
  have hstage : ∀ m : Uuid × String, m.2 ≠ s →
      c'.stage m.2 = c.stage m.2 := fun m hm => hgoes.stage_of_ne hm
  have hself : ∀ m ∈ c.marks, m.2 = s → m = (r.workerId, s) := by
    rintro ⟨w', s'⟩ hm rfl
    obtain ⟨r', hr', rfl⟩ := h.marked _ hm
    cases hr.symm.trans hr'
    rfl
  obtain ⟨later, earlier, hmarks, hnot⟩ := List.eq_append_cons_of_mem (h.recorded s r hr)
  have hlater : ∀ m ∈ later, m.2 ≠ s := fun m hm hs => by
    rw [hself m (hmarks ▸ List.mem_append_left _ hm) hs] at hm
    exact hnot hm
  rw [inTurn, hr, Option.all_some, hmarks, List.takeWhile_append_of_pos (by simpa using hlater),
    List.takeWhile_cons_of_neg (by simp), List.append_nil] at hturn
  rw [lastRegistered, hgoes.marks, hmarks]
  by_cases hw : w = r.workerId
  · subst hw
    have hskip : later.find? (fun m => m.1 = r.workerId && c'.stage m.2 ≠ some .opening) = none := by
      refine List.find?_eq_none.2 fun m hm => ?_
      have hm' := List.all_eq_true.1 hturn m hm
      rw [hstage m (hlater m hm)]
      rw [Bool.or_eq_true, decide_eq_true_eq, decide_eq_true_eq] at hm'
      rcases hm' with hm' | hm' <;> simp [hm']
    rw [List.find?_append, hskip, Option.none_or]
    simp [hgoes.stage_self]
  · rw [if_neg hw, lastRegistered, hmarks]
    congr 1
    refine List.find?_congr fun m hm => ?_
    by_cases hs : m.2 = s
    · rw [hself m (hmarks ▸ hm) hs]
      simp [Ne.symm hw]
    · rw [hstage m hs]

/-- What a new session leaves when it commits its marker. -/
structure Marks (c : Sessions) (s : String) (tenant worker : Uuid) (c' : Sessions) : Prop where
  fresh : c.records s = none
  records : c'.records = update c.records s (some ⟨tenant, worker, .opening⟩)
  marks : c'.marks = (worker, s) :: c.marks
  marker : c'.marker = update c.marker worker (some s)
  run : c'.toRegistryRun = c.toRegistryRun

section Marks

variable {tenant worker : Uuid}

theorem Marks.record_self (hm : Marks c s tenant worker c') :
    c'.records s = some ⟨tenant, worker, .opening⟩ := by
  rw [hm.records, update_self]

/-- No mark, guard or record was of the new session. -/
theorem Marks.record (hm : Marks c s tenant worker c') {s' : String} {r' : SessionRecord}
    (hr' : c.records s' = some r') : c'.records s' = some r' := by
  have hs : s' ≠ s := by
    rintro rfl
    cases hm.fresh.symm.trans hr'
  rw [hm.records, update_of_ne hs, hr']

/-- Only the session that is marked has a new record. -/
theorem Marks.record_cases (hm : Marks c s tenant worker c') {s' : String} {r' : SessionRecord}
    (hr' : c'.records s' = some r') :
    s' = s ∧ r' = ⟨tenant, worker, .opening⟩ ∨ c.records s' = some r' := by
  by_cases hs : s' = s
  · subst hs
    rw [hm.record_self] at hr'
    exact .inl ⟨rfl, (Option.some.inj hr').symm⟩
  · rw [hm.records, update_of_ne hs] at hr'
    exact .inr hr'

theorem Marks.stage (hm : Marks c s tenant worker c') {s' : String} {st : SessionStage}
    (hst : c.stage s' = some st) : c'.stage s' = some st := by
  obtain ⟨r', hr', rfl⟩ := Option.map_eq_some_iff.1 hst
  rw [Sessions.stage, hm.record hr', Option.map_some]

/-- It is the last one of its Worker now. -/
theorem Marks.lastMark (hm : Marks c s tenant worker c') (w : Uuid) :
    c'.lastMark w = if w = worker then some s else c.lastMark w := by
  rw [Sessions.lastMark, hm.marks]
  by_cases hw : w = worker
  · subst hw
    simp
  · rw [if_neg hw, List.find?_cons_of_neg (by simpa using Ne.symm hw), Sessions.lastMark]

/-- The new session is not registered yet. -/
theorem Marks.lastRegistered (hm : Marks c s tenant worker c') (hwf : c.Wf) (w : Uuid) :
    c'.lastRegistered w = c.lastRegistered w := by
  rw [Sessions.lastRegistered, hm.marks,
    List.find?_cons_of_neg (by simp [Sessions.stage, hm.record_self])]
  refine congrArg (Option.map Prod.snd) (List.find?_congr fun m hmem => ?_)
  obtain ⟨r', hr', -⟩ := hwf.marked m hmem
  rw [Sessions.stage, hm.record hr', Sessions.stage, hr']

/-- A mark keeps the records in order. -/
theorem Marks.wf (hm : Marks c s tenant worker c') (h : c.Wf) : c'.Wf where
  run := hm.run ▸ h.run
  marked m hmem := by
    rw [hm.marks] at hmem
    obtain rfl | hmem := List.mem_cons.1 hmem
    · exact ⟨_, hm.record_self, rfl⟩
    · obtain ⟨r', hr', hw⟩ := h.marked m hmem
      exact ⟨r', hm.record hr', hw⟩
  recorded s' r' hr' := by
    rw [hm.marks]
    obtain ⟨rfl, rfl⟩ | hr' := hm.record_cases hr'
    · exact List.mem_cons_self
    · exact List.mem_cons_of_mem _ (h.recorded s' r' hr')
  guarded g hg := by
    rw [hm.run] at hg
    obtain ⟨r', hr', hg'⟩ := h.guarded g hg
    exact ⟨r', hm.record hr', hg'⟩
  held s' r' hr' hopening hover := by
    rw [hm.run]
    obtain ⟨rfl, rfl⟩ | hr' := hm.record_cases hr'
    · exact absurd rfl hopening
    · exact h.held s' r' hr' hopening hover

/-- A new session commits its marker, in an orderly run. -/
theorem Marks.ordered (hm : Marks c s tenant worker c') (h : c.Ordered) : c'.Ordered where
  toWf := hm.wf h.toWf
  latest w := by
    rw [hm.run, hm.lastRegistered h.toWf, h.latest]
  dropped s' r' hr' hover := by
    rw [hm.run]
    obtain ⟨rfl, rfl⟩ | hr' := hm.record_cases hr'
    · cases hover
    · exact h.dropped s' r' hr' hover
  named w s' hs' := by
    rw [hm.marker] at hs'
    rw [hm.lastMark]
    by_cases hw : w = worker
    · subst hw
      cases (update_self ..).symm.trans hs'
      exact ⟨if_pos rfl, .opening, by rw [Sessions.stage, hm.record_self]; rfl, rfl⟩
    · obtain ⟨hlast, st', hst', hmay⟩ := h.named w s' ((update_of_ne hw ..).symm.trans hs')
      exact ⟨(if_neg hw).trans hlast, st', hm.stage hst', hmay⟩
  names w s' st' hlast hst' hmarked := by
    rw [hm.lastMark] at hlast
    rw [hm.marker]
    by_cases hw : w = worker
    · subst hw
      rw [if_pos rfl] at hlast
      rw [update_self, hlast]
    · rw [if_neg hw] at hlast
      rw [update_of_ne hw]
      obtain ⟨r₀, hr₀, -⟩ := lastMark_spec h.toWf hlast
      rw [Sessions.stage, hm.record hr₀] at hst'
      exact h.names w s' st' hlast (by rw [Sessions.stage, hr₀]; exact hst') hmarked

end Marks

/-- A session that clears the marker where it may leaves the registration behind the marks. -/
theorem Ordered.clear (h : c.Ordered) {s : String} (he : orderly (.clear s true) c) :
    (Sessions.step (.clear s true) c).Ordered := by
  have hspares : c.spares s := he
  refine h.whenAt fun r hr hst => ?_
  have hopening : r.stage ≠ .opening := by rw [hst]; decide
  have hgoes : GoesOn c s r .releasing
      { c.put s r .releasing with marker := update c.marker r.workerId none } :=
    goesOn_of_held h.toWf hr hopening (by rw [hst]; decide) nofun nofun rfl rfl rfl
  refine hgoes.ordered h (fun w => (h.latest w).trans (hgoes.lastRegistered hopening w).symm)
    (fun w s' hs' => ?_) (fun h => by cases h) fun w s' st' hs hst' hmarked hs' => ?_
  · have hw : w ≠ r.workerId := by
      rintro rfl
      cases (update_self ..).symm.trans hs'
    have hold : c.marker w = some s' := (update_of_ne hw ..).symm.trans hs'
    refine ⟨hold, fun hs => absurd ?_ hw⟩
    obtain ⟨r', hr', hrw⟩ := lastMark_spec h.toWf (h.named w s' hold).1
    rw [hs] at hr'
    cases hr.symm.trans hr'
    exact hrw.symm
  · have hw : w ≠ r.workerId := by
      rintro rfl
      rw [spares, hr, Option.all_some, hs', Option.all_some, Bool.or_eq_true, decide_eq_true_eq,
        decide_eq_true_eq] at hspares
      obtain hsame | hclosing := hspares
      · exact hs hsame
      · cases hst'.symm.trans hclosing
        cases hmarked
    exact (update_of_ne hw ..).trans hs'

/-- An event of an orderly run. -/
theorem Ordered.step (h : c.Ordered) {e : SessionEvent} (he : orderly e c) : (step e c).Ordered := by
  cases e with
  | mark tenant worker s =>
    cases hr : c.records s with
    | none =>
      have hstep : Sessions.step (.mark tenant worker s) c =
          { c with
            marker := update c.marker worker (some s)
            records := update c.records s (some ⟨tenant, worker, .opening⟩)
            marks := (worker, s) :: c.marks } := by
        simp [Sessions.step, hr]
      rw [hstep]
      exact Marks.ordered ⟨hr, rfl, rfl, rfl, rfl⟩ h
    | some r =>
      have hstep : Sessions.step (.mark tenant worker s) c = c := by simp [Sessions.step, hr]
      rwa [hstep]
  | register s =>
    refine h.whenAt fun r hr hst => ?_
    have hgoes := goesOn_register h.toWf hr hst
    refine hgoes.ordered h (fun w => ?_) (fun w s' hs' => ⟨hs', fun _ => rfl⟩)
      (fun _ => ⟨by rw [hst]; rfl, rfl⟩) fun w s' st' _ _ _ hs' => hs'
    rw [lastRegistered_register h.toWf hr he hgoes, ← h.latest]
    exact RegistryRun.latest_register r.tenantId r.workerId s w
  | acknowledge s =>
    refine h.whenAt fun r hr hst => ?_
    have hopening : r.stage ≠ .opening := by rw [hst]; decide
    have hgoes : GoesOn c s r .pumping (c.put s r .pumping) :=
      goesOn_of_held h.toWf hr hopening (by rw [hst]; decide) nofun nofun rfl rfl rfl
    exact hgoes.ordered h (fun w => (h.latest w).trans (hgoes.lastRegistered hopening w).symm)
      (fun w s' hs' => ⟨hs', fun _ => rfl⟩) (fun _ => ⟨by rw [hst]; rfl, rfl⟩)
        fun w s' st' _ _ _ hs' => hs'
  | abandon s => cases he
  | endPump s =>
    refine h.whenAt fun r hr hst => ?_
    have hopening : r.stage ≠ .opening := by rw [hst]; decide
    have hgoes : GoesOn c s r .closing (c.put s r .closing) :=
      goesOn_of_held h.toWf hr hopening (by rw [hst]; decide) nofun nofun rfl rfl rfl
    exact hgoes.ordered h (fun w => (h.latest w).trans (hgoes.lastRegistered hopening w).symm)
      (fun w s' hs' => ⟨hs', fun _ => rfl⟩) (fun h => by cases h) fun w s' st' _ _ _ hs' => hs'
  | clear s succeeded =>
    obtain rfl : succeeded = true := (Bool.and_eq_true_iff.1 he).1
    exact h.clear he
  | drop s =>
    refine h.whenAt fun r hr hst => ?_
    have hopening : r.stage ≠ .opening := by rw [hst]; decide
    have hgoes := goesOn_drop h.toWf hr hopening (by rw [hst]; decide)
    refine hgoes.ordered h (fun w => (h.latest w).trans (hgoes.lastRegistered hopening w).symm)
      (fun w s' hs' => ⟨hs', fun hs => ?_⟩) (fun h => by cases h) fun w s' st' _ _ _ hs' => hs'
    -- a marker never names a session that is about to drop its guard
    obtain ⟨-, st', hst', hmay⟩ := h.named w s' hs'
    rw [hs] at hst'
    rw [stage_eq hr hst'] at hst
    rw [hst] at hmay
    cases hmay

/-- In every orderly run the registration follows the marks. -/
theorem ordered (h : Machine.Reachable (fun c : Sessions => c = {})
    (Machine.Fires step fun e c => orderly e c) c) : c.Ordered := by
  refine Machine.Reachable.invariant (I := Ordered) ?_ ?_ h
  · rintro _ rfl
    exact ⟨⟨.init rfl, nofun, nofun, nofun, nofun⟩, fun _ => rfl, nofun, nofun, nofun⟩
  · rintro c _ - hc ⟨e, he, rfl⟩
    exact hc.step he

/-! ### Frames -/

/-- An event leaves the sessions that it does not name. -/
theorem records_step (c : Sessions) {e : SessionEvent} (he : e.session ≠ s) :
    (Sessions.step e c).records s = c.records s := by
  have hput : ∀ {s' : String} {r : SessionRecord}, s' ≠ s →
      update c.records s' (some r) s = c.records s := fun hs => update_of_ne hs.symm _ _
  have hwhen : ∀ {s' : String} {st : SessionStage} {f : SessionRecord → Sessions},
      (∀ r, (f r).records s = c.records s) → (c.whenAt s' st f).records s = c.records s := by
    intro s' st f hf
    unfold whenAt
    split
    · split
      · exact hf _
      · rfl
    · rfl
  cases e with
  | mark tenant worker s' =>
    dsimp only [Sessions.step]
    split
    · rfl
    · exact hput he
  | abandon s' =>
    dsimp only [Sessions.step]
    split
    · split
      · exact hput he
      · split
        · exact hput he
        · rfl
    · rfl
  | _ => exact hwhen fun r => hput he

/-- Others' events leave a session as it is. -/
theorem records_run (c : Sessions) (events : List SessionEvent) (h : ∀ e ∈ events, e.session ≠ s) :
    (Machine.run Sessions.step c events).records s = c.records s := by
  induction events generalizing c with
  | nil => rfl
  | cons e rest ih =>
    refine (ih (Sessions.step e c) fun e' he' => h e' (List.mem_cons_of_mem _ he')).trans ?_
    exact records_step c (h e List.mem_cons_self)

end Sessions

/-- The entry of a Worker is the session registered last, until its guard is dropped. In
    every run in which no path is cut short, the registrations follow the markers, and a
    session erases no other session's marker: once every path is finished, the marker of a
    Worker names the session of its entry. -/
theorem registry_last_writer (r : RegistryRun) (c : Sessions) :
    (Machine.Reachable (fun r => r = {}) RegistryRun.Step r →
      ∀ (w : Uuid) (s : String), (r.registry.sessions w).map SessionEntry.sessionId = some s ↔
        r.latest w = some s ∧ (⟨w, s⟩ : SessionGuard) ∉ r.dropped) ∧
    (Machine.Reachable (fun c => c = {})
        (Machine.Fires Sessions.step fun e c => Sessions.orderly e c) c → c.Settled →
      ∀ w, c.marker w = (c.registry.sessions w).map SessionEntry.sessionId) :=
  ⟨fun hr w s => RegistryRun.entry_iff hr w s, fun hc hsettled w =>
    (Sessions.ordered hc).settled hsettled w⟩

namespace Sample

/-- The sessions after some events. -/
def sessionsAfter (events : List SessionEvent) : Sessions := Machine.run Sessions.step {} events

/-- A session opens. -/
def opens (s : String) : List SessionEvent := [.mark 1 7 s, .register s, .acknowledge s]

/-- A session closes. -/
def closes (s : String) : List SessionEvent := [.endPump s, .clear s true, .drop s]

/-- What these events lead to is reached. -/
theorem reachable_sessionsAfter {allowed : SessionEvent → Sessions → Prop}
    (events : List SessionEvent) (h : Machine.Allowed Sessions.step allowed {} events) :
    Machine.Reachable (fun c => c = {}) (Machine.Fires Sessions.step allowed)
      (sessionsAfter events) := by
  have hinit : Machine.Reachable (fun c => c = {}) (Machine.Fires Sessions.step allowed)
      ({} : Sessions) :=
    .init rfl
  exact Machine.reachable_run hinit events h

/-- Whether every session that the events name has come to rest. -/
def settled (c : Sessions) (events : List SessionEvent) : Bool :=
  events.all fun e => (c.records e.session).all fun r => r.stage = .pumping || r.stage = .over

/-- Whether all sessions are settled is seen at those that have an event. -/
theorem settled_sessionsAfter {events : List SessionEvent}
    (h : settled (sessionsAfter events) events) :
    (sessionsAfter events).Settled := by
  intro s r hr
  by_cases hs : ∃ e ∈ events, e.session = s
  · obtain ⟨e, he, rfl⟩ := hs
    have hall := List.all_eq_true.1 h e he
    rw [hr, Option.all_some, Bool.or_eq_true, decide_eq_true_eq, decide_eq_true_eq] at hall
    exact hall
  · have hnone : (sessionsAfter events).records s = none :=
      Sessions.records_run {} events fun e he hse => hs ⟨e, he, hse⟩
    cases hnone.symm.trans hr

end Sample

/-- A session that closes before the Worker is back. -/
theorem registry_last_writer_reconnect :
    (Sample.sessionsAfter (Sample.opens "a" ++ Sample.closes "a" ++ Sample.opens "b")).marker 7 =
      some "b" := by
  have hrun : Machine.Allowed Sessions.step (fun e c => Sessions.orderly e c) {}
      (Sample.opens "a" ++ Sample.closes "a" ++ Sample.opens "b") := by decide
  exact (registry_last_writer {} _).2 (Sample.reachable_sessionsAfter _ hrun)
    (Sample.settled_sessionsAfter (by decide)) 7

/-- The Worker is back before its old session closes: the old session erases the marker of
    the new one. -/
theorem marker_erased :
    ∃ c : Sessions, Machine.Reachable (fun c => c = {})
      (Machine.Fires Sessions.step fun _ _ => True) c ∧
      c.Settled ∧ c.marker 7 ≠ (c.registry.sessions 7).map SessionEntry.sessionId :=
  ⟨Sample.sessionsAfter (Sample.opens "a" ++ Sample.opens "b" ++ Sample.closes "a"),
    Sample.reachable_sessionsAfter _ (Machine.allowed_of_forall (fun _ _ => trivial) _ _),
    Sample.settled_sessionsAfter (by decide), by decide⟩

end Gpq
