import Gpq.Lifecycle.Finality
import Gpq.Lifecycle.Inputs
import Gpq.Lifecycle.Watches

/-!
# The end of a Generation's history

A handler commits a change, and records the event that announces it later. Nothing orders the
records of two handlers, so that the history of a Generation that is over may go on with an
event from before its end (`history_reordered`).

  * `history_ends`: where no terminal event is persisted, or published, while the record of a
    nonterminal one is still before that, none follows a terminal one.

The reason is that a Generation that is over stays so (`over_apply`): from then on nothing but
its terminal state can be announced.
-/

namespace Gpq

open Function Sql DbKey Machine

/-! ## Generations that are over -/

section Over

variable {G A P N : Type*} [DecidableEq G] [DecidableEq A] [DecidableEq P]
    {l l' : Life G A P N} {g : G}

omit [DecidableEq A] [DecidableEq P] in
/-- A change of one Generation that is there leaves every Generation there. -/
theorem gen_isSome_update {o : Option (GenLife A)} (k : G) (ho : (l.gen k).isSome → o.isSome)
    (hg : (l.gen g).isSome) : (update l.gen k o g).isSome := by
  by_cases hk : g = k
  · subst hk
    rw [Function.update_self]
    exact ho hg
  · rw [Function.update_of_ne hk]
    exact hg

/-- No change of the lifecycle removes a Generation. -/
theorem Life.Core.gen_isSome (h : Life.Core l l') (hg : (l.gen g).isSome) : (l'.gen g).isSome := by
  cases h with
  | start a r ha hs => exact gen_isSome_update _ (fun h => by simpa using h) hg
  | _ => exact gen_isSome_update _ (fun _ => rfl) hg

end Over

section OverApply

variable {g : Uuid} {db : Db}

theorem gen_isSome_iff : ((life db).gen g).isSome ↔ (fetch db (generation g)).isSome := by
  rw [show (life db).gen g = (fetch db (generation g)).map GenerationRow.life from rfl,
    Option.isSome_map]

theorem stateOf_generation {row : GenerationRow} (h : fetch db (generation g) = some row) :
    stateOf db (generation g) = some (.generation row.state) := by
  rw [stateOf, h]
  rfl

variable [ManifestHash]

/-- No operation removes a Generation. -/
theorem generation_isSome_apply (op : Op) (h : (fetch db (generation g)).isSome) :
    (fetch (op.apply db) (generation g)).isSome := by
  rcases op.effect db with hcore | ⟨w, a, now, -, -, r, -, -, hlate⟩ | ⟨w, pools, -, hrep⟩
  · rw [← gen_isSome_iff] at h ⊢
    exact preserved_of_path (I := fun l : DbLife => (l.gen g).isSome)
      (fun _ _ hl hstep => hstep.gen_isSome hl) h hcore
  · rw [← gen_isSome_iff] at h ⊢
    generalize life (op.apply db) = l' at hlate ⊢
    cases hlate
    exact gen_isSome_update _ (fun _ => rfl) h
  · rw [hrep.generations g]
    exact h

/-- A Generation that is over stays over, in its state. -/
theorem over_apply (op : Op) (h : Over db g) : Over (op.apply db) g := by
  obtain ⟨row, hrow, hterm⟩ := h
  obtain ⟨row', hrow'⟩ := Option.isSome_iff_exists.1 (generation_isSome_apply op (by rw [hrow]; rfl))
  have hsteps := (op.evolved db).steps (stateOf_generation hrow) (stateOf_generation hrow')
  have hsame : LifecycleState.generation row'.state = .generation row.state :=
    eq_of_isTerminal hterm hsteps
  exact ⟨row', hrow', by rw [LifecycleState.generation.inj hsame]; exact hterm⟩

end OverApply

/-! ## Events -/

/-- A `state_changed` event that carries a terminal state. -/
def GenerationEvent.isFinal : GenerationEvent → Bool
  | state s .. => s.isTerminal
  | _ => false

/-- A `state_changed` event that carries a nonterminal state. -/
def GenerationEvent.isInterim : GenerationEvent → Bool
  | state s .. => !s.isTerminal
  | _ => false

/-- No nonterminal event comes after a terminal one. -/
def EndsWithFinal (events : List GenerationEvent) : Prop :=
  events.Pairwise fun e e' => e.isFinal → ¬ e'.isInterim

instance (events : List GenerationEvent) : Decidable (EndsWithFinal events) :=
  inferInstanceAs (Decidable (events.Pairwise _))

/-- The live event that a client is sent. -/
def WatchItem.live? : WatchItem → Option GenerationEvent
  | live _ event => some event
  | _ => none

/-- The live events that a client was sent are among those that the watch received, in their
    order; what is still to be sent before them is not live. -/
structure Watch.LiveOk (w : Watch) : Prop where
  sent : (w.items.filterMap WatchItem.live?).Sublist (w.live.items.filterMap Broadcast.Item.value?)
  queue : w.queue.filterMap WatchItem.live? = []

namespace Hub

variable {g : Uuid} {s s' : Hub}

/-- A nonterminal event is made, and its record is at one of these stages. -/
def InterimAt (s : Hub) (p : Stage → Prop) : Prop :=
  ∃ i r, s.records i = some r ∧ r.event.isInterim ∧ p r.stage

/-- A nonterminal event is still to be persisted. -/
def Unrecorded (s : Hub) : Prop := s.InterimAt fun stage => stage = .made

/-- A nonterminal event is still to be published. -/
def Unpublished (s : Hub) : Prop := s.InterimAt fun stage => stage = .made ∨ ∃ n, stage = .persisted n

/-- No terminal event overtakes a nonterminal one: it is not persisted while one is still to be
    persisted, and not published while one is still to be published. -/
def InTurn : HubAct → Hub → Prop
  | .persist i true, s => ∀ r, s.records i = some r → r.event.isFinal → r.stage = .made →
    ¬ s.Unrecorded
  | .publish i, s => ∀ r n, s.records i = some r → r.event.isFinal → r.stage = .persisted n →
    ¬ s.Unpublished
  | _, _ => True

/-- What holds of the events of a hub in which each record waits for its turn. -/
structure InOrder (g : Uuid) (s : Hub) : Prop where
  ended : ∀ row, some row ∈ s.versions → row.state.isTerminal → Over s.db g
  recorded : ∀ e, some e ∈ s.log → e.isFinal → Over s.db g ∧ ¬ s.Unrecorded
  published : ∀ sent, s.channel = some sent → ∀ e ∈ sent, e.isFinal → Over s.db g ∧ ¬ s.Unpublished
  log : EndsWithFinal (s.log.filterMap id)
  channel : ∀ sent, s.channel = some sent → EndsWithFinal sent

/-! ## Steps -/

section Steps

theorem not_isInterim_of_isFinal {e : GenerationEvent} (h : e.isFinal) : ¬ e.isInterim := by
  cases e with
  | state => simpa [GenerationEvent.isFinal, GenerationEvent.isInterim] using h
  | _ => cases h

/-- An event goes on after those that it is appended to. -/
theorem EndsWithFinal.snoc {events : List GenerationEvent} {event : GenerationEvent}
    (h : EndsWithFinal events)
    (hlast : ∀ e ∈ events, e.isFinal → ¬ event.isInterim) : EndsWithFinal (events ++ [event]) := by
  refine List.pairwise_append.2 ⟨h, List.pairwise_singleton _ _, fun e he e' he' => ?_⟩
  obtain rfl := List.mem_singleton.1 he'
  exact hlast e he

/-- The Generation is over once its end is announced. -/
theorem over_of_isFinal (h : s.Ok g) (hs : s.InOrder g) {i : ℕ} {r : Record}
    (hr : s.records i = some r)
    (hfinal : r.event.isFinal) : Over s.db g := by
  obtain ⟨row, announcement, hrow, hevent⟩ := (h.records i r hr).announces
  rw [hevent] at hfinal
  cases announcement with
  | state => exact hs.ended row (List.mem_of_getElem? hrow) hfinal
  | _ => cases hfinal

/-- Nothing but the end of a Generation that is over is announced. -/
theorem interimAt_make {p : Stage → Prop} {i : ℕ} {announcement : Announcement} (hover : Over s.db g)
    (h : (s.make g i announcement).InterimAt p) : s.InterimAt p := by
  unfold make at h
  split at h
  · rename_i row hi hrow
    obtain ⟨j, r, hr, hinterim, hp⟩ := h
    dsimp only at hr
    by_cases hj : j = i
    · subst hj
      rw [update_self] at hr
      cases hr
      obtain ⟨row', hrow', hterm⟩ := hover
      cases hrow.symm.trans hrow'
      cases announcement with
      | state => exact absurd hinterim (not_isInterim_of_isFinal (e := .state ..) hterm)
      | _ => cases hinterim
    · rw [update_of_ne hj] at hr
      exact ⟨j, r, hr, hinterim, hp⟩
  · exact h

/-- A record that leaves the stages in question is no longer waited for. -/
theorem interimAt_setStage {p : Stage → Prop} {i : ℕ} {r : Record} {stage : Stage}
    (hr : s.records i = some r)
    (hstage : p stage → p r.stage) (h : (s.setStage i r stage).InterimAt p) : s.InterimAt p := by
  obtain ⟨j, r', hr', hinterim, hp⟩ := h
  rcases records_setStage hr' with ⟨rfl, rfl⟩ | hold
  · exact ⟨j, r, hr, hinterim, hstage hp⟩
  · exact ⟨j, r', hold, hinterim, hp⟩

/-- Fewer records are waited for, and nothing else changes. -/
theorem InOrder.waits (h : s.InOrder g) (hdb : s'.db = s.db) (hversions : s'.versions = s.versions)
    (hrecorded : Over s.db g → s'.Unrecorded → s.Unrecorded)
    (hpublished : Over s.db g → s'.Unpublished → s.Unpublished)
    (hlog : ∀ e, some e ∈ s'.log → some e ∈ s.log) (hends : EndsWithFinal (s'.log.filterMap id))
    (hchannel : ∀ sent, s'.channel = some sent → sent = [] ∨ s.channel = some sent) :
    s'.InOrder g where
  ended := by
    rw [hversions, hdb]
    exact h.ended
  recorded e he hfinal := by
    obtain ⟨hover, hnone⟩ := h.recorded e (hlog e he) hfinal
    exact ⟨hdb ▸ hover, mt (hrecorded hover) hnone⟩
  published sent hsent e he hfinal := by
    rcases hchannel sent hsent with rfl | hold
    · cases he
    · obtain ⟨hover, hnone⟩ := h.published sent hold e he hfinal
      exact ⟨hdb ▸ hover, mt (hpublished hover) hnone⟩
  log := hends
  channel sent hsent := by
    rcases hchannel sent hsent with rfl | hold
    · exact List.Pairwise.nil
    · exact h.channel sent hold

/-- An announcement that is only made is neither recorded nor published. -/
theorem InOrder.make (h : s.InOrder g) (i : ℕ) (announcement : Announcement) :
    (s.make g i announcement).InOrder g := by
  have hsame : (s.make g i announcement).db = s.db ∧ (s.make g i announcement).versions = s.versions ∧
      (s.make g i announcement).log = s.log ∧ (s.make g i announcement).channel = s.channel := by
    unfold Hub.make
    split <;> exact ⟨rfl, rfl, rfl, rfl⟩
  obtain ⟨hdb, hversions, hlog, hchannel⟩ := hsame
  refine h.waits hdb hversions interimAt_make interimAt_make ?_ ?_ ?_
  · exact fun e he => by rwa [hlog] at he
  · exact hlog ▸ h.log
  · exact fun sent hsent => .inr (by rwa [hchannel] at hsent)

/-- A transaction does not bring a Generation back. -/
theorem InOrder.transact [ManifestHash] (h : s.InOrder g) (op : Op) :
    (s.transact g op).InOrder g where
  ended row hrow hterm := by
    rcases List.mem_append.1 hrow with hold | hnew
    · exact over_apply op (h.ended row hold hterm)
    · exact ⟨row, (List.mem_singleton.1 hnew).symm, hterm⟩
  recorded e he hfinal := (h.recorded e he hfinal).imp_left (over_apply op)
  published sent hsent e he hfinal := (h.published sent hsent e he hfinal).imp_left (over_apply op)
  log := h.log
  channel := h.channel

/-- An event that is recorded in turn is in order: a final one is recorded after all others. -/
theorem InOrder.persist (hok : s.Ok g) (h : s.InOrder g) {i : ℕ} {reached : Bool}
    (hturn : InTurn (.persist i reached) s) : (s.persist i reached).InOrder g := by
  unfold Hub.persist
  split
  · rename_i r hr
    split
    · rename_i hmade
      obtain ⟨hmade, hdurable⟩ : r.stage = .made ∧ r.event.durable := by simpa using hmade
      have hfewer (stage : Stage) (hstage : stage ≠ .made) : (s.setStage i r stage).Unrecorded →
          s.Unrecorded :=
        interimAt_setStage hr fun h => absurd h hstage
      have hwaits (stage : Stage) : (s.setStage i r stage).Unpublished → s.Unpublished :=
        interimAt_setStage hr fun _ => .inl hmade
      split
      · rename_i hreached
        subst hreached
        -- after a final event nothing is left to be recorded
        have hlast : ∀ e, some e ∈ s.log → e.isFinal → ¬ r.event.isInterim :=
          fun e he hfinal hinterim => (h.recorded e he hfinal).2 ⟨i, r, hr, hinterim, hmade⟩
        refine ⟨h.ended, fun e he hfinal => ?_, fun sent hsent e he hfinal => ?_, ?_, h.channel⟩
        · rcases List.mem_append.1 he with hold | hnew
          · exact (h.recorded e hold hfinal).imp_right (mt (hfewer _ nofun))
          · cases List.mem_singleton.1 hnew
            have hover : Over s.db g := over_of_isFinal hok h hr hfinal
            exact ⟨hover, mt (hfewer _ nofun) (hturn r hr hfinal hmade)⟩
        · exact (h.published sent hsent e he hfinal).imp_right (mt (hwaits _))
        · -- so that nothing follows it in the log
          rw [List.filterMap_append]
          exact EndsWithFinal.snoc h.log fun e he => hlast e (by simpa using he)
      · exact h.waits rfl rfl (fun _ => hfewer _ nofun) (fun _ => hwaits _) (fun _ he => he) h.log
          fun _ hsent => .inr hsent
    · exact h
  · exact h

/-- What is sent to the channel. -/
theorem channel_publishEvent {event : GenerationEvent} {sent : List GenerationEvent}
    (h : (s.publishEvent event).channel = some sent) :
    ∃ before, s.channel = some before ∧ sent = before ++ [event] := by
  unfold publishEvent at h
  split at h
  · rename_i hnone
    rw [hnone] at h
    cases h
  · rename_i before hbefore
    split at h
    · cases h
    · cases h
      exact ⟨before, hbefore, rfl⟩

/-- A publication, of the record's event or of one without a state. -/
theorem InOrder.publishes (hok : s.Ok g) (h : s.InOrder g) {i : ℕ} {r : Record}
    (hr : s.records i = some r) {n position : Option ℕ} {event : GenerationEvent}
    (hevent : event.isFinal = false ∧ event.isInterim = false ∨
      event = r.event ∧ (∃ m, r.stage = .persisted m) ∧ (r.event.isFinal → ¬ s.Unpublished)) :
    ((s.setStage i r (.done n position)).publishEvent event).InOrder g := by
  have hfewer : (s.setStage i r (.done n position)).Unrecorded → s.Unrecorded :=
    interimAt_setStage hr fun h => by cases h
  have hwaits : (s.setStage i r (.done n position)).Unpublished → s.Unpublished :=
    interimAt_setStage hr fun h => by rcases h with h | ⟨m, h⟩ <;> cases h
  rw [publishEvent_eq]
  refine ⟨h.ended, fun e he hfinal => (h.recorded e he hfinal).imp_right (mt hfewer),
    fun sent hsent e he hfinal => ?_, h.log, fun sent hsent => ?_⟩
  · obtain ⟨before, hbefore, rfl⟩ := channel_publishEvent hsent
    rcases List.mem_append.1 he with hold | hnew
    · exact (h.published before hbefore e hold hfinal).imp_right (mt hwaits)
    · obtain rfl := List.mem_singleton.1 hnew
      rcases hevent with ⟨hnot, -⟩ | ⟨rfl, -, hturn⟩
      · rw [hnot] at hfinal
        cases hfinal
      · have hover : Over s.db g := over_of_isFinal hok h hr hfinal
        exact ⟨hover, mt hwaits (hturn hfinal)⟩
  · obtain ⟨before, hbefore, rfl⟩ := channel_publishEvent hsent
    refine EndsWithFinal.snoc (h.channel before hbefore) fun e he hfinal hinterim => ?_
    rcases hevent with ⟨-, hnot⟩ | ⟨rfl, hpersisted, -⟩
    · rw [hnot] at hinterim
      cases hinterim
    · exact (h.published before hbefore e he hfinal).2 ⟨i, r, hr, hinterim, .inr hpersisted⟩

/-- An event that is published in turn is in order. -/
theorem InOrder.publish (hok : s.Ok g) (h : s.InOrder g) {i : ℕ} (hturn : InTurn (.publish i) s) :
    (s.publish i).InOrder g := by
  unfold Hub.publish
  split
  · rename_i r hr
    split
    · split
      · exact h
      · rename_i hdurable
        refine h.publishes hok hr (.inl ?_)
        cases hevent : r.event with
        | state | progress =>
          rw [hevent] at hdurable
          exact absurd rfl hdurable
        | _ => exact ⟨rfl, rfl⟩
    · rename_i n hstage
      exact h.publishes hok hr (.inr ⟨rfl, ⟨n, hstage⟩, fun hfinal => hturn r n hr hfinal hstage⟩)
    · exact h.publishes hok hr (.inl ⟨rfl, rfl⟩)
    · exact h
  · exact h

end Steps

/-! ## Runs -/

section Runs

variable [ManifestHash]

/-- Every step in turn keeps the order. -/
theorem InOrder.step (hok : s.Ok g) (h : s.InOrder g) (a : HubAct) (hturn : InTurn a s) :
    (Hub.step g a s).InOrder g := by
  cases a with
  | transact op announced =>
    cases announced with
    | none => exact h.transact op
    | some announced => exact (h.transact op).make announced.1 announced.2
  | announce i announcement => exact h.make i announcement
  | persist i reached => exact h.persist hok hturn
  | publish i => exact h.publish hok hturn
  | appendAttemptCreated =>
    refine h.waits rfl rfl (fun _ => id) (fun _ => id) (fun e he => ?_) ?_ fun _ hsent => .inr hsent
    · simpa [Hub.step] using he
    · simpa [Hub.step, List.filterMap_append] using h.log
  | join =>
    refine h.waits rfl rfl (fun _ => id) (fun _ => id) (fun _ he => he) h.log fun sent hsent => ?_
    cases hchannel : s.channel <;> simp_all [Hub.step, opened]
  | subscribe =>
    rw [Hub.step]
    split
    · exact h
    · refine h.waits rfl rfl (fun _ => id) (fun _ => id) (fun _ he => he) h.log fun sent hsent => ?_
      cases hchannel : s.channel <;> simp_all [opened]
  | quit | advance | leave =>
    exact h.waits rfl rfl (fun _ => id) (fun _ => id) (fun _ he => he) h.log fun _ hsent => .inr hsent

/-- In every run in turn, everything is in order. -/
theorem inOrder_of_reachesBy (hs : s.ReachesBy g InTurn) : s.InOrder g := by
  refine Reachable.invariant (I := InOrder g) ?_ ?_ hs
  · rintro _ ⟨tenantId, rfl⟩
    exact {
      ended := fun row hrow hterm => ⟨row, (List.mem_singleton.1 hrow).symm, hterm⟩
      recorded := fun e he => by cases he
      published := fun sent hsent => by cases hsent
      log := List.Pairwise.nil
      channel := fun sent hsent => by cases hsent }
  · rintro s _ hs h ⟨a, hturn, rfl⟩
    exact h.step (ok_of_reaches (hs.mono fun _ _ ⟨a, _, he⟩ => ⟨a, trivial, he⟩)) a hturn

end Runs

/-! ## Live events -/

section Live

variable {w w' : Watch}

/-- What is sent for a received item is no other live event. -/
theorem sublist_liveItem {items : List WatchItem} {received : List (Broadcast.Item GenerationEvent)}
    (h : (items.filterMap WatchItem.live?).Sublist (received.filterMap Broadcast.Item.value?))
    (item : Broadcast.Item GenerationEvent) :
    ((items ++ [s.liveItem g item]).filterMap WatchItem.live?).Sublist
      ((received ++ [item]).filterMap Broadcast.Item.value?) := by
  rw [List.filterMap_append, List.filterMap_append]
  refine h.append ?_
  cases item with
  | lagged => exact List.nil_sublist _
  | value p e =>
    cases e with
    | output => exact List.nil_sublist _
    | _ => exact List.Sublist.refl _

/-- What a stream passes on live came over the channel. -/
theorem liveOk_stream (h : w.LiveOk) : (s.stream g w).LiveOk := by
  unfold stream
  split
  · rename_i item queue hqueue
    have hnone := h.queue
    rw [hqueue, List.filterMap_cons] at hnone
    cases hitem : item.live? with
    | some e =>
      rw [hitem] at hnone
      cases hnone
    | none =>
      rw [hitem] at hnone
      refine ⟨?_, hnone⟩
      rw [List.filterMap_append, List.filterMap_cons, hitem]
      exact (List.append_nil _).symm ▸ h.sent
  · split
    · exact h
    · -- the queue is empty: the next item comes from the channel
      rename_i hpeek
      refine ⟨?_, h.queue⟩
      rw [Broadcast.Receiver.recv, hpeek]
      exact sublist_liveItem h.sent _

/-- A snapshot and what is replayed are not live. -/
theorem liveOk_watchGeneration (h : w.LiveOk) (hw' : s.watchGeneration g w = some w') :
    w'.LiveOk := by
  unfold watchGeneration at hw'
  split at hw'
  · obtain ⟨row, -, rfl⟩ := Option.map_eq_some_iff.1 hw'
    exact ⟨h.sent, h.queue⟩
  · cases hw'
    exact ⟨h.sent, h.queue⟩
  · cases hw'
    refine ⟨h.sent, ?_⟩
    rw [List.filterMap_append, List.append_eq_nil_iff]
    constructor
    · cases w.row <;> rfl
    · rw [List.filterMap_map]
      exact List.filterMap_eq_nil_iff.2 fun _ _ => rfl
  · cases hw'
    exact liveOk_stream h

theorem watch_publishEvent (event : GenerationEvent) : (s.publishEvent event).watch = s.watch := by
  rw [publishEvent_eq]

/-- Only the steps of the call change a watch. -/
theorem watch_step [ManifestHash] (a : HubAct) {w' : Watch} (hw' : (Hub.step g a s).watch = some w') :
    s.watch = some w' ∨ w' = { live := Broadcast.subscribe s.opened } ∨
      ∃ w, s.watch = some w ∧ s.watchGeneration g w = some w' := by
  cases a with
  | advance => exact .inr (.inr (Option.bind_eq_some_iff.1 hw'))
  | leave => cases hw'
  | subscribe =>
    rw [Hub.step] at hw'
    split at hw'
    · exact .inl hw'
    · exact .inr (.inl (Option.some_inj.1 hw').symm)
  | publish i =>
    left
    rw [Hub.step] at hw'
    unfold Hub.publish at hw'
    repeat' split at hw'
    all_goals simpa only [watch_publishEvent, setStage] using hw'
  | transact op announced =>
    left
    rw [← hw']
    cases announced with
    | none => rfl
    | some announced =>
      simp only [Hub.step, Hub.make]
      split <;> rfl
  | announce i announcement =>
    left
    rw [← hw', Hub.step, Hub.make]
    split <;> rfl
  | persist i reached =>
    left
    rw [← hw', Hub.step, Hub.persist]
    repeat' split
    all_goals rfl
  | _ => exact .inl hw'

/-- Every watch has passed on a part of the channel, in order. -/
theorem liveOk_of_reaches [ManifestHash] (hs : s.Reaches g) : ∀ w, s.watch = some w → w.LiveOk := by
  refine Reachable.invariant (I := fun s => ∀ w, s.watch = some w → w.LiveOk) ?_ ?_ hs
  · rintro _ ⟨tenantId, rfl⟩ w hw
    cases hw
  · rintro s _ - h ⟨a, -, rfl⟩ w' hw'
    rcases watch_step a hw' with hold | rfl | ⟨w, hw, hstep⟩
    · exact h w' hold
    · exact ⟨List.nil_sublist _, rfl⟩
    · exact liveOk_watchGeneration (h w hw) hstep

end Live

end Hub

/-- Where no terminal event overtakes a nonterminal one, no nonterminal event comes after a
    terminal one, neither in what is persisted nor in what a subscriber is sent live. -/
theorem history_ends [ManifestHash] {g : Uuid} {s : Hub} (hs : s.ReachesBy g Hub.InTurn) :
    EndsWithFinal (s.log.filterMap id) ∧
    ∀ w, s.watch = some w → EndsWithFinal (w.items.filterMap WatchItem.live?) := by
  have hreach : s.Reaches g := hs.mono fun _ _ ⟨a, _, he⟩ => ⟨a, trivial, he⟩
  have horder := Hub.inOrder_of_reachesBy hs
  refine ⟨horder.log, fun w hw => ?_⟩
  obtain ⟨sent, hwatch⟩ := (Hub.ok_of_reaches hreach).watch w hw
  refine (horder.channel sent hwatch.channel).sublist ?_
  exact ((Hub.liveOk_of_reaches hreach w hw).sent.trans hwatch.live.sublist).trans
    (List.take_sublist _ _)

/-! ## Two sessions -/

/-- The record that a transaction or a handler begins. -/
def HubAct.announces : HubAct → Option ℕ
  | transact _ announced => announced.map Prod.fst
  | announce i _ => some i
  | _ => none

/-- A record is made by what announces it. -/
theorem records_step [ManifestHash] {g : Uuid} {s : Hub} {i : ℕ} (hi : s.records i = none)
    (a : HubAct)
    (ha : a.announces ≠ some i) : (Hub.step g a s).records i = none := by
  have hmake (s : Hub) (j : ℕ) (announcement : Announcement) (hi : s.records i = none) (hj : i ≠ j) :
      (s.make g j announcement).records i = none := by
    unfold Hub.make
    split
    · exact (update_of_ne hj _ _).trans hi
    · exact hi
  have hset (j : ℕ) (r : Record) (stage : Stage) (hr : s.records j = some r) :
      (s.setStage j r stage).records i = none := by
    refine (update_of_ne ?_ _ _).trans hi
    rintro rfl
    cases hi.symm.trans hr
  cases a with
  | transact op announced =>
    cases announced with
    | none => exact hi
    | some announced => exact hmake _ _ _ hi fun he => ha (congrArg some he.symm)
  | announce j announcement => exact hmake _ _ _ hi fun he => ha (congrArg some he.symm)
  | persist j reached =>
    rw [Hub.step, Hub.persist]
    repeat' split
    all_goals first | exact hi | exact hset _ _ _ ‹_›
  | publish j =>
    rw [Hub.step, Hub.publish]
    repeat' split
    all_goals first | exact hi | (rw [Hub.publishEvent_eq]; exact hset _ _ _ ‹_›)
  | subscribe =>
    rw [Hub.step]
    split <;> exact hi
  | _ => exact hi

/-- A record that nobody announces is not made. -/
theorem records_run [ManifestHash] {g : Uuid} {s : Hub} {i : ℕ} (hi : s.records i = none)
    (acts : List HubAct)
    (h : ∀ a ∈ acts, a.announces ≠ some i) : (Machine.run (Hub.step g) s acts).records i = none := by
  induction acts generalizing s with
  | nil => exact hi
  | cons a acts ih =>
    exact ih (records_step hi a (h a List.mem_cons_self)) fun b hb => h b (List.mem_cons_of_mem _ hb)

namespace Sample

/-- The first Attempt fails and its Generation is queued again, which the first session
    announces as record 0. -/
def queuedAgain : List HubAct := [
  .transact firstLease none,
  .transact (.attemptFailed alpha 41 ⟨.outOfMemory, "", false⟩ 5) (some (0, .state))]

/-- The Generation is leased to the second Worker. -/
def leasedAgain : HubAct := .transact (.tryAssign ⟨12, 22, 31⟩ 42 6 true) none

/-- The second Attempt fails for good, which the second session announces as record 1. -/
def failedForGood : HubAct :=
  .transact (.attemptFailed beta 42 ⟨.invalidInput, "", false⟩ 7) (some (1, .state))

/-- The second session is the faster one. -/
def overtaken : Hub :=
  watched (queuedAgain ++ [leasedAgain, failedForGood, .persist 1 true, .publish 1, .persist 0 true,
    .publish 0, .advance, .advance, .advance])

/-- The second session, after the first one is done. -/
def afterwards : List HubAct :=
  queuedAgain ++ [.persist 0 true] ++ [.publish 0] ++ [leasedAgain] ++ [failedForGood]

/-- Whether the record is of a terminal event. -/
def finalAt (i : ℕ) (s : Hub) : Bool := (s.records i).any fun r => r.event.isFinal

/-- The first record is done, and the second one is not of a nonterminal event. -/
def firstDone (s : Hub) : Bool :=
  ((s.records 0).all fun r => r.stage = .done (some 1) (some 0)) && (s.records 1).all fun r =>
    !r.event.isInterim

theorem watched_append (acts : List HubAct) (a : HubAct) :
    watched (acts ++ [a]) = @Hub.step manifestHash 31 a (watched acts) := by
  simp [watched, Machine.run, ← List.append_assoc, List.foldl_append]

/-- What is not final is always in turn. -/
theorem inTurn_of_finalAt {i : ℕ} {s : Hub} (h : finalAt i s = false) :
    Hub.InTurn (.persist i true) s ∧ Hub.InTurn (.publish i) s := by
  have hnot {r : Record} (hr : s.records i = some r) : ¬ r.event.isFinal := by
    rw [finalAt, hr] at h
    simpa using h
  exact ⟨fun r hr hfinal _ => absurd hfinal (hnot hr), fun r n hr hfinal _ => absurd hfinal (hnot hr)⟩

/-- The first record is done when the second one is made, and there is no third. -/
theorem inTurn_of_firstDone {acts : List HubAct} (hacts : ∀ a ∈ acts, a.announces.all (· < 2))
    (h : firstDone (watched acts)) (i : ℕ) :
    Hub.InTurn (.persist i true) (watched acts) ∧ Hub.InTurn (.publish i) (watched acts) := by
  obtain ⟨hfirst, hsecond⟩ := Bool.and_eq_true_iff.1 h
  have hnone (p : Stage → Prop) (hp : ¬ p (.done (some 1) (some 0))) : ¬
      (watched acts).InterimAt p := by
    rintro ⟨j, r, hr, hinterim, hstage⟩
    match j with
    | 0 =>
      rw [hr, Option.all_some, decide_eq_true_eq] at hfirst
      exact hp (hfirst ▸ hstage)
    | 1 =>
      rw [hr, Option.all_some, hinterim] at hsecond
      cases hsecond
    | j + 2 =>
      have hthird : (watched acts).records (j + 2) = none := by
        let _ := manifestHash
        refine records_run rfl _ fun a ha hj => ?_
        rcases List.mem_append.1 ha with hsetUp | hact
        · have hnothing : ∀ a ∈ (setUp.map fun op => HubAct.transact op none) ++
              [.subscribe, .advance, .advance, .advance], a.announces = none := by decide
          rw [hnothing a hsetUp] at hj
          cases hj
        · have hsmall := hacts a hact
          rw [hj] at hsmall
          simp at hsmall
      cases hr.symm.trans hthird
  refine ⟨fun _ _ _ _ => hnone _ nofun, fun _ _ _ _ _ => hnone _ ?_⟩
  rintro (hmade | ⟨n, hpersisted⟩)
  · cases hmade
  · cases hpersisted

theorem reachesBy_watched_nil : @Hub.ReachesBy manifestHash 31 Hub.InTurn (watched []) := by
  let _ := manifestHash
  exact Machine.reachable_run (.init ⟨1, rfl⟩) _
    ⟨trivial, trivial, trivial, trivial, trivial, trivial, trivial, trivial, trivial, trivial,
      trivial⟩

theorem reachesBy_watched_append {l : List HubAct} {a : HubAct}
    (h : @Hub.ReachesBy manifestHash 31 Hub.InTurn (watched l)) (ha : Hub.InTurn a (watched l)) :
    @Hub.ReachesBy manifestHash 31 Hub.InTurn (watched (l ++ [a])) := by
  rw [watched_append]
  exact .step h ⟨a, ha, rfl⟩

end Sample

/-- The session that queued the Generation again records that after another one recorded its
    end: the history of the failed Generation goes on with `queued`, and so does what a client
    is sent live. -/
theorem history_reordered : @Hub.Reaches Sample.manifestHash 31 Sample.overtaken ∧
    ¬ EndsWithFinal (Sample.overtaken.log.filterMap id) ∧
    ∃ w, Sample.overtaken.watch = some w ∧ ¬ EndsWithFinal (w.items.filterMap WatchItem.live?) := by
  have hrun : Sample.overtaken.log.filterMap id =
        [.state .failed 2 (some (.invalidInput, "")), .state .queued 1 none] ∧
      Sample.overtaken.watch.map (fun w => w.items.filterMap WatchItem.live?) =
        some [.state .failed 2 (some (.invalidInput, "")), .state .queued 1 none] := by
    decide +kernel
  refine ⟨Sample.reaches_watched _, ?_, ?_⟩
  · rw [hrun.1]
    decide
  · obtain ⟨w, hw, hlive⟩ := Option.map_eq_some_iff.1 hrun.2
    refine ⟨w, hw, ?_⟩
    rw [hlive]
    decide

/-- Where each session records before the next one does, the history ends with `failed`. -/
theorem history_ends_failed :
    let s := Sample.watched (Sample.afterwards ++ [.persist 1 true] ++ [.publish 1])
    EndsWithFinal (s.log.filterMap id) ∧
    s.log.filterMap id = [.state .queued 1 none, .state .failed 2 (some (.invalidInput, ""))] := by
  let _ := Sample.manifestHash
  refine ⟨(history_ends (g := 31) ?_).1, by decide +kernel⟩
  obtain ⟨h₀, h₁, h₂, h₃⟩ : Sample.finalAt 0 (Sample.watched Sample.queuedAgain) = false ∧
      Sample.finalAt 0 (Sample.watched (Sample.queuedAgain ++ [.persist 0 true])) = false ∧
      Sample.firstDone (Sample.watched Sample.afterwards) ∧
      Sample.firstDone (Sample.watched (Sample.afterwards ++ [.persist 1 true])) := by
    decide +kernel
  have hqueued : Hub.ReachesBy 31 Hub.InTurn (Sample.watched Sample.queuedAgain) :=
    Sample.reachesBy_watched_append (l := [.transact Sample.firstLease none])
      (Sample.reachesBy_watched_append (l := []) Sample.reachesBy_watched_nil trivial) trivial
  have hpersisted := Sample.reachesBy_watched_append hqueued (Sample.inTurn_of_finalAt h₀).1
  have hpublished := Sample.reachesBy_watched_append hpersisted (Sample.inTurn_of_finalAt h₁).2
  have hleased := Sample.reachesBy_watched_append (a := Sample.leasedAgain) hpublished trivial
  have hfailed := Sample.reachesBy_watched_append (a := Sample.failedForGood) hleased trivial
  have hrecorded :=
    Sample.reachesBy_watched_append hfailed (Sample.inTurn_of_firstDone (by decide) h₂ 1).1
  exact Sample.reachesBy_watched_append hrecorded (Sample.inTurn_of_firstDone (by decide) h₃ 1).2

end Gpq
