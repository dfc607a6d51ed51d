import Gpq.Lifecycle.Reports
import Gpq.Remote.Watch

/-!
# Watches

What a client that watches a Generation gets of the events that are persisted, in whatever
order the steps of the call and the handlers' transactions, records and publications are
taken.

  * `watch_no_gap`: an event that was persisted before the call read the row announces a
    version of the row that the snapshot already shows; one that is persisted later is
    published to the call's receiver, and the client gets it or is told that it missed it.
-/

namespace Gpq

open Sql DbKey

namespace Hub

variable {g : Uuid} {s s' : Hub}

/-- Where a persisted event is that a watch has not read from the row. -/
inductive Coming (sent : List GenerationEvent) (start : ℕ) (r : Record) : Prop
  /-- It is still to be published. -/
  | unpublished (n : ℕ) (h : r.stage = .persisted n)
  /-- It is on the channel, since the watch subscribed. -/
  | published (n p : ℕ) (h : r.stage = .done (some n) (some p)) (hstart : start ≤ p)
    (hsent : sent[p]? = some r.event)

/-- The record of an event can be trusted: it was made from a committed version, and only an
    event with a persisted form has a sequence number. -/
structure RecordOk (s : Hub) (r : Record) : Prop where
  version : r.version ≤ s.versions.length
  announces : ∃ row announcement, s.versions[r.version - 1]? = some (some row) ∧
    r.event = Announcement.event row announcement
  durable : ∀ n, r.stage.sequence = some n → r.event.durable

/-- What a watch has done of the channel's events and of the Generation's row. -/
structure WatchOk (s : Hub) (sent : List GenerationEvent) (w : Watch) : Prop where
  channel : s.channel = some sent
  live : w.live.Ok sent
  stage : w.stage ≠ .subscribed → w.row.isSome
  row : ∀ row v, w.row = some (row, v) → v ≤ s.versions.length ∧ s.versions[v - 1]? = some (some row)
  unsent : w.stage ≠ .streaming → w.items = []
  snapshot : w.stage = .streaming → ∀ row v, w.row = some (row, v) →
    (w.items ++ w.queue).head? = some (.snapshot row)
  value : ∀ p e, .value p e ∈ w.live.items → e.durable → .live p e ∈ w.items
  lagged : ∀ since upto, .lagged since upto ∈ w.live.items → .missed since upto ∈ w.items
  covers : ∀ row v, w.row = some (row, v) → ∀ i r n, s.records i = some r →
    r.stage.sequence = some n →
    r.version ≤ v ∨ Coming sent w.live.start r

/-- What holds of a reached hub. -/
structure Ok (g : Uuid) (s : Hub) : Prop where
  current : s.versions.getLast? = some (fetch s.db (generation g))
  records : ∀ i r, s.records i = some r → s.RecordOk r
  watch : ∀ w, s.watch = some w → ∃ sent, s.WatchOk sent w

/-! ## Changes around a watch -/

section Changes

variable {sent : List GenerationEvent} {w : Watch}

/-- What is to come still comes after another event. -/
theorem Coming.send {start : ℕ} {r : Record} (h : Coming sent start r) (e : GenerationEvent) :
    Coming (sent ++ [e]) start r := by
  cases h with
  | unpublished n h => exact .unpublished n h
  | published n p h hstart hsent =>
    obtain ⟨hlt, -⟩ := List.getElem?_eq_some_iff.1 hsent
    exact .published n p h hstart (by rw [List.getElem?_append_left hlt]; exact hsent)

/-- The channel is as it was, or got one event more. -/
def Sends (sent sent' : List GenerationEvent) : Prop := sent' = sent ∨ ∃ e, sent' = sent ++ [e]

/-- A committed version stays. -/
theorem getElem?_of_prefix {l l' : List (Option GenerationRow)} (h : l <+: l') {n : ℕ}
    {o : Option GenerationRow}
    (ho : l[n]? = some o) : l'[n]? = some o := by
  obtain ⟨later, rfl⟩ := h
  obtain ⟨hlt, -⟩ := List.getElem?_eq_some_iff.1 ho
  rw [List.getElem?_append_left hlt]
  exact ho

theorem RecordOk.mono {r : Record} (h : s.RecordOk r) (hversions : s.versions <+: s'.versions) :
    s'.RecordOk r where
  version := h.version.trans hversions.length_le
  announces := by
    obtain ⟨row, announcement, hrow, hevent⟩ := h.announces
    exact ⟨row, announcement, getElem?_of_prefix hversions hrow, hevent⟩
  durable := h.durable

/-- Whatever happens around a watch keeps it, as long as every newly persisted event is still
    to come. -/
theorem WatchOk.around {sent' : List GenerationEvent} (h : s.WatchOk sent w)
    (hversions : s.versions <+: s'.versions) (hchannel : s'.channel = some sent')
    (hsends : Sends sent sent')
    (hrecords : ∀ i r n, s'.records i = some r → r.stage.sequence = some n →
      s.records i = some r ∨ Coming sent' w.live.start r) : s'.WatchOk sent' w where
  channel := hchannel
  live := by
    rcases hsends with rfl | ⟨e, rfl⟩
    · exact h.live
    · exact h.live.send e
  stage := h.stage
  row row v hrow := by
    obtain ⟨hv, hversion⟩ := h.row row v hrow
    exact ⟨hv.trans hversions.length_le, getElem?_of_prefix hversions hversion⟩
  unsent := h.unsent
  snapshot := h.snapshot
  value := h.value
  lagged := h.lagged
  covers row v hrow i r n hr hn := by
    rcases hrecords i r n hr hn with hold | hcoming
    · rcases h.covers row v hrow i r n hold hn with hle | hcoming
      · exact .inl hle
      · rcases hsends with rfl | ⟨e, rfl⟩
        · exact .inr hcoming
        · exact .inr (hcoming.send e)
    · exact .inr hcoming

/-- The records are as they were, but for one. -/
theorem records_setStage {i j : ℕ} {r r' : Record} {stage : Stage}
    (h : (s.setStage i r stage).records j = some r') :
    (j = i ∧ r' = { r with stage }) ∨ s.records j = some r' := by
  change Function.update s.records i (some { r with stage }) j = some r' at h
  by_cases hj : j = i
  · subst hj
    rw [Function.update_self] at h
    exact .inl ⟨rfl, (Option.some_inj.1 h).symm⟩
  · rw [Function.update_of_ne hj] at h
    exact .inr h

/-- With a watch, an event is appended to the channel. -/
theorem publishEvent_of_watch (hw : s.watch = some w) (hchannel : s.channel = some sent)
    (event : GenerationEvent) : s.publishEvent event =
      { s with channel := some (sent ++ [event]) } := by
  have hcount : s.receiverCount ≠ 0 := by simp [receiverCount, hw]
  unfold publishEvent
  rw [hchannel]
  exact if_neg hcount

theorem position_of_watch (hw : s.watch = some w) (hchannel : s.channel = some sent) :
    s.position = some sent.length := by
  have hcount : s.receiverCount ≠ 0 := by simp [receiverCount, hw]
  rw [position, hchannel]
  exact if_neg hcount

/-- Only the channel changes by a publication. -/
theorem publishEvent_eq (s : Hub) (event : GenerationEvent) :
    s.publishEvent event = { s with channel := (s.publishEvent event).channel } := by
  unfold publishEvent
  split
  · rfl
  · split <;> rfl

end Changes

/-! ## Steps -/

section Steps

/-- An announcement that is made is of the row as it is now. -/
theorem Ok.make (h : s.Ok g) (i : ℕ) (announcement : Announcement) :
    (s.make g i announcement).Ok g := by
  unfold Hub.make
  split
  · rename_i row hi hrow
    have hrecords : ∀ j r, Function.update s.records i
        (some { event := announcement.event row, version := s.versions.length : Record }) j = some r →
        s.records j = some r ∨
            r = { event := announcement.event row, version := s.versions.length } := by
      intro j r hj
      by_cases hji : j = i
      · subst hji
        rw [Function.update_self] at hj
        exact .inr (Option.some_inj.1 hj).symm
      · rw [Function.update_of_ne hji] at hj
        exact .inl hj
    refine ⟨h.current, fun j r hj => ?_, fun w hw => ?_⟩
    · rcases hrecords j r hj with hold | rfl
      · exact (h.records j r hold).mono (List.prefix_refl _)
      · refine ⟨le_rfl, ⟨row, announcement, ?_, rfl⟩, fun n hn => by cases hn⟩
        rw [← List.getLast?_eq_getElem?, h.current, hrow]
    · obtain ⟨sent, hwatch⟩ := h.watch w hw
      refine ⟨sent,
        hwatch.around (List.prefix_refl _) hwatch.channel (.inl rfl) fun j r n hj hn => ?_⟩
      rcases hrecords j r hj with hold | rfl
      · exact .inl hold
      · cases hn
  · exact h

/-- A record that goes on to its next stage, and what a watch learns of it. -/
theorem Ok.setStage (h : s.Ok g) {i : ℕ} {r : Record} (hr : s.records i = some r) {stage : Stage}
    (hdurable : ∀ n, stage.sequence = some n → r.event.durable)
    {channel : Option (List GenerationEvent)} {log : List (Option GenerationEvent)}
    (hwatch : ∀ w sent, s.watch = some w → s.WatchOk sent w → ∃ sent', channel = some sent' ∧
      Sends sent sent' ∧
      ∀ n, stage.sequence = some n → Coming sent' w.live.start { r with stage }) :
    Ok g { (s.setStage i r stage) with channel, log } where
  current := h.current
  records j r' hj := by
    rcases records_setStage hj with ⟨rfl, rfl⟩ | hold
    · exact ⟨(h.records j r hr).version, (h.records j r hr).announces, hdurable⟩
    · exact (h.records j r' hold).mono (List.prefix_refl _)
  watch w hw := by
    obtain ⟨sent, hok⟩ := h.watch w hw
    obtain ⟨sent', hchannel, hsends, hcoming⟩ := hwatch w sent hw hok
    refine ⟨sent', hok.around (List.prefix_refl _) hchannel hsends fun j r' n hj hn => ?_⟩
    rcases records_setStage hj with ⟨rfl, rfl⟩ | hold
    · exact .inr (hcoming n hn)
    · exact .inl hold

/-- An event that is persisted is still to come for every watch. -/
theorem Ok.persist (h : s.Ok g) (i : ℕ) (reached : Bool) : (s.persist i reached).Ok g := by
  unfold Hub.persist
  split
  · rename_i r hr
    split
    · rename_i hmade
      simp only [Bool.and_eq_true, decide_eq_true_eq] at hmade
      split
      · exact h.setStage hr (fun _ _ => hmade.2) fun w sent _ hok =>
          ⟨sent, hok.channel, .inl rfl, fun n _ => .unpublished _ rfl⟩
      · exact h.setStage hr (fun n hn => by cases hn) fun w sent _ hok =>
          ⟨sent, hok.channel, .inl rfl, fun n hn => by cases hn⟩
    · exact h
  · exact h

/-- A publication that gives the record the stage `stage`. -/
theorem Ok.publishes (h : s.Ok g) {i : ℕ} {r : Record} (hr : s.records i = some r) {stage : Stage}
    (event : GenerationEvent) (hdurable : ∀ n, stage.sequence = some n → r.event.durable)
    (hstage : ∀ n, stage.sequence = some n → stage = .done (some n) s.position ∧ event = r.event) :
    ((s.setStage i r stage).publishEvent event).Ok g := by
  rw [publishEvent_eq]
  refine h.setStage hr hdurable fun w sent hw hok => ?_
  have hchannel : ((s.setStage i r stage).publishEvent event).channel = some (sent ++ [event]) := by
    rw [publishEvent_of_watch (s := s.setStage i r stage) hw hok.channel]
  refine ⟨sent ++ [event], hchannel, .inr ⟨event, rfl⟩, fun n hn => ?_⟩
  obtain ⟨rfl, rfl⟩ := hstage n hn
  refine .published n sent.length ?_ (hok.live.start_le.trans hok.live.next_le) ?_
  · rw [position_of_watch hw hok.channel]
  · simp

/-- An event that is published comes over the channel. -/
theorem Ok.publish (h : s.Ok g) (i : ℕ) : (s.publish i).Ok g := by
  unfold Hub.publish
  split
  · rename_i r hr
    split
    · split
      · exact h
      · exact h.publishes hr _ (fun n hn => by cases hn) fun n hn => by cases hn
    · rename_i n hstage
      refine h.publishes hr _ (fun _ _ => (h.records i r hr).durable n (by rw [hstage]; rfl)) ?_
      rintro _ ⟨⟩
      exact ⟨rfl, rfl⟩
    · exact h.publishes hr _ (fun n hn => by cases hn) fun n hn => by cases hn
    · exact h
  · exact h

theorem Ok.transact [ManifestHash] (h : s.Ok g) (op : Op) : (s.transact g op).Ok g where
  current := by simp [Hub.transact]
  records i r hr := (h.records i r hr).mono (List.prefix_append _ _)
  watch w hw := by
    obtain ⟨sent, hok⟩ := h.watch w hw
    refine ⟨sent,
      hok.around (List.prefix_append _ _) hok.channel (.inl rfl) fun i r n hr _ => .inl hr⟩

/-- Whatever leaves the row, the records and the watch alone, and the watch's channel. -/
theorem Ok.elsewhere (h : s.Ok g) (hdb : s'.db = s.db) (hversions : s'.versions = s.versions)
    (hrecords : s'.records = s.records) (hwatch : s'.watch = s.watch)
    (hchannel : ∀ sent, s.channel = some sent → s'.channel = some sent) : s'.Ok g where
  current := by
    rw [hversions, hdb]
    exact h.current
  records i r hr := by
    rw [hrecords] at hr
    exact (h.records i r hr).mono (hversions ▸ List.prefix_refl _)
  watch w hw := by
    rw [hwatch] at hw
    obtain ⟨sent, hok⟩ := h.watch w hw
    refine ⟨sent,
      hok.around (hversions ▸ List.prefix_refl _) (hchannel sent hok.channel) (.inl rfl) ?_⟩
    intro i r n hr _
    rw [hrecords] at hr
    exact .inl hr

/-- The watch alone changes. -/
theorem Ok.watches (h : s.Ok g) {o : Option Watch} (ho : ∀ w ∈ o, ∃ sent, s.WatchOk sent w) :
    Ok g { s with watch := o } where
  current := h.current
  records i r hr := (h.records i r hr).mono (List.prefix_refl _)
  watch w hw := by
    obtain ⟨sent, hok⟩ := ho w hw
    exact ⟨sent, { hok with }⟩

/-- A watch begins with what is sent from now on. -/
theorem Ok.subscribe (h : s.Ok g) :
    Ok g { s with channel := some s.opened, watch := some { live := Broadcast.subscribe s.opened } }
      where
  current := h.current
  records i r hr := (h.records i r hr).mono (List.prefix_refl _)
  watch w hw := by
    obtain rfl := (Option.some_inj.1 hw).symm
    exact ⟨s.opened, {
      channel := rfl
      live := Broadcast.Receiver.ok_subscribe _
      stage := fun hs => absurd rfl hs
      row := fun row v hrow => by cases hrow
      unsent := fun _ => rfl
      snapshot := fun hs => by cases hs
      value := fun p e he => by cases he
      lagged := fun since upto hl => by cases hl
      covers := fun row v hrow => by cases hrow }⟩

variable {sent : List GenerationEvent} {w : Watch}

/-- The snapshot and the replay are sent before live events are. -/
theorem WatchOk.stream (h : s.WatchOk sent w) (hstreaming : w.stage = .streaming) :
    s.WatchOk sent (s.stream g w) := by
  unfold Hub.stream
  split
  · rename_i item queue hqueue
    exact {
      channel := h.channel
      live := h.live
      stage := h.stage
      row := h.row
      unsent := fun hs => absurd hstreaming hs
      snapshot := fun hs row v hrow => by
        have hfirst := h.snapshot hs row v hrow
        rw [hqueue] at hfirst
        simpa using hfirst
      value := fun p e he hd => List.mem_append_left _ (h.value p e he hd)
      lagged := fun since upto hl => List.mem_append_left _ (h.lagged since upto hl)
      covers := h.covers }
  · rename_i hqueue
    rw [h.channel]
    simp only [Option.getD_some]
    split
    · exact h
    · rename_i item hpeek
      have hrecv : w.live.recv channelCapacity sent =
          { w.live with
            next := Broadcast.Receiver.after item
            items := w.live.items ++ [item] } := by
        rw [Broadcast.Receiver.recv, hpeek]
      exact {
        channel := h.channel
        live := h.live.recv
        stage := h.stage
        row := h.row
        unsent := fun hs => absurd hstreaming hs
        snapshot := fun hs row v hrow => by
          have hfirst := h.snapshot hs row v hrow
          rw [hqueue, List.append_nil] at hfirst
          rw [hqueue, List.append_nil, List.head?_append, hfirst]
          rfl
        value := fun p e he hd => by
          rw [hrecv] at he
          rcases List.mem_append.1 he with hold | hnew
          · exact List.mem_append_left _ (h.value p e hold hd)
          · obtain rfl := List.mem_singleton.1 hnew
            refine List.mem_append_right _ (List.mem_singleton.2 ?_)
            cases e with
            | output => cases hd
            | _ => rfl
        lagged := fun since upto hl => by
          rw [hrecv] at hl
          rcases List.mem_append.1 hl with hold | hnew
          · exact List.mem_append_left _ (h.lagged since upto hold)
          · obtain rfl := List.mem_singleton.1 hnew
            exact List.mem_append_right _ (List.mem_singleton_self _)
        covers := by
          rw [hrecv]
          exact h.covers }

/-- A step of a watch: it subscribes before it reads the row, so that nothing falls between. -/
theorem Ok.watchGeneration (h : s.Ok g) (hok : s.WatchOk sent w) {w' : Watch}
    (hw' : s.watchGeneration g w = some w') : s.WatchOk sent w' := by
  unfold Hub.watchGeneration at hw'
  split at hw'
  · rename_i hsubscribed
    obtain ⟨row, hrow, rfl⟩ := Option.map_eq_some_iff.1 hw'
    -- the row has a version
    have hpos : 0 < s.versions.length := by
      rw [List.length_pos_iff]
      rintro hnil
      have := h.current
      rw [hnil] at this
      cases this
    exact {
      channel := hok.channel
      live := hok.live
      stage := fun _ => rfl
      row := by
        rintro _ _ ⟨⟩
        refine ⟨le_rfl, ?_⟩
        rw [← List.getLast?_eq_getElem?, h.current, hrow]
      unsent := fun _ => hok.unsent (by rw [hsubscribed]; exact nofun)
      snapshot := fun hs => by cases hs
      value := hok.value
      lagged := hok.lagged
      covers := by
        rintro _ _ ⟨⟩ i r n hr -
        exact .inl (h.records i r hr).version }
  · rename_i hread
    cases hw'
    exact { hok with
      stage := fun _ => hok.stage (by rw [hread]; exact nofun)
      unsent := fun _ => hok.unsent (by rw [hread]; exact nofun)
      snapshot := fun hs => by cases hs }
  · rename_i hread
    cases hw'
    exact { hok with
      stage := fun _ => hok.stage (by rw [hread]; exact nofun)
      unsent := fun hs => absurd rfl hs
      snapshot := fun _ row v hrow => by
        dsimp only at hrow ⊢
        rw [hok.unsent (by rw [hread]; exact nofun), hrow]
        rfl }
  · rename_i hstreaming
    cases hw'
    exact hok.stream hstreaming

end Steps

/-! ## Runs -/

/-- Every step keeps what each watch is to see. -/
theorem Ok.step [ManifestHash] (h : s.Ok g) (a : HubAct) : (Hub.step g a s).Ok g := by
  cases a with
  | transact op announced =>
    cases announced with
    | none => exact h.transact op
    | some announced => exact (h.transact op).make announced.1 announced.2
  | announce i announcement => exact h.make i announcement
  | persist i reached => exact h.persist i reached
  | publish i => exact h.publish i
  | appendAttemptCreated => exact h.elsewhere rfl rfl rfl rfl fun _ hc => hc
  | join => exact h.elsewhere rfl rfl rfl rfl fun sent hc => by simp [Hub.step, Hub.opened, hc]
  | quit => exact h.elsewhere rfl rfl rfl rfl fun _ hc => hc
  | subscribe =>
    rw [Hub.step]
    split
    · exact h
    · exact h.subscribe
  | advance =>
    refine h.watches fun w' hw' => ?_
    obtain ⟨w, hw, hstep⟩ := Option.bind_eq_some_iff.1 hw'
    obtain ⟨sent, hok⟩ := h.watch w hw
    exact ⟨sent, h.watchGeneration hok hstep⟩
  | leave => exact h.watches fun w hw => by cases hw

/-- In every run each watch sees what it is to see. -/
theorem ok_of_reaches [ManifestHash] (hs : s.Reaches g) : s.Ok g := by
  refine Machine.Reachable.invariant (I := Ok g) ?_ ?_ hs
  · rintro _ ⟨tenantId, rfl⟩
    exact {
      current := rfl
      records := fun i r hr => by cases hr
      watch := fun w hw => by cases hw }
  · rintro s _ - h ⟨a, -, rfl⟩
    exact h.step a

/-! ## Reading on -/

/-- How many items are there for a client to read. -/
def backlog (s : Hub) (w : Watch) : ℕ := w.queue.length + (s.opened.length - w.live.next)

variable {sent : List GenerationEvent} {w : Watch}

/-- Reading keeps the watch, and brings its end nearer. -/
theorem stream_backlog (h : s.WatchOk sent w) :
    s.backlog (s.stream g w) < s.backlog w ∨ s.backlog w = 0 ∧ s.stream g w = w := by
  have hopened : s.opened = sent := by simp [opened, h.channel]
  unfold backlog
  rw [hopened]
  unfold stream
  cases hqueue : w.queue with
  | cons item queue =>
    left
    simp only [List.length_cons]
    omega
  | nil =>
    rw [h.channel]
    simp only [Option.getD_some]
    rcases h.live.next_le.lt_or_eq with hlt | heq
    · left
      have hgoes : w.live.next <
          (w.live.recv channelCapacity sent).next := Broadcast.Receiver.next_lt_recv hlt
      cases hpeek : w.live.peek channelCapacity sent with
      | none =>
        rw [Broadcast.Receiver.recv, hpeek] at hgoes
        exact absurd hgoes (Nat.lt_irrefl _)
      | some item =>
        simp only [List.length_nil]
        omega
    · right
      rw [Broadcast.Receiver.peek_of_next_eq heq, heq]
      simp

/-- Reading changes what was sent and what is left, and nothing else of a watch. -/
theorem stream_keeps (g : Uuid) (s : Hub) (w : Watch) :
    (s.stream g w).stage = w.stage ∧ (s.stream g w).row = w.row ∧
    (s.stream g w).live.start = w.live.start := by
  unfold stream
  split
  · exact ⟨rfl, rfl, rfl⟩
  · split
    · exact ⟨rfl, rfl, rfl⟩
    · refine ⟨rfl, rfl, ?_⟩
      unfold Broadcast.Receiver.recv
      dsimp only
      split <;> rfl

/-- A client that reads on has read everything in the end. -/
theorem readOn (h : s.WatchOk sent w) (hstreaming : w.stage = .streaming) (n : ℕ) :
    let w' := (s.stream g)^[n] w
    s.WatchOk sent w' ∧ w'.stage = .streaming ∧ w'.row = w.row ∧ w'.live.start = w.live.start ∧
      s.backlog w' ≤ s.backlog w - n := by
  induction n generalizing w with
  | zero => exact ⟨h, hstreaming, rfl, rfl, Nat.le_refl _⟩
  | succ n ih =>
    obtain ⟨hstage, hrow, hstart⟩ := stream_keeps g s w
    obtain ⟨hok, hstreaming', hrow', hstart', hbacklog⟩ :=
      ih (h.stream (g := g) hstreaming) (hstage.trans hstreaming)
    rw [Function.iterate_succ_apply]
    refine ⟨hok, hstreaming', hrow'.trans hrow, hstart'.trans hstart, hbacklog.trans ?_⟩
    rcases stream_backlog (g := g) h with hless | ⟨hzero, hsame⟩
    · omega
    · rw [hsame, hzero]
      omega

end Hub

/-- What a client of `WatchGeneration` gets, once its stream has begun: first the row as it was
    when the call read it. Of every event that is persisted, either the record has not published
    it yet; or the row is of a version no older than the one that the event announces; or a
    client that reads on, for at least as many items as there are, has been sent the live event
    or has been told that it missed its position. -/
theorem watch_no_gap [ManifestHash] {g : Uuid} {s : Hub} (hs : s.Reaches g) {w : Watch}
    (hw : s.watch = some w) (hstage : w.stage = .streaming) (n : ℕ) (hn : s.backlog w ≤ n) :
    let items := ((s.stream g)^[n] w).items
    ∃ row v, s.versions[v - 1]? = some (some row) ∧ items.head? = some (.snapshot row) ∧
      ∀ i r k, s.records i = some r → r.stage.sequence = some k →
        (∃ row' announcement, s.versions[r.version - 1]? = some (some row') ∧
          r.event = Announcement.event row' announcement) ∧
        (r.stage = .persisted k ∨ r.version ≤ v ∨
          ∃ p, r.stage = .done (some k) (some p) ∧
            (.live p r.event ∈ items ∨ ∃ since upto, .missed since upto ∈ items ∧ since ≤ p ∧
                p < upto)) := by
  have hok := Hub.ok_of_reaches hs
  obtain ⟨sent, hwatch⟩ := hok.watch w hw
  obtain ⟨hwatch', hstage', hrow', hstart', hbacklog⟩ := Hub.readOn (g := g) hwatch hstage n
  obtain ⟨⟨row, v⟩, hrow⟩ := Option.isSome_iff_exists.1 (hwatch.stage (by rw [hstage]; exact nofun))
  -- nothing is left to be read
  generalize (s.stream g)^[n] w = w' at hwatch' hstage' hrow' hstart' hbacklog ⊢
  have hopened : s.opened = sent := by simp [Hub.opened, hwatch.channel]
  have hnone : w'.queue.length + (sent.length - w'.live.next) = 0 := by
    rw [Hub.backlog, hopened] at hbacklog
    omega
  have hqueue : w'.queue = [] := List.length_eq_zero_iff.1 (by omega)
  have hfirst := hwatch'.snapshot hstage' row v (hrow'.trans hrow)
  rw [hqueue, List.append_nil] at hfirst
  refine ⟨row, v, (hwatch.row row v hrow).2, hfirst,
    fun i r k hr hk => ⟨(hok.records i r hr).announces, ?_⟩⟩
  rcases hwatch.covers row v hrow i r k hr hk with hle | hcoming
  · exact .inr (.inl hle)
  cases hcoming with
  | unpublished m h =>
    rw [h] at hk
    cases hk
    exact .inl h
  | published m p h hstart hsent =>
    rw [h] at hk
    cases hk
    obtain ⟨hlt, -⟩ := List.getElem?_eq_some_iff.1 hsent
    refine .inr (.inr ⟨p, h, ?_⟩)
    rcases hwatch'.live.complete p r.event (hstart' ▸ hstart) (by omega) hsent with hv |
      ⟨since, upto, hl, hp⟩
    · exact .inl (hwatch'.value p r.event hv ((hok.records i r hr).durable k (by rw [h]; rfl)))
    · exact .inr ⟨since, upto, hwatch'.lagged since upto hl, hp⟩

namespace Sample

/-- A watch of the Generation, and what happens after its stream has begun. -/
def watched (acts : List HubAct) : Hub :=
  Machine.run (@Hub.step manifestHash 31) (Hub.initial 31 (.initial 1))
    ((setUp.map fun op => .transact op none) ++ [.subscribe, .advance, .advance, .advance] ++ acts)

theorem reaches_watched (acts : List HubAct) : @Hub.Reaches manifestHash 31 (watched acts) := by
  let _ := manifestHash
  exact Machine.reachable_run (.init ⟨1, rfl⟩) _ (Machine.allowed_of_forall (fun _ _ => trivial) _ _)

end Sample

/-- The Generation is leased while it is watched. -/
theorem watch_no_gap_leased :
    let s := Sample.watched [.transact Sample.firstLease (some (0, .state)), .persist 0 true,
      .publish 0]
    s.channel = some [.state .running 1 none] ∧
    ∃ w, s.watch = some w ∧
        ∃ row, ((s.stream 31)^[s.backlog w] w).items.head? = some (.snapshot row) := by
  let _ := Sample.manifestHash
  have hrun : (Sample.watched [.transact Sample.firstLease (some (0, .state)), .persist 0 true,
      .publish 0]).channel = some [.state .running 1 none] ∧
      (Sample.watched [.transact Sample.firstLease (some (0, .state)), .persist 0 true,
        .publish 0]).watch.map
        Watch.stage = some .streaming := by
    decide +kernel
  refine ⟨hrun.1, ?_⟩
  obtain ⟨w, hw, hstage⟩ := Option.map_eq_some_iff.1 hrun.2
  obtain ⟨row, -, -, hfirst, -⟩ := watch_no_gap (Sample.reaches_watched _) hw hstage _ (Nat.le_refl _)
  exact ⟨w, hw, row, hfirst⟩

end Gpq
