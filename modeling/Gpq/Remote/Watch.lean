import Mathlib.Logic.Function.Basic
import Gpq.Lib.Broadcast
import Gpq.Remote.System

/-!
# Watching a Generation

The `EventHub` and the `WatchGeneration` call, for one Generation: transactions that commit a
change, each handler's record of the event that it announces (the event is persisted and then
published), and the steps of a call that subscribes, reads the row, reads the latest sequence
number, loads what came after it, and then goes on with the live events.

Of the log only the rows of this Generation are here, in the order of their sequence numbers,
which start at one and have no gaps. A row of the kind `attempt_created` is `none`.
-/

namespace Gpq

open Sql DbKey

/-- One live update of a Generation. -/
inductive GenerationEvent
  | state (state : GenerationState) (attemptCount : ℕ) (failure : Option (FailureKind × String))
  | progress (snapshot : ProgressSnapshot)
  | output
  | discontinuity (reason : String)
  deriving DecidableEq

/-- Whether an event has a persisted form. -/
def GenerationEvent.durable : GenerationEvent → Bool
  | state .. | progress _ => true
  | output | discontinuity _ => false

/-- The failure of a Generation. -/
def GenerationRow.failure (row : GenerationRow) : Option (FailureKind × String) :=
  row.failureKind.map fun kind => (kind, row.failureMessage)

/-- What a handler announces of a row. -/
inductive Announcement
  /-- Its state. -/
  | state
  /-- A progress snapshot. -/
  | progress (snapshot : ProgressSnapshot)
  /-- An output. -/
  | output
  deriving DecidableEq

/-- The event that announces a row. -/
def Announcement.event (row : GenerationRow) : Announcement → GenerationEvent
  | state => .state row.state row.attemptCount row.failure
  | progress snapshot => .progress snapshot
  | output => .output

/-- How far the record of an event is. -/
inductive Stage
  /-- The event is made, from a committed row. -/
  | made
  /-- It is persisted. -/
  | persisted (sequence : ℕ)
  /-- It could not be persisted. -/
  | failed
  /-- It is published, at a position of the channel where there is one. -/
  | done (sequence position : Option ℕ)
  deriving DecidableEq

/-- The sequence number of an event that is persisted. -/
def Stage.sequence : Stage → Option ℕ
  | made | failed => none
  | persisted sequence => some sequence
  | done sequence _ => sequence

/-- The record of an event, made when so many versions of the row were committed. -/
structure Record where
  event : GenerationEvent
  version : ℕ
  stage : Stage := .made

/-- What a client of a watch is sent. -/
inductive WatchItem
  /-- The snapshot that the stream begins with. -/
  | snapshot (row : GenerationRow)
  /-- A persisted event. -/
  | replayed (event : GenerationEvent)
  /-- A live event, from a position of the channel. -/
  | live (position : ℕ) (event : GenerationEvent)
  /-- A fresh snapshot in the place of a live output event. -/
  | refreshed (row : Option GenerationRow)
  /-- Live events were missed: those of the positions in between. -/
  | missed (since upto : ℕ)
  deriving DecidableEq

/-- How far a watch is. -/
inductive WatchStage
  | subscribed
  | rowRead
  | latestRead (snapshotSequence : ℕ)
  | streaming
  deriving DecidableEq

/-- A watch, from its subscription on. -/
structure Watch where
  live : Broadcast.Receiver GenerationEvent
  stage : WatchStage := .subscribed
  /-- The row that was read, and how many versions of it were committed then. -/
  row : Option (GenerationRow × ℕ) := none
  /-- The snapshot and the replay, as far as they are still to be sent. -/
  queue : List WatchItem := []
  items : List WatchItem := []

/-- How many live events a channel keeps. -/
def channelCapacity : ℕ := 256

/-- The Remote, as far as the events of one Generation are concerned. -/
structure Hub where
  db : Db
  /-- The versions of the row that were committed, in order. -/
  versions : List (Option GenerationRow)
  log : List (Option GenerationEvent) := []
  /-- The events that were sent to the channel, where there is one. -/
  channel : Option (List GenerationEvent) := none
  /-- The receivers other than the watch's. -/
  others : ℕ := 0
  records : ℕ → Option Record := fun _ => none
  watch : Option Watch := none

/-- What happens to the hub. -/
inductive HubAct
  /-- A transaction, which may announce the row that it leaves. -/
  | transact (op : Op) (announced : Option (ℕ × Announcement))
  /-- A handler reads the row in a transaction of its own, to announce it. -/
  | announce (i : ℕ) (announcement : Announcement)
  /-- The event is persisted; the transaction reaches the database or fails. -/
  | persist (i : ℕ) (reached : Bool)
  /-- The event is published, or the discontinuity in its place. -/
  | publish (i : ℕ)
  /-- An `attempt_created` row is appended. -/
  | appendAttemptCreated
  /-- Another subscriber comes. -/
  | join
  /-- Another subscriber goes. -/
  | quit
  /-- The call subscribes. -/
  | subscribe
  /-- The next step of the call, or of its stream. -/
  | advance
  /-- The client goes. -/
  | leave

namespace Hub

/-- How many receivers the channel has. -/
def receiverCount (s : Hub) : ℕ := s.others + if s.watch.isSome then 1 else 0

/-- Publishes an event; a channel without receivers is pruned. -/
def publishEvent (s : Hub) (event : GenerationEvent) : Hub :=
  match s.channel with
  | none => s
  | some sent =>
    if s.receiverCount = 0 then { s with channel := none }
    else { s with channel := some (sent ++ [event]) }

/-- The position at which an event is published. -/
def position (s : Hub) : Option ℕ :=
  s.channel.bind fun sent => if s.receiverCount = 0 then none else some sent.length

/-- A record that was begun. -/
def make (g : Uuid) (s : Hub) (i : ℕ) (announcement : Announcement) : Hub :=
  match s.records i, fetch s.db (generation g) with
  | none, some row =>
    let record : Record := { event := announcement.event row, version := s.versions.length }
    { s with records := Function.update s.records i (some record) }
  | _, _ => s

/-- Another stage of a record. -/
def setStage (s : Hub) (i : ℕ) (r : Record) (stage : Stage) : Hub :=
  { s with records := Function.update s.records i (some { r with stage }) }

/-- `append_persisted`, for an event that has a persisted form. -/
def persist (s : Hub) (i : ℕ) (reached : Bool) : Hub :=
  match s.records i with
  | some r =>
    if r.stage = .made && r.event.durable then
      if reached then
        { (s.setStage i r (.persisted (s.log.length + 1))) with log := s.log ++ [some r.event] }
      else s.setStage i r .failed
    else s
  | none => s

/-- The publication of a recorded event. -/
def publish (s : Hub) (i : ℕ) : Hub :=
  match s.records i with
  | some r => match r.stage with
    | .made => if r.event.durable then s
      else (s.setStage i r (.done none s.position)).publishEvent r.event
    | .persisted n => (s.setStage i r (.done (some n) s.position)).publishEvent r.event
    | .failed => (s.setStage i r (.done none none)).publishEvent
        (.discontinuity "failed to persist a Generation event")
    | .done .. => s
  | none => s

/-- What is sent for an item of the live stream. -/
def liveItem (g : Uuid) (s : Hub) : Broadcast.Item GenerationEvent → WatchItem
  | .value _ .output => .refreshed (fetch s.db (generation g))
  | .value position event => .live position event
  | .lagged since upto => .missed since upto

/-- Sends the next item of a stream: the snapshot and the replay, and then live events. -/
def stream (g : Uuid) (s : Hub) (w : Watch) : Watch :=
  match w.queue with
  | item :: queue => { w with queue, items := w.items ++ [item] }
  | [] => match w.live.peek channelCapacity (s.channel.getD []) with
    | none => w
    | some item =>
      { w with
        live := w.live.recv channelCapacity (s.channel.getD [])
        items := w.items ++ [s.liveItem g item] }

/-- The next step of a watch. -/
def watchGeneration (g : Uuid) (s : Hub) (w : Watch) : Option Watch :=
  match w.stage with
  | .subscribed => (fetch s.db (generation g)).map fun row =>
      { w with stage := .rowRead, row := some (row, s.versions.length) }
  | .rowRead => some { w with stage := .latestRead s.log.length }
  | .latestRead snapshotSequence =>
    some { w with
      stage := .streaming
      queue := w.row.toList.map (fun r => .snapshot r.1) ++
        ((s.log.drop snapshotSequence).filterMap id).map .replayed }
  | .streaming => some (s.stream g w)

/-- The channel, created for its first subscriber. -/
def opened (s : Hub) : List GenerationEvent := s.channel.getD []

variable [ManifestHash]

/-- A committed transaction. -/
def transact (g : Uuid) (s : Hub) (op : Op) : Hub :=
  let db := op.apply s.db
  { s with db, versions := s.versions ++ [fetch db (generation g)] }

/-- What an action leaves. -/
def step (g : Uuid) (a : HubAct) (s : Hub) : Hub :=
  match a with
  | .transact op none => s.transact g op
  | .transact op (some (i, announcement)) => (s.transact g op).make g i announcement
  | .announce i announcement => s.make g i announcement
  | .persist i reached => s.persist i reached
  | .publish i => s.publish i
  | .appendAttemptCreated => { s with log := s.log ++ [none] }
  | .join => { s with channel := some s.opened, others := s.others + 1 }
  | .quit => { s with others := s.others - 1 }
  | .subscribe =>
    if s.watch.isSome then s
    else { s with channel := some s.opened, watch := some { live := Broadcast.subscribe s.opened } }
  | .advance => { s with watch := s.watch.bind (s.watchGeneration g) }
  | .leave => { s with watch := none }

/-- A hub before anything happened. -/
def initial (g : Uuid) (db : Db) : Hub where
  db
  versions := [fetch db (generation g)]

/-- The hubs that actions lead to where each is allowed in its state. -/
def ReachesBy (g : Uuid) (allowed : HubAct → Hub → Prop) : Hub → Prop :=
  Machine.Reachable (fun s => ∃ tenantId, s = initial g (.initial tenantId))
    (Machine.Fires (step g) allowed)

/-- The hubs that any actions lead to. -/
def Reaches (g : Uuid) : Hub → Prop := ReachesBy g fun _ _ => True

end Hub

end Gpq
