import Mathlib.Logic.Function.Basic
import Gpq.Remote.Schema

/-!
# The session registry

The in-memory registry of the live control sessions (`WorkerRegistry`), and the open and
close paths of a session (`SessionEvent`), which also keep the `session_id` marker of its
row in `workers`. A session commits its marker and then registers; when its control stream
ends, it clears the marker of its Worker and then drops its guard.
-/

namespace Gpq

open Function

/-- One live Worker control session. -/
structure SessionEntry where
  tenantId : Uuid
  sessionId : String
  deriving DecidableEq

/-- The Workers that hold an open control session. -/
structure WorkerRegistry where
  sessions : Uuid → Option SessionEntry := fun _ => none

/-- Removes a session's registration when it is dropped. -/
structure SessionGuard where
  workerId : Uuid
  sessionId : String
  deriving DecidableEq

namespace WorkerRegistry

/-- Registers a live session for a Worker in place of any earlier one. -/
def register (registry : WorkerRegistry) (tenant worker : Uuid) (sessionId : String) :
    WorkerRegistry × SessionGuard :=
  (⟨update registry.sessions worker (some ⟨tenant, sessionId⟩)⟩, ⟨worker, sessionId⟩)

end WorkerRegistry

/-- Drops the guard: the registration goes if it is still this session's. -/
def SessionGuard.drop (guard : SessionGuard) (registry : WorkerRegistry) : WorkerRegistry :=
  let stillCurrent := (registry.sessions guard.workerId).any fun entry =>
    entry.sessionId = guard.sessionId
  if stillCurrent then ⟨update registry.sessions guard.workerId none⟩ else registry

/-! ## Runs of the registry -/

/-- A registry, with the guards that it has handed out, the latest first, and those that
    were dropped. -/
structure RegistryRun where
  registry : WorkerRegistry := {}
  guards : List SessionGuard := []
  dropped : List SessionGuard := []

namespace RegistryRun

/-- A session is registered. -/
def register (c : RegistryRun) (tenant worker : Uuid) (sessionId : String) : RegistryRun :=
  let (registry, guard) := c.registry.register tenant worker sessionId
  { c with registry, guards := guard :: c.guards }

/-- A guard is dropped. -/
def drop (c : RegistryRun) (guard : SessionGuard) : RegistryRun :=
  { c with registry := guard.drop c.registry, dropped := guard :: c.dropped }

/-- The session that was registered last for a Worker. -/
def latest (c : RegistryRun) (worker : Uuid) : Option String :=
  (c.guards.find? fun g => g.workerId = worker).map SessionGuard.sessionId

/-- A session with a new identifier is registered, or a guard that is held is dropped. -/
inductive Step (c : RegistryRun) : RegistryRun → Prop
  | register (tenant worker : Uuid) (sessionId : String)
    (fresh : ∀ g ∈ c.guards, g.sessionId ≠ sessionId) :
    Step c (c.register tenant worker sessionId)
  | drop (guard : SessionGuard) (handed : guard ∈ c.guards) (held : guard ∉ c.dropped) :
    Step c (c.drop guard)

end RegistryRun

/-! ## Sessions -/

/-- How far a session has come. -/
inductive SessionStage
  /-- Its marker is committed; it is not registered yet. -/
  | opening
  /-- It is registered; the handshake is not acknowledged yet. -/
  | acknowledging
  /-- Its messages are handled. -/
  | pumping
  /-- Its stream is over; the marker is not cleared yet. -/
  | closing
  /-- The marker was cleared, or that failed; the guard is still held. -/
  | releasing
  /-- Nothing is left to be done. -/
  | over
  deriving DecidableEq

/-- A session that has committed its marker. -/
structure SessionRecord where
  tenantId : Uuid
  workerId : Uuid
  stage : SessionStage
  deriving DecidableEq

/-- The registry, the `session_id` markers, the sessions, and the markers in the order of
    their commits, the latest first. -/
structure Sessions extends RegistryRun where
  marker : Uuid → Option String := fun _ => none
  records : String → Option SessionRecord := fun _ => none
  marks : List (Uuid × String) := []

/-- What happens to a session next. -/
inductive SessionEvent
  /-- The opening transaction commits the marker of a new session. -/
  | mark (tenant worker : Uuid) (sessionId : String)
  | register (sessionId : String)
  /-- The handshake's acknowledgement is queued, and the pump is spawned. -/
  | acknowledge (sessionId : String)
  /-- The call is dropped before the pump is spawned, or the acknowledgement cannot be sent. -/
  | abandon (sessionId : String)
  /-- The control stream ends. -/
  | endPump (sessionId : String)
  /-- The marker is cleared, or the statement fails. -/
  | clear (sessionId : String) (succeeded : Bool)
  | drop (sessionId : String)

/-- The session that the event is about. -/
def SessionEvent.session : SessionEvent → String
  | mark _ _ s | register s | acknowledge s | abandon s | endPump s | clear s _ | drop s => s

namespace Sessions

/-- How far a session has come. -/
def stage (c : Sessions) (s : String) : Option SessionStage := (c.records s).map SessionRecord.stage

/-- The session goes on from a stage, if that is where it is. -/
def whenAt (c : Sessions) (s : String) (stage : SessionStage) (f : SessionRecord → Sessions) :
    Sessions :=
  match c.records s with
  | some r => if r.stage = stage then f r else c
  | none => c

/-- The session is at another stage. -/
def put (c : Sessions) (s : String) (r : SessionRecord) (stage : SessionStage) : Sessions :=
  { c with records := update c.records s (some { r with stage }) }

/-- What an event leaves. -/
def step : SessionEvent → Sessions → Sessions
  | .mark tenant worker s, c =>
    if (c.records s).isSome then c
    else
      { c with
        marker := update c.marker worker (some s)
        records := update c.records s (some ⟨tenant, worker, .opening⟩)
        marks := (worker, s) :: c.marks }
  | .register s, c => c.whenAt s .opening fun r =>
    { c.put s r .acknowledging
      with toRegistryRun := c.toRegistryRun.register r.tenantId r.workerId s }
  | .acknowledge s, c => c.whenAt s .acknowledging fun r => c.put s r .pumping
  | .abandon s, c =>
    match c.records s with
    | some r =>
      if r.stage = .opening then c.put s r .over
      else if r.stage = .acknowledging then
        { c.put s r .over with toRegistryRun := c.toRegistryRun.drop ⟨r.workerId, s⟩ }
      else c
    | none => c
  | .endPump s, c => c.whenAt s .pumping fun r => c.put s r .closing
  -- the statement names the Worker, not the session
  | .clear s succeeded, c => c.whenAt s .closing fun r =>
    { c.put s r .releasing with
      marker := if succeeded then update c.marker r.workerId none else c.marker }
  | .drop s, c => c.whenAt s .releasing fun r =>
    { c.put s r .over with toRegistryRun := c.toRegistryRun.drop ⟨r.workerId, s⟩ }

/-- No session is on its way in or out. -/
def Settled (c : Sessions) : Prop :=
  ∀ s r, c.records s = some r → r.stage = .pumping ∨ r.stage = .over

end Sessions

end Gpq
