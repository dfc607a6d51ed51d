import Mathlib.Logic.Function.Basic
import Gpq.Remote.Delivery
import Gpq.Remote.System

/-!
# The running process

The Remote's process: the database, and the deliveries that its tasks have in memory. A
download that has acquired its Artifact waits for the answer to its commit before it spawns the
task that owns the delivery. A restart leaves the database alone but drops every task.

The transactions of deliveries are the handler's and its tasks': any other operation may run
in between.
-/

namespace Gpq

open Sql DbKey

/-- The process. A delivery that is over stays, as the record of what it did. -/
structure Process where
  db : Db
  deliveries : Uuid → Option Delivery := fun _ => none
  /-- The tasks of downloads whose commit took effect and is not answered yet. -/
  acquired : Uuid → Option Delivery := fun _ => none

/-- Whether an operation is a transaction of a delivery. -/
def Op.delivers : Op → Bool
  | beginDelivery .. | commitOffset .. | setArtifactState .. => true
  | _ => false

/-- What happens to the process. -/
inductive Act
  /-- A transaction of anything but a delivery. -/
  | transact (op : Op)
  /-- A caller's download, up to its commit. -/
  | download (id : Uuid) (isOnline : Uuid → Bool) (presigned : Bool) (clock later now : Time)
  /-- The commit of a download is answered, and its task is spawned. -/
  | spawn (id : Uuid)
  /-- The commit of a download took effect, but is answered with a failure, or the client is gone and
      the handler is dropped at that await. -/
  | abandon (id : Uuid)
  /-- A step of a delivery. -/
  | deliver (id : Uuid) (event : DeliveryEvent) (answers : Answers)
  /-- The process stops, or crashes, and is started again. -/
  | restart

namespace Process

variable [ManifestHash] [Sha256]

/-- A download. Where it acquires the Artifact for a stream, it is about to spawn the stream's
    task. -/
def download (s : Process) (id : Uuid) (isOnline : Uuid → Bool) (presigned : Bool)
    (clock later now : Time) : Process :=
  match (downloadForTenant id isOnline presigned clock later now).run s.db with
  | .ok (.commit (.stream row workerId), db) =>
    { s with db, acquired := Function.update s.acquired id (some (.spawn id row workerId)) }
  | .ok (.commit _, db) => { s with db }
  | _ => s

/-- The task of an acquired Artifact is spawned. -/
def spawn (s : Process) (id : Uuid) : Process :=
  match s.acquired id with
  | none => s
  | some delivery =>
    { s with
      deliveries := Function.update s.deliveries id (some delivery)
      acquired := Function.update s.acquired id none }

/-- The handler of an acquired Artifact ends without a task. -/
def abandon (s : Process) (id : Uuid) : Process :=
  { s with acquired := Function.update s.acquired id none }

/-- A step of a delivery, where there is one. -/
def deliver (s : Process) (id : Uuid) (event : DeliveryEvent) (answers : Answers) : Process :=
  match s.deliveries id with
  | none => s
  | some delivery =>
    let (delivery, db) := delivery.streamWorkerLocal event answers s.db
    { s with db, deliveries := Function.update s.deliveries id (some delivery) }

/-- What an action leaves. -/
def step (a : Act) (s : Process) : Process :=
  match a with
  | .transact op => if op.delivers then s else { s with db := op.apply s.db }
  | .download id isOnline presigned clock later now =>
    s.download id isOnline presigned clock later now
  | .deliver id event answers => s.deliver id event answers
  | .spawn id => s.spawn id
  | .abandon id => s.abandon id
  | .restart => { db := s.db }

/-- The processes that actions lead to where each is allowed in its state. -/
def ReachesBy (allowed : Act → Process → Prop) : Process → Prop :=
  Machine.Reachable (fun s => ∃ tenantId, s = { db := .initial tenantId })
    (Machine.Fires step allowed)

end Process

end Gpq
