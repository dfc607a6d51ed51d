import Mathlib.Data.List.Sort
import Gpq.Lib.Json
import Gpq.Domain.Text
import Gpq.Remote.Schema

/-!
# The event log

The persisted events of Generations, as a database of its own: the rows of `generations`,
which an append locks, and those of `generation_events`. An event is found under its
Generation and its sequence number, which are `UNIQUE` together.
-/

namespace Gpq

open Sql

/-- The kind of a persisted event. -/
inductive EventKind
  | stateChanged
  | progress
  | attemptCreated
  deriving DecidableEq

/-- A persisted event. -/
structure EventRow where
  kind : EventKind
  payload : Json
  createdAt : Time

/-- Generations and their events. -/
structure EventDb where
  generations : Table Uuid GenerationRow := ∅
  events : Table (Uuid × ℕ) EventRow := ∅

/-- A row's table and key. -/
inductive EventKey
  | generation (id : Uuid)
  | event (generationId : Uuid) (sequence : ℕ)
  deriving DecidableEq

namespace EventDb

/-- The rows of each table. -/
abbrev Row : EventKey → Type
  | .generation _ => GenerationRow
  | .event .. => EventRow

/-- The row under a key. -/
def fetch (db : EventDb) : (k : EventKey) → Option (Row k)
  | .generation id => db.generations.lookup id
  | .event g n => db.events.lookup (g, n)

/-- The database with another row, or none, under a key. -/
def store (db : EventDb) : (k : EventKey) → Option (Row k) → EventDb
  | .generation id, r => { db with generations := Table.set db.generations id r }
  | .event g n, r => { db with events := Table.set db.events (g, n) r }

theorem fetch_store_self (db : EventDb) (k : EventKey) (r : Option (Row k)) :
    (db.store k r).fetch k = r := by
  cases k with
  | generation id => exact Table.lookup_set_self _ _ _
  | event g n => exact Table.lookup_set_self _ _ _

theorem fetch_store_of_ne (db : EventDb) {k j : EventKey} (r : Option (Row k)) (h : j ≠ k) :
    (db.store k r).fetch j = db.fetch j := by
  cases k <;> cases j <;> first
    | rfl
    | exact Table.lookup_set_of_ne _ _ fun he => h (by cases he; rfl)

instance : Database EventDb where
  Key := EventKey
  Row := Row
  Error := DbError
  Label := Empty
  fetch := fetch
  store := store
  fetch_store_self := fetch_store_self
  fetch_store_of_ne := fetch_store_of_ne

instance : DecidableEq (Key EventDb) := inferInstanceAs (DecidableEq EventKey)

end EventDb

open EventKey

namespace Events

/-- The events of a Generation, `ORDER BY sequence`. -/
def stream (generationId : Uuid) (db : EventDb) : List (ℕ × EventRow) :=
  ((db.events.rows.filter fun e => e.1.1 = generationId).map fun e => (e.1.2, e.2)).insertionSort
    fun a b => a.1 ≤ b.1

/-- `coalesce(max(sequence), 0)`. -/
def maxSequence (generationId : Uuid) (db : EventDb) : ℕ :=
  ((stream generationId db).map Prod.fst).foldr max 0

/-- Appends an event under the next number, with the Generation's row locked. -/
def append (generationId : Uuid) (kind : EventKind) (payload : Json) (now : Time) :
    Prog EventDb ℕ := do
  let _ ← .exec (@Stmt.lock EventDb _ (generation generationId) fun _ => true)
  let sequence ← .exec <| .tryRead fun db =>
    let sequence := maxSequence generationId db + 1
    if sequence > i64Max then .error DbError.decode else .ok sequence
  .exec <| .write fun db =>
    if (fetch db (generation generationId)).isNone then .error DbError.foreignKey
    else if (fetch db (event generationId sequence)).isSome then .error DbError.unique
    else .ok ((), [⟨event generationId sequence, some { kind, payload, createdAt := now }⟩])
  return sequence

/-- Appends which Worker and Pool a new Attempt was assigned to. -/
def appendAttemptCreated (generationId attemptId : Uuid) (attemptNumber : ℕ) (workerId poolId : Uuid)
    (now : Time) : Prog EventDb ℕ :=
  append generationId .attemptCreated (.object [
    ("attempt_id", .string (displayUuid attemptId)),
    ("attempt_number", .uint attemptNumber),
    ("worker_id", .string (displayUuid workerId)),
    ("pool_id", .string (displayUuid poolId))]) now

/-- Every event of a Generation after a sequence number, oldest first. -/
def loadSince (generationId : Uuid) (afterSequence : ℤ) (db : EventDb) : List (ℕ × EventRow) :=
  (stream generationId db).filter fun e => afterSequence < e.1

end Events

end Gpq
