import Mathlib.Data.List.AList

/-!
# Lifecycle state machines

The states of a Generation, an Attempt and an Artifact, and the edges between
them. Terminal states are final: `canTransitionTo` has no edge out of them, for
each of the three machines. Liveness is asked of Attempts only.
-/

namespace Gpq

/-- A rejected state transition, by the names of its two states. -/
structure TransitionError where
  «from» : String
  «to» : String
  deriving DecidableEq, Repr

/-- Generation lifecycle. -/
inductive GenerationState
  | queued
  | running
  | cancelling
  | succeeded
  | failed
  | cancelled
  | expired
  deriving DecidableEq, Repr

/-- Attempt lifecycle. -/
inductive AttemptState
  | leased
  | running
  | succeeded
  | failed
  | cancelled
  | leaseExpired
  deriving DecidableEq, Repr

/-- Artifact lifecycle, independent of its Generation. -/
inductive ArtifactState
  | pending
  | available
  | delivering
  | consumed
  | expired
  | lost
  deriving DecidableEq, Repr

namespace GenerationState

/-- The stable name stored in the database and carried on the wire. -/
def asStr : GenerationState → String
  | queued => "queued"
  | running => "running"
  | cancelling => "cancelling"
  | succeeded => "succeeded"
  | failed => "failed"
  | cancelled => "cancelled"
  | expired => "expired"

/-- Whether the Generation can no longer change state. -/
def isTerminal : GenerationState → Bool
  | succeeded | failed | cancelled | expired => true
  | _ => false

/-- Whether a Worker may still be executing an Attempt for this Generation. -/
def isActive : GenerationState → Bool
  | running | cancelling => true
  | _ => false

/-- Whether `self → target` is a legal transition. -/
def canTransitionTo : GenerationState → GenerationState → Bool
  | queued, running | queued, cancelled | queued, failed | queued, expired => true
  | running, queued | running, cancelling | running, succeeded | running, failed
  | running, cancelled | running, expired => true
  | cancelling, cancelled | cancelling, succeeded | cancelling, failed => true
  | _, _ => false

/-- No edge leaves a terminal state. -/
theorem not_canTransitionTo_of_isTerminal {s : GenerationState} (h : s.isTerminal) (t) :
    ¬ s.canTransitionTo t := by
  revert h
  cases s <;> cases t <;> decide

/-- Only an active Generation can succeed. -/
theorem isActive_of_canTransitionTo_succeeded {s : GenerationState}
    (h : s.canTransitionTo .succeeded) : s.isActive := by
  revert h
  cases s <;> decide

end GenerationState

namespace AttemptState

/-- Whether the Attempt can no longer change state. -/
def isTerminal : AttemptState → Bool
  | leased | running => false
  | _ => true

/-- Whether the Attempt still holds a lease that heartbeats keep alive. -/
def isLive : AttemptState → Bool
  | leased | running => true
  | _ => false

/-- Whether `self → target` is a legal transition. -/
def canTransitionTo : AttemptState → AttemptState → Bool
  | leased, running | leased, succeeded | leased, failed | leased, cancelled
  | leased, leaseExpired => true
  | running, succeeded | running, failed | running, cancelled | running, leaseExpired => true
  | _, _ => false

/-- An Attempt is live until it is terminal. -/
theorem isLive_eq_not_isTerminal (s : AttemptState) : s.isLive = !s.isTerminal := by
  cases s <;> rfl

/-- No edge leaves a terminal state. -/
theorem not_canTransitionTo_of_isTerminal {s : AttemptState} (h : s.isTerminal) (t) :
    ¬ s.canTransitionTo t := by
  revert h
  cases s <;> cases t <;> decide

/-- Any settlement of a live Attempt is an edge. -/
theorem canTransitionTo_of_isLive {s t : AttemptState} (hs : s.isLive)
    (ht : t.isTerminal) : s.canTransitionTo t := by
  revert hs ht
  cases s <;> cases t <;> decide

end AttemptState

namespace ArtifactState

/-- The stable name stored in the database and carried on the wire. -/
def asStr : ArtifactState → String
  | pending => "pending"
  | available => "available"
  | delivering => "delivering"
  | consumed => "consumed"
  | expired => "expired"
  | lost => "lost"

/-- Whether the Artifact can no longer change state. -/
def isTerminal : ArtifactState → Bool
  | consumed | expired | lost => true
  | _ => false

/-- Whether `self → target` is a legal transition. -/
def canTransitionTo : ArtifactState → ArtifactState → Bool
  | pending, available | pending, expired | pending, lost => true
  | available, delivering | available, expired | available, lost => true
  | delivering, consumed | delivering, expired | delivering, lost => true
  | _, _ => false

/-- The transition itself: the new state, or the names of the two states. -/
def transition (self target : ArtifactState) : Except TransitionError ArtifactState :=
  if self.canTransitionTo target then .ok target else .error ⟨self.asStr, target.asStr⟩

/-- No edge leaves a terminal state. -/
theorem not_canTransitionTo_of_isTerminal {s : ArtifactState} (h : s.isTerminal) (t) :
    ¬ s.canTransitionTo t := by
  revert h
  cases s <;> cases t <;> decide

end ArtifactState

end Gpq
