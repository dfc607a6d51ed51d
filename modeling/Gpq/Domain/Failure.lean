import Gpq.Domain.State

/-!
# Failures, the retry policy and leases

Workers normalize backend failures to a closed enumeration and Remote decides
from it alone whether a Generation is retried (`FailureKind.retryDecision`).
Times are database time in microseconds; leases last `leaseTtl`.
-/

namespace Gpq

/-- A point of database time, in microseconds. -/
abbrev Time := ℤ

/-- Maximum Attempts per Generation, the first included. -/
def maxAttempts : ℕ := 3

/-- A normalized failure cause. -/
inductive FailureKind
  | invalidInput
  | unsupportedCapability
  | modelUnavailable
  | outOfMemory
  | backendCrashed
  | executionTimedOut
  | cancelled
  | transferFailed
  | internal
  | workerLost
  | leaseExpired
  deriving DecidableEq, Repr

/-- What a settled Attempt means for its Generation. -/
inductive RetryDecision
  | requeue
  | fail
  deriving DecidableEq, Repr

namespace FailureKind

/-- The stable name stored in the database and carried on the wire. -/
def asStr : FailureKind → String
  | invalidInput => "invalid_input"
  | unsupportedCapability => "unsupported_capability"
  | modelUnavailable => "model_unavailable"
  | outOfMemory => "out_of_memory"
  | backendCrashed => "backend_crashed"
  | executionTimedOut => "execution_timed_out"
  | cancelled => "cancelled"
  | transferFailed => "transfer_failed"
  | internal => "internal"
  | workerLost => "worker_lost"
  | leaseExpired => "lease_expired"

/-- Whether another Attempt may be tried. -/
def isRetryable : FailureKind → Bool
  | outOfMemory | backendCrashed | transferFailed | workerLost | leaseExpired => true
  | _ => false

/-- Whether the failure rules the failing Slot out. -/
def invalidatesSlotCapability : FailureKind → Bool
  | outOfMemory => true
  | _ => false

/-- The authoritative retry decision. -/
def retryDecision (self : FailureKind) (attemptsUsed : ℕ) (eligibleCandidatesRemain : Bool) :
    RetryDecision :=
  if !self.isRetryable then .fail
  else if attemptsUsed ≥ maxAttempts then .fail
  else if self.invalidatesSlotCapability && !eligibleCandidatesRemain then .fail
  else .requeue

/-- A Generation is requeued only below the Attempt limit. -/
theorem lt_maxAttempts_of_requeue {kind : FailureKind} {used : ℕ} {remain : Bool}
    (h : kind.retryDecision used remain = .requeue) : used < maxAttempts := by
  by_contra hge
  simp only [retryDecision, ge_iff_le, not_lt.1 hge, if_true, ite_self] at h
  cases h

/-- Below the Attempt limit, exhausted memory is retried while a candidate remains. -/
theorem retryDecision_outOfMemory {used : ℕ} (remain : Bool) (h : used < maxAttempts) :
    outOfMemory.retryDecision used remain = if remain then .requeue else .fail := by
  cases remain <;> simp [retryDecision, isRetryable, invalidatesSlotCapability, not_le.2 h]

end FailureKind

/-- How long a lease lasts without a renewing heartbeat: 45 seconds. -/
def leaseTtl : Time := 45000000

/-- The expiry of a lease granted or renewed at `now`. -/
def leaseExpiryFrom (now : Time) : Time := now + leaseTtl

end Gpq
