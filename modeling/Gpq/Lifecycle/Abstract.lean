import Mathlib.Data.Set.Card
import Gpq.Domain.Failure

/-!
# The lifecycle of Generations, Attempts and Slots

What the Remote's database is for, without its tables: Generations that wait, run
and end, the Attempts that execute them, the Slots that Attempts occupy, and the
Pools that a Generation is not leased to again. A `Life` observes these; `Core` is
what the Remote does with them as long as the Pools are the same. Four changes stand
apart: a Worker's report changes the Pools, and an invariant fails along three of the
four.

  * `Upsert`: a Pool is advertised, anew or again;
  * `AckLate`: a late acknowledgement ends a cancelling Generation through an
    Attempt that was settled before;
  * `Strand`: the Attempt of a cancelling Generation ends, and the Generation does not;
  * `Drop`: Pools disappear, and their Attempts with them.

The invariants:

  * `WellReferenced`: Attempts refer to Generations and Pools that exist;
  * `AtMostOne`: a Generation has at most one live Attempt, a queued one none;
  * `TerminalIdle`: a terminal Generation has no live Attempt;
  * `ActiveBusy`: a running or cancelling Generation has a live Attempt;
  * `Accepted`: success, the accepted result and the successful Attempt agree;
  * `Conserved`: claimed Slots are the live Attempts of the Pool;
  * `Named`: no two Pools have one name;
  * `Current`: a live Attempt is the latest of its Generation;
  * `Spared`: no live Attempt is on a Pool that its Generation is excluded from;
  * `Budgeted`, `Numbered`: a Generation stays within its Attempt limit, and its
    Attempts are numbered from one on;
  * `Capped`: the numbers of its Attempts differ, and are none beyond its count.

`Core` and `Upsert` keep all of them, `AckLate` all but `TerminalIdle`, `Strand` all but
`ActiveBusy`, `Drop` all but `ActiveBusy` and `Numbered`; under a condition on the state
before, `AckLate` and `Drop` keep `TerminalIdle` and `ActiveBusy` as well
(`AckLate.terminalIdle`, `Drop.activeBusy`).
-/

namespace Gpq

open Function

/-- What the lifecycle is about a Generation. -/
structure GenLife (A : Type*) where
  /-- Its state. -/
  state : GenerationState
  /-- The Attempt whose result was accepted. -/
  accepted : Option A
  /-- How many Attempts it was given. -/
  count : ℕ

/-- What the lifecycle is about an Attempt. -/
structure AttLife (G P : Type*) where
  /-- The Generation it executes. -/
  generation : G
  /-- The Pool whose Slot it occupies while it is live. -/
  pool : P
  /-- Its state. -/
  state : AttemptState
  /-- Its number among the Generation's Attempts. -/
  number : ℕ
  /-- Whether it ran out of memory. -/
  exhausted : Bool

/-- What the lifecycle is about a Pool. -/
structure PoolLife (N : Type*) where
  /-- What its Worker knows it by. -/
  name : N
  /-- Its Slots. -/
  total : ℕ
  /-- The Slots that are claimed. -/
  claimed : ℕ

/-- One Slot more is claimed. -/
def PoolLife.claim {N : Type*} (q : PoolLife N) : PoolLife N := { q with claimed := q.claimed + 1 }

/-- One Slot fewer is claimed, floored at zero. -/
def PoolLife.release {N : Type*} (q : PoolLife N) : PoolLife N := { q with claimed := q.claimed - 1 }

/-- A queued Generation that turns out to be executing is running. -/
def GenLife.wake {A : Type*} (r : GenLife A) : GenLife A :=
  if r.state = .queued then { r with state := .running } else r

/-- The lifecycle of Generations `G`, Attempts `A` and Pools `P`. -/
@[ext]
structure Life (G A P N : Type*) where
  gen : G → Option (GenLife A)
  att : A → Option (AttLife G P)
  pool : P → Option (PoolLife N)
  /-- Whether a Pool rejected a Generation before execution. -/
  rejected : G → P → Prop

/-- What the settlement of an Attempt by a failure does to its Generation. -/
inductive Settles : GenerationState → GenerationState → Prop
  /-- A cancelling Generation is cancelled. -/
  | cancel : Settles .cancelling .cancelled
  /-- A retryable failure returns a running Generation to the queue. -/
  | requeue : Settles .running .queued
  /-- A final failure ends a nonterminal Generation. -/
  | fail {s : GenerationState} (h : ¬ s.isTerminal) : Settles s .failed
  /-- A Generation that is not active is left alone. -/
  | none {s : GenerationState} (h : ¬ s.isActive) : Settles s s

namespace Life

variable {G A P N : Type*} [DecidableEq G] [DecidableEq A] [DecidableEq P]

/-- The pools after a Slot of `p` is released. -/
def released (l : Life G A P N) (p : P) : P → Option (PoolLife N) :=
  update l.pool p ((l.pool p).map PoolLife.release)

/-- The Pool ran out of memory on the Generation, or rejected it before execution. -/
def Excluded (l : Life G A P N) (g : G) (p : P) : Prop :=
  l.rejected g p ∨ ∃ a r, l.att a = some r ∧ r.generation = g ∧ r.pool = p ∧ r.exhausted

/-- The changes of Generations, Attempts and claims. -/
inductive Core : Life G A P N → Life G A P N → Prop
  /-- A Generation is admitted. -/
  | admission {l : Life G A P N} (g : G) (hg : l.gen g = none) :
      Core l { l with gen := update l.gen g (some ⟨.queued, none, 0⟩) }
  /-- A queued Generation is leased to a free Slot of a Pool that is not excluded. -/
  | assign {l : Life G A P N} (g : G) (a : A) (p : P) (r : GenLife A) (q : PoolLife N)
      (hg : l.gen g = some r) (hs : r.state = .queued) (ha : l.att a = none)
      (hp : l.pool p = some q) (hfree : q.claimed < q.total) (hn : r.count < maxAttempts)
      (hx : ¬ l.Excluded g p) :
      Core l { l with
        gen := update l.gen g (some { r with state := .running, count := r.count + 1 })
        att := update l.att a (some ⟨g, p, .leased, r.count + 1, false⟩)
        pool := update l.pool p (some q.claim) }
  /-- A leased Attempt starts to run. -/
  | start {l : Life G A P N} (a : A) (r : AttLife G P) (ha : l.att a = some r)
      (hs : r.state = .leased) :
      Core l { l with
        gen := update l.gen r.generation ((l.gen r.generation).map GenLife.wake)
        att := update l.att a (some { r with state := .running }) }
  /-- A live Attempt ends without a result, and the retry policy is applied. -/
  | settle {l : Life G A P N} (a : A) (r : AttLife G P) (t : AttemptState) (x : Bool)
      (g : GenLife A) (s : GenerationState) (ha : l.att a = some r) (hl : r.state.isLive)
      (ht : t.isTerminal) (ht' : t ≠ .succeeded) (hg : l.gen r.generation = some g)
      (hs : Settles g.state s)
      (hretry : g.state = .running → s = .queued → g.count < maxAttempts) :
      Core l { l with
        gen := update l.gen r.generation (some { g with state := s })
        att := update l.att a (some { r with state := t, exhausted := x })
        pool := l.released r.pool }
  /-- A live Attempt's result is accepted. -/
  | accept {l : Life G A P N} (a : A) (r : AttLife G P) (g : GenLife A) (ha : l.att a = some r)
      (hl : r.state.isLive) (hg : l.gen r.generation = some g) (hacc : g.accepted = none)
      (hs : g.state.isActive) :
      Core l { l with
        gen := update l.gen r.generation (some { g with state := .succeeded, accepted := some a })
        att := update l.att a (some { r with state := .succeeded })
        pool := l.released r.pool }
  /-- A lease is rejected before execution, and does not count. -/
  | reject {l : Life G A P N} (a : A) (r : AttLife G P) (g : GenLife A) (ha : l.att a = some r)
      (hl : r.state = .leased) (hg : l.gen r.generation = some g) (hs : g.state = .running) :
      Core l {
        gen := update l.gen r.generation (some { g with state := .queued, count := g.count - 1 })
        att := update l.att a none
        pool := l.released r.pool
        rejected := fun g' p => l.rejected g' p ∨ g' = r.generation ∧ p = r.pool }
  /-- A Worker acknowledges the cancellation of its live Attempt. -/
  | ack {l : Life G A P N} (a : A) (r : AttLife G P) (g : GenLife A) (ha : l.att a = some r)
      (hl : r.state.isLive) (hg : l.gen r.generation = some g) (hs : g.state = .cancelling) :
      Core l { l with
        gen := update l.gen r.generation (some { g with state := .cancelled })
        att := update l.att a (some { r with state := .cancelled, exhausted := false })
        pool := l.released r.pool }
  /-- A queued Generation ends: it is cancelled, or nothing can ever run it. -/
  | endQueued {l : Life G A P N} (g : G) (r : GenLife A) (s : GenerationState)
      (hg : l.gen g = some r) (hq : r.state = .queued) (hs : s = .cancelled ∨ s = .expired) :
      Core l { l with gen := update l.gen g (some { r with state := s }) }
  /-- The cancellation of a running Generation is requested. -/
  | cancelRunning {l : Life G A P N} (g : G) (r : GenLife A) (hg : l.gen g = some r)
      (hs : r.state = .running) :
      Core l { l with gen := update l.gen g (some { r with state := .cancelling }) }

/-- A Pool is advertised, anew or again; its claims stay, and so does its name. -/
inductive Upsert : Life G A P N → Life G A P N → Prop
  | mk {l : Life G A P N} (p : P) (q : PoolLife N) (hle : q.claimed ≤ q.total)
      (hnew : l.pool p = none → q.claimed = 0 ∧ ∀ p' q', l.pool p' = some q' → q'.name ≠ q.name)
      (hold : ∀ q₀, l.pool p = some q₀ → q.claimed = q₀.claimed ∧ q.name = q₀.name) :
      Upsert l { l with pool := update l.pool p (some q) }

/-- A late acknowledgement: the Attempt `a` was settled before, and its cancelling
    Generation ends now. -/
inductive AckLate (a : A) : Life G A P N → Life G A P N → Prop
  | mk {l : Life G A P N} (r : AttLife G P) (g : GenLife A) (ha : l.att a = some r)
      (hl : ¬ r.state.isLive) (hg : l.gen r.generation = some g) (hs : g.state = .cancelling) :
      AckLate a l { l with gen := update l.gen r.generation (some { g with state := .cancelled }) }

/-- The live Attempt of a cancelling Generation ends, and the Generation is left as it is. -/
inductive Strand : Life G A P N → Life G A P N → Prop
  | mk {l : Life G A P N} (a : A) (r : AttLife G P) (t : AttemptState) (x : Bool) (g : GenLife A)
      (ha : l.att a = some r) (hl : r.state.isLive) (ht : t.isTerminal) (ht' : t ≠ .succeeded)
      (hg : l.gen r.generation = some g) (hs : g.state = .cancelling) :
      Strand l { l with
        att := update l.att a (some { r with state := t, exhausted := x })
        pool := l.released r.pool }

/-- Pools disappear, and their Attempts and rejections with them; the schema refuses
    this where the result of one of these Attempts was accepted. -/
inductive Drop (D : List P) : Life G A P N → Life G A P N → Prop
  | mk {l : Life G A P N}
      (href : ∀ g r a s, l.gen g = some r → r.accepted = some a → l.att a = some s → s.pool ∉ D) :
      Drop D l { l with
        att := fun a => (l.att a).filter fun r => r.pool ∉ D
        pool := fun p => if p ∈ D then none else l.pool p
        rejected := fun g p => l.rejected g p ∧ p ∉ D }

/-! ## Invariants -/

/-- `a` is a live Attempt of `g`. -/
def LiveOf (l : Life G A P N) (g : G) (a : A) : Prop :=
  ∃ r, l.att a = some r ∧ r.generation = g ∧ r.state.isLive

/-- `a` is a live Attempt on the Pool `p`. -/
def LiveOn (l : Life G A P N) (p : P) (a : A) : Prop :=
  ∃ r, l.att a = some r ∧ r.pool = p ∧ r.state.isLive

/-- Attempts refer to Generations and Pools that exist. -/
def WellReferenced (l : Life G A P N) : Prop :=
  ∀ a r, l.att a = some r → (∃ g, l.gen r.generation = some g) ∧ ∃ q, l.pool r.pool = some q

/-- At most one live Attempt for each Generation, and none for a queued one. -/
def AtMostOne (l : Life G A P N) : Prop :=
  (∀ g a a', l.LiveOf g a → l.LiveOf g a' → a = a') ∧
    ∀ g r a, l.gen g = some r → r.state = .queued → ¬ l.LiveOf g a

/-- A terminal Generation has no live Attempt. -/
def TerminalIdle (l : Life G A P N) : Prop :=
  ∀ g r a, l.gen g = some r → r.state.isTerminal → ¬ l.LiveOf g a

/-- A running or cancelling Generation has a live Attempt. -/
def ActiveBusy (l : Life G A P N) : Prop :=
  ∀ g r, l.gen g = some r → r.state.isActive → ∃ a, l.LiveOf g a

/-- A Generation is succeeded exactly when a result was accepted, which is the
    result of the one successful Attempt of its own. -/
def Accepted (l : Life G A P N) : Prop :=
  (∀ g r, l.gen g = some r → (r.state = .succeeded ↔ r.accepted.isSome)) ∧
    (∀ g r a, l.gen g = some r → r.accepted = some a →
      ∃ s, l.att a = some s ∧ s.generation = g ∧ s.state = .succeeded) ∧
    ∀ a s, l.att a = some s → s.state = .succeeded →
      ∃ r, l.gen s.generation = some r ∧ r.accepted = some a

/-- The claimed Slots of a Pool are its live Attempts, and no more than it has. -/
def Conserved (l : Life G A P N) : Prop :=
  ∀ p q, l.pool p = some q →
    Set.encard {a | l.LiveOn p a} = q.claimed ∧ q.claimed ≤ q.total

/-- A live Attempt is the latest of its Generation. -/
def Current (l : Life G A P N) : Prop :=
  ∀ g r a s, l.gen g = some r → l.att a = some s → s.generation = g → s.state.isLive →
    s.number = r.count

/-- No live Attempt is on a Pool that its Generation is excluded from. -/
def Spared (l : Life G A P N) : Prop :=
  ∀ a r, l.att a = some r → r.state.isLive → ¬ l.Excluded r.generation r.pool

/-- A Generation is within its Attempt limit, and below it while it waits. -/
def Budgeted (l : Life G A P N) : Prop :=
  ∀ g r, l.gen g = some r → r.count ≤ maxAttempts ∧ (r.state = .queued → r.count < maxAttempts)

/-- The Generation of an Attempt, and its number there. -/
def number (l : Life G A P N) (a : A) : Option (G × ℕ) :=
  (l.att a).map fun s => (s.generation, s.number)

/-- The Attempts of a Generation are numbered from one on, without gaps or repetitions. -/
def Numbered (l : Life G A P N) : Prop :=
  (∀ g r n, l.gen g = some r → (1 ≤ n ∧ n ≤ r.count ↔ ∃ a, l.number a = some (g, n))) ∧
    ∀ a a' x, l.number a = some x → l.number a' = some x → a = a'

/-- The Attempts of a Generation have different numbers, up to its count. -/
def Capped (l : Life G A P N) : Prop :=
  (∀ g r a n, l.gen g = some r → l.number a = some (g, n) → n ≤ r.count) ∧
    ∀ a a' x, l.number a = some x → l.number a' = some x → a = a'

/-- No two Pools have one name. -/
def Named (l : Life G A P N) : Prop :=
  ∀ p p' q q', l.pool p = some q → l.pool p' = some q' → q.name = q'.name → p = p'

end Life

end Gpq
