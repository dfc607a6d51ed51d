import Mathlib.Data.List.Infix
import Mathlib.Data.List.Sublists

/-!
# Broadcast channels

A channel with a bounded buffer, to which any number of receivers listen, each at its own
pace. Of the values that were sent, the last `capacity` are kept; a receiver that is further
behind is told that it lags, and goes on with the oldest value that is kept.

  * `Receiver.Ok.complete`: a receiver has received every value that was sent since it
    subscribed and that it has passed, or was told that it missed it;
  * `Receiver.Ok.sublist`: what it has received is in the order in which it was sent;
  * `Receiver.next_lt_recv`: a receiver that has not passed everything goes on.
-/

namespace Broadcast

variable {α : Type*}

/-- What a receiver gets: the value at a position, or the positions that it missed. -/
inductive Item (α : Type*)
  | value (position : ℕ) (a : α)
  | lagged (since upto : ℕ)
  deriving DecidableEq

/-- The value of an item. -/
def Item.value? : Item α → Option α
  | value _ a => some a
  | lagged .. => none

/-- A receiver: the position at which it subscribed, the next one that it wants, and what it
    has got so far. -/
structure Receiver (α : Type*) where
  start : ℕ
  next : ℕ
  items : List (Item α) := []

/-- A new receiver, which gets what is sent from now on. -/
def subscribe (sent : List α) : Receiver α where
  start := sent.length
  next := sent.length

namespace Receiver

/-- The next item, where there is one. -/
def peek (capacity : ℕ) (sent : List α) (self : Receiver α) : Option (Item α) :=
  if self.next + capacity < sent.length then some (.lagged self.next (sent.length - capacity))
  else sent[self.next]?.map (.value self.next)

/-- The position after an item. -/
def after : Item α → ℕ
  | .value position _ => position + 1
  | .lagged _ upto => upto

/-- Receives the next item. -/
def recv (capacity : ℕ) (sent : List α) (self : Receiver α) : Receiver α :=
  match self.peek capacity sent with
  | some item => { self with next := after item, items := self.items ++ [item] }
  | none => self

/-- What a receiver has got of what was sent. -/
structure Ok (sent : List α) (r : Receiver α) : Prop where
  start_le : r.start ≤ r.next
  next_le : r.next ≤ sent.length
  complete : ∀ p a, r.start ≤ p → p < r.next → sent[p]? = some a →
    .value p a ∈ r.items ∨ ∃ since upto, .lagged since upto ∈ r.items ∧ since ≤ p ∧ p < upto
  sublist : (r.items.filterMap Item.value?).Sublist (sent.take r.next)

variable {capacity : ℕ} {sent : List α} {r : Receiver α}

/-- A receiver that has just subscribed has missed nothing. -/
theorem ok_subscribe (sent : List α) : Ok sent (subscribe sent) where
  start_le := le_rfl
  next_le := le_rfl
  complete _ _ hstart hnext := absurd hstart (Nat.not_le.2 hnext)
  sublist := List.nil_sublist _

/-- A value more that is sent. -/
theorem Ok.send (h : Ok sent r) (a : α) : Ok (sent ++ [a]) r where
  start_le := h.start_le
  next_le := h.next_le.trans (by simp)
  complete p b hstart hnext hb := by
    rw [List.getElem?_append_left (hnext.trans_le h.next_le)] at hb
    exact h.complete p b hstart hnext hb
  sublist := by
    rw [List.take_append_of_le_length h.next_le]
    exact h.sublist

/-- A receiver is told how much it missed, or gets the next value. -/
theorem peek_eq_some {item : Item α} (h : r.peek capacity sent = some item) :
    (item = .lagged r.next (sent.length - capacity) ∧ r.next + capacity < sent.length) ∨
    ∃ a, item = .value r.next a ∧ sent[r.next]? = some a := by
  unfold peek at h
  split at h
  · rename_i hlt
    -- it lags: what it is to receive next is not kept any more
    cases h
    exact .inl ⟨rfl, hlt⟩
  · obtain ⟨a, ha, rfl⟩ := Option.map_eq_some_iff.1 h
    exact .inr ⟨a, rfl, ha⟩

/-- Receiving keeps what was received. -/
theorem Ok.recv (h : Ok sent r) : Ok sent (r.recv capacity sent) := by
  unfold Receiver.recv
  cases hpeek : r.peek capacity sent with
  | none => exact h
  | some item =>
    rcases peek_eq_some hpeek with ⟨rfl, hlt⟩ | ⟨a, rfl, ha⟩
    · have hle : r.next ≤ sent.length - capacity := by omega
      refine ⟨h.start_le.trans hle, Nat.sub_le _ _, fun p b hstart hnext hb => ?_, ?_⟩
      · by_cases hp : p < r.next
        · rcases h.complete p b hstart hp hb with hv | ⟨since, upto, hl, hbetween⟩
          · exact .inl (List.mem_append_left _ hv)
          · exact .inr ⟨since, upto, List.mem_append_left _ hl, hbetween⟩
        · exact .inr ⟨_, _, List.mem_append_right _ (List.mem_singleton_self _),
            Nat.not_lt.1 hp, hnext⟩
      · rw [List.filterMap_append]
        simp only [List.filterMap_cons, Item.value?, List.filterMap_nil, List.append_nil]
        exact h.sublist.trans (List.take_sublist_take_left hle)
    · obtain ⟨hlen, -⟩ := List.getElem?_eq_some_iff.1 ha
      refine ⟨h.start_le.trans (Nat.le_succ _), hlen, fun p b hstart hnext hb => ?_, ?_⟩
      · rcases Nat.lt_succ_iff_lt_or_eq.1 hnext with hp | rfl
        · rcases h.complete p b hstart hp hb with hv | ⟨since, upto, hl, hbetween⟩
          · exact .inl (List.mem_append_left _ hv)
          · exact .inr ⟨since, upto, List.mem_append_left _ hl, hbetween⟩
        · cases ha.symm.trans hb
          exact .inl (List.mem_append_right _ (List.mem_singleton_self _))
      · rw [List.filterMap_append]
        simp only [List.filterMap_cons, Item.value?, List.filterMap_nil, after]
        rw [List.take_add_one, ha]
        exact h.sublist.append (List.Sublist.refl _)

/-- A receiver that has not passed everything goes on. -/
theorem next_lt_recv (hnext : r.next < sent.length) :
    r.next < (r.recv capacity sent).next := by
  unfold Receiver.recv
  cases hpeek : r.peek capacity sent with
  | none =>
    unfold peek at hpeek
    split at hpeek
    · cases hpeek
    · rw [List.getElem?_eq_getElem hnext] at hpeek
      cases hpeek
  | some item =>
    rcases peek_eq_some hpeek with ⟨rfl, hlt⟩ | ⟨a, rfl, -⟩
    · change r.next < sent.length - capacity
      omega
    · exact Nat.lt_succ_self _

/-- A receiver that has passed everything waits. -/
theorem peek_of_next_eq (h : r.next = sent.length) : r.peek capacity sent = none := by
  rw [peek, if_neg (by omega), h, List.getElem?_eq_none (Nat.le_refl _)]
  rfl

end Receiver

end Broadcast
