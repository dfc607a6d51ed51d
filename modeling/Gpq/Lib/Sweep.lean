import Mathlib.Data.List.Sort

/-!
# Sweeping a queue

A sweep looks at the first elements of a queue and removes the doomed ones among them
(`sweep`). Elements that are not doomed stay where they are. Where they fill a whole sweep,
nothing behind them is ever looked at (`mem_swept_of_stuck`); otherwise a doomed element is
removed at last (`exists_notMem_swept`).
-/

namespace Queue

variable {α : Type} {limit : ℕ}

/-- Removes the doomed elements among the first ones. -/
def sweep (limit : ℕ) (doomed : α → Bool) (queue : List α) : List α :=
  (queue.take limit).filter (fun a => !doomed a) ++ queue.drop limit

/-- What so many sweeps leave. -/
def swept (limit : ℕ) (doomed : ℕ → α → Bool) (queue : List α) : ℕ → List α
  | 0 => queue
  | n + 1 => sweep limit (doomed n) (swept limit doomed queue n)

section Sweep

variable {doomed doomed' : α → Bool} {before after queue : List α} {x a : α}

/-- A sweep only removes. -/
theorem mem_of_mem_sweep (h : a ∈ sweep limit doomed queue) : a ∈ queue := by
  rcases List.mem_append.1 h with h | h
  · exact List.mem_of_mem_take (List.mem_of_mem_filter h)
  · exact List.mem_of_mem_drop h

/-- Whoever is not doomed is spared. -/
theorem mem_sweep (h : a ∈ queue) (ha : doomed a = false) : a ∈ sweep limit doomed queue := by
  rw [← List.take_append_drop limit queue] at h
  refine List.mem_append.2 ((List.mem_append.1 h).imp (fun h => ?_) id)
  exact List.mem_filter.2 ⟨h, by rw [ha]; rfl⟩

/-- Only what the sweep looks at matters. -/
theorem sweep_congr (h : ∀ a ∈ queue.take limit, doomed a = doomed' a) :
    sweep limit doomed queue = sweep limit doomed' queue := by
  have hfilter : (queue.take limit).filter (fun a => !doomed a) =
      (queue.take limit).filter (fun a => !doomed' a) :=
    List.filter_congr fun a ha => by rw [h a ha]
  rw [sweep, hfilter, sweep]

/-- Behind a full sweep nothing changes. -/
theorem sweep_append (h : limit ≤ before.length) :
    sweep limit doomed (before ++ after) = sweep limit doomed before ++ after := by
  rw [sweep, List.take_append_of_le_length h, List.drop_append_of_le_length h,
    ← List.append_assoc, sweep]

/-- What is not doomed stays. -/
theorem countP_sweep :
    (sweep limit doomed queue).countP (fun a => !doomed a) = queue.countP fun a => !doomed a := by
  rw [sweep, List.countP_append, List.countP_filter]
  simp only [Bool.and_self]
  rw [← List.countP_append, List.take_append_drop]

/-- A full sweep that finds something doomed makes the queue shorter. -/
theorem length_sweep_lt (hfull : limit ≤ queue.length)
    (hstuck : queue.countP (fun a => !doomed a) < limit) :
    (sweep limit doomed queue).length < queue.length := by
  have hsub : (queue.take limit).countP (fun a => !doomed a) ≤ queue.countP fun a => !doomed a :=
    (List.take_sublist _ _).countP_le
  rw [sweep, List.length_append, ← List.countP_eq_length_filter, List.length_drop]
  omega

/-- A doomed element that the sweep looks at is removed. -/
theorem notMem_sweep (hlimit : before.length < limit) (hx : doomed x) (hafter : x ∉ after) :
    x ∉ sweep limit doomed (before ++ x :: after) := by
  obtain ⟨k, rfl⟩ : ∃ k, limit = before.length + (k + 1) := ⟨limit - before.length - 1, by omega⟩
  rw [sweep, List.take_length_add_append, List.drop_length_add_append, List.take_succ_cons,
    List.drop_succ_cons]
  intro hmem
  rcases List.mem_append.1 hmem with hmem | hmem
  · obtain ⟨-, hkept⟩ := List.mem_filter.1 hmem
    rw [hx] at hkept
    cases hkept
  · exact hafter (List.mem_of_mem_drop hmem)

end Sweep

section Swept

variable {doomed : ℕ → α → Bool} {last : α → Bool} {before after queue : List α} {x : α}

/-- The first of several sweeps may be taken first. -/
theorem swept_succ (n : ℕ) :
    swept limit doomed queue (n + 1) =
      swept limit (fun i => doomed (i + 1)) (sweep limit (doomed 0) queue) n := by
  induction n with
  | zero => rfl
  | succ n ih => rw [swept, ih, swept]

/-- What no sweep dooms stays. -/
theorem mem_swept (h : x ∈ queue) (hx : ∀ n, doomed n x = false) (n : ℕ) :
    x ∈ swept limit doomed queue n := by
  induction n with
  | zero => exact h
  | succ n ih => exact mem_sweep ih (hx n)

/-- Where the first ones are not doomed and fill a sweep, `x` stays behind them. -/
theorem mem_swept_of_stuck (hdoomed : ∀ n, ∀ a ∈ before, doomed n a = last a)
    (hstuck : limit ≤ before.countP fun a => !last a) (n : ℕ) :
    x ∈ swept limit doomed (before ++ x :: after) n := by
  induction n generalizing doomed before with
  | zero => exact List.mem_append_right _ List.mem_cons_self
  | succ n ih =>
    have hfull : limit ≤ before.length := hstuck.trans List.countP_le_length
    have hsame : sweep limit (doomed 0) before = sweep limit last before :=
      sweep_congr fun a ha => hdoomed 0 a (List.mem_of_mem_take ha)
    rw [swept_succ, sweep_append hfull, hsame]
    refine ih (fun i a ha => hdoomed (i + 1) a (mem_of_mem_sweep ha)) ?_
    rwa [countP_sweep]

/-- Otherwise each full sweep brings `x` nearer to the head, until one looks at it. -/
theorem exists_notMem_swept (hdoomed : ∀ n, ∀ a ∈ before, doomed n a = last a) (hx : ∀ n, doomed n x)
    (hafter : x ∉ after) (hstuck : before.countP (fun a => !last a) < limit) :
    ∃ n, x ∉ swept limit doomed (before ++ x :: after) n := by
  induction hlength : before.length using Nat.strong_induction_on generalizing doomed before with
  | _ length ih =>
    subst hlength
    rcases lt_or_ge before.length limit with hlimit | hfull
    · exact ⟨1, notMem_sweep hlimit (hx 0) hafter⟩
    have hsame : sweep limit (doomed 0) before = sweep limit last before :=
      sweep_congr fun a ha => hdoomed 0 a (List.mem_of_mem_take ha)
    obtain ⟨n, hn⟩ := ih _ (length_sweep_lt hfull hstuck)
      (fun i a ha => hdoomed (i + 1) a (mem_of_mem_sweep ha)) (fun i => hx (i + 1))
      (by rwa [countP_sweep]) rfl
    refine ⟨n + 1, ?_⟩
    rwa [swept_succ, sweep_append hfull, hsame]

end Swept

/-! ## The order of the queue -/

/-- A part of a list, in its order, is known by its elements. -/
theorem eq_filter_of_sublist {l l' : List α} {p : α → Bool} (hsub : l'.Sublist l) (hnodup : l.Nodup)
    (hmem : ∀ a ∈ l, a ∈ l' ↔ p a) : l' = l.filter p := by
  have hall : l'.filter p = l' := List.filter_eq_self.2 fun a ha => (hmem a (hsub.subset ha)).1 ha
  have hfilter : l'.Sublist (l.filter p) := by
    rw [← hall]
    exact hsub.filter p
  refine hfilter.eq_of_length_le (List.subperm_of_subset (hnodup.filter p) fun a ha => ?_).length_le
  obtain ⟨ha, hp⟩ := List.mem_filter.1 ha
  exact (hmem a ha).2 hp

section Order

variable {r : α → α → Prop} [DecidableRel r] [IsTrans α r] [Std.Total r]

omit [Std.Total r] in
/-- What is kept of a sorted list with a new member. -/
theorem filter_orderedInsert (p : α → Bool) (a : α) {l : List α} (hl : l.Pairwise r) :
    (l.orderedInsert r a).filter p =
      if p a then (l.filter p).orderedInsert r a else l.filter p := by
  induction l with
  | nil => by_cases ha : p a <;> simp [ha]
  | cons b l ih =>
    obtain ⟨hb, hl⟩ := List.pairwise_cons.1 hl
    by_cases hab : r a b
    · rw [List.orderedInsert_cons_of_le r l hab, List.filter_cons]
      -- everything from `b` on comes after `a`
      have hafter : ∀ c ∈ (b :: l).filter p, r a c := by
        intro c hc
        rcases List.mem_cons.1 (List.mem_of_mem_filter hc) with rfl | hc
        · exact hab
        · exact trans_of r hab (hb c hc)
      cases hfilter : (b :: l).filter p with
      | nil => rfl
      | cons c l' =>
        rw [List.orderedInsert_cons_of_le r l'
          (hafter c (by rw [hfilter]; exact List.mem_cons_self))]
    · -- the new member comes further on
      rw [List.orderedInsert_of_not_le r l hab, List.filter_cons, ih hl, List.filter_cons]
      by_cases ha : p a
      · by_cases hpb : p b
        · rw [if_pos ha, if_pos hpb, if_pos ha, if_pos hpb, List.orderedInsert_of_not_le r _ hab]
        · rw [if_pos ha, if_neg hpb, if_pos ha, if_neg hpb]
      · rw [if_neg ha, if_neg ha]

/-- Sorting keeps the order of what is left. -/
theorem filter_insertionSort (p : α → Bool) (l : List α) :
    (l.insertionSort r).filter p = (l.filter p).insertionSort r := by
  induction l with
  | nil => rfl
  | cons a l ih =>
    rw [List.insertionSort_cons, filter_orderedInsert p a (List.pairwise_insertionSort r l), ih,
      List.filter_cons]
    split
    · rw [List.insertionSort_cons]
    · rfl

end Order

end Queue
