import Mathlib.Data.List.MinMax
import Mathlib.Data.List.Sort

/-!
# Rankings

Choosing the first elements of a set by a key. `First key s a` says that `a` is one with the
least key, and `Ranked key n s l` that `l` lists the `n` first, in order. Both are about the
set alone, so that nothing chosen depends on the order in which its elements were offered:

* `Ranked.unique`: there is one ranking at most;
* `ranked_take`: sorting a list and taking its head computes it, where the keys differ;
* `Ranked.mem_iff`: an element is ranked exactly where fewer than `n` others come before it.
-/

namespace Ranking

variable {α β : Type} [LinearOrder β] {key : α → β} {n : ℕ} {s t : Set α} {a b : α} {l l' : List α}

/-- `a` is in `s`, and nothing in `s` has a smaller key. -/
structure First (key : α → β) (s : Set α) (a : α) : Prop where
  mem : a ∈ s
  le : ∀ b ∈ s, key a ≤ key b

/-- The `n` first of `s`, or all of them, in order. -/
structure Ranked (key : α → β) (n : ℕ) (s : Set α) (l : List α) : Prop where
  length_le : l.length ≤ n
  subset : ∀ a ∈ l, a ∈ s
  sorted : l.Pairwise (key · < key ·)
  best : ∀ a ∈ s, a ∉ l → l.length = n ∧ ∀ b ∈ l, key b < key a

theorem First.unique (hkey : Set.InjOn key s) (ha : First key s a) (hb : First key s b) : a = b :=
  hkey ha.mem hb.mem (le_antisymm (ha.le b hb.mem) (hb.le a ha.mem))

theorem first_of_argmin (h : l.argmin key = some a) : First key {b | b ∈ l} a :=
  ⟨List.argmin_mem h, fun _ hb => List.le_of_mem_argmin hb h⟩

namespace Ranked

theorem nodup (h : Ranked key n s l) : l.Nodup :=
  h.sorted.imp fun hlt heq => absurd (heq ▸ hlt) (lt_irrefl _)

/-- Whatever one ranking has, any other has too. -/
theorem subset_of_ranked (h : Ranked key n s l) (h' : Ranked key n s l') : l ⊆ l' := by
  intro a ha
  by_contra ha'
  obtain ⟨hfull, hbefore⟩ := h'.best a (h.subset a ha) ha'
  -- so `l'` has something that `l` has not, and each would come before the other
  have hmore : ¬ l' ⊆ l := fun hsub => by
    have hle := (List.subperm_of_subset (List.nodup_cons.2 ⟨ha', h'.nodup⟩)
      (List.cons_subset.2 ⟨ha, hsub⟩)).length_le
    have := h.length_le
    rw [List.length_cons] at hle
    omega
  obtain ⟨b, hb', hb⟩ : ∃ b ∈ l', b ∉ l := by
    by_contra hnone
    push Not at hnone
    exact hmore hnone
  exact lt_asymm ((h.best b (h'.subset b hb') hb).2 a ha) (hbefore b hb')

/-- There is only one way to rank: the two lists have the same members, and they are sorted. -/
theorem unique (h : Ranked key n s l) (h' : Ranked key n s l') : l = l' := by
  have hperm : l.Perm l' :=
    (List.perm_ext_iff_of_nodup h.nodup h'.nodup).2 fun a =>
      ⟨fun ha => h.subset_of_ranked h' ha, fun ha => h'.subset_of_ranked h ha⟩
  exact hperm.eq_of_pairwise (fun _ _ _ _ hab hba => absurd hab (lt_asymm hba)) h.sorted h'.sorted

end Ranked

/-- Sorting and taking the head. -/
theorem ranked_take (hnodup : l.Nodup) (hkey : Set.InjOn key {a | a ∈ l}) (n : ℕ) :
    Ranked key n {a | a ∈ l} ((l.insertionSort (key · ≤ key ·)).take n) := by
  have htotal : Std.Total (key · ≤ key · : α → α → Prop) := ⟨fun _ _ => le_total _ _⟩
  have htrans : IsTrans α (key · ≤ key ·) := ⟨fun _ _ _ => le_trans⟩
  let sorted := l.insertionSort (key · ≤ key ·)
  have hmem {a : α} : a ∈ sorted ↔ a ∈ l := List.mem_insertionSort _
  have hle : sorted.Pairwise (key · ≤ key ·) := List.pairwise_insertionSort _ _
  have hne : sorted.Nodup := (List.perm_insertionSort _ l).nodup_iff.2 hnodup
  have hlt : sorted.Pairwise (key · < key ·) := by
    refine (hle.and hne).imp_of_mem fun {a b} ha hb h => lt_of_le_of_ne h.1 fun heq => ?_
    exact h.2 (hkey (hmem.1 ha) (hmem.1 hb) heq)
  refine ⟨List.length_take_le _ _, fun a ha => hmem.1 (List.mem_of_mem_take ha),
    hlt.sublist (List.take_sublist _ _), fun a ha hnot => ?_⟩
  rw [← List.take_append_drop n sorted] at hlt
  have hdrop : a ∈ sorted.drop n := by
    have hsplit : a ∈ sorted.take n ++ sorted.drop n := by
      rw [List.take_append_drop]
      exact hmem.2 ha
    exact (List.mem_append.1 hsplit).resolve_left hnot
  refine ⟨List.length_take_of_le ?_, fun b hb => (List.pairwise_append.1 hlt).2.2 b hb a hdrop⟩
  by_contra hshort
  rw [List.drop_of_length_le (Nat.le_of_not_le hshort)] at hdrop
  cases hdrop

/-- An element is ranked exactly where fewer than `n` others come before it. -/
theorem Ranked.mem_iff {offered : List α} (hnodup : offered.Nodup)
    (h : Ranked key n {a | a ∈ offered} l) :
    a ∈ l ↔ a ∈ offered ∧ offered.countP (key · < key a) < n := by
  rw [List.countP_eq_length_filter]
  constructor
  · intro ha
    refine ⟨h.subset a ha, lt_of_lt_of_le ?_ h.length_le⟩
    -- what comes before it is ranked too
    have hbefore : a :: offered.filter (key · < key a) ⊆ l := by
      refine List.cons_subset.2 ⟨ha, fun b hb => ?_⟩
      obtain ⟨hb, hlt⟩ := List.mem_filter.1 hb
      by_contra hnot
      exact lt_asymm (of_decide_eq_true hlt) ((h.best b hb hnot).2 a ha)
    have hnot : a ∉ offered.filter (key · < key a) := fun ha =>
      lt_irrefl _ (of_decide_eq_true (List.mem_filter.1 ha).2)
    exact (List.subperm_of_subset (List.nodup_cons.2 ⟨hnot, hnodup.filter _⟩) hbefore).length_le
  · rintro ⟨ha, hfew⟩
    by_contra hnot
    obtain ⟨hfull, hbefore⟩ := h.best a ha hnot
    have hsub : l ⊆ offered.filter (key · < key a) := fun b hb =>
      List.mem_filter.2 ⟨h.subset b hb, decide_eq_true (hbefore b hb)⟩
    have hle := (List.subperm_of_subset h.nodup hsub).length_le
    omega

end Ranking
